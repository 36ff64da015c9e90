import Mathlib.Algebra.Order.BigOperators.Group.List
import Mathlib.Data.Finset.Card
import Mathlib.Order.Interval.Finset.Nat
import HolyTls.Lib.Runs

/-!
# `Lib.StackAlloc` — stack allocation over a line of positions

What a bump allocator with marks is for, without blocks or addresses: a **top**, the spans handed out and not
taken back, and the open marks. A push hands out a span that starts at or above the top and becomes the new
top; a mark remembers the top and a release goes back to it, dropping what was pushed since; a clear drops
everything. `Step.inv` says that the live spans never overlap, `scope_restores` that a release undoes all that
happened since its mark, whatever was nested in between.

`sum_le_of_apart` bounds the total length of ranges that do not meet, by the size of the space they lie in.
-/

namespace StackAlloc

open Runs

/-! ## Ranges that do not meet -/

/-- Two ranges, given by start and length, of which one ends before the other starts. -/
def Apart (lo len lo' len' : Nat) : Prop :=
  lo + len ≤ lo' ∨ lo' + len' ≤ lo

instance (lo len lo' len' : Nat) : Decidable (Apart lo len lo' len') :=
  inferInstanceAs (Decidable (_ ∨ _))

theorem Apart.symm {lo len lo' len' : Nat} (h : Apart lo len lo' len') : Apart lo' len' lo len :=
  Or.symm h

/-- Parts of two ranges that do not meet do not meet. -/
theorem Apart.mono {lo len lo' len' a n a' n' : Nat} (h : Apart lo len lo' len') (ha : lo ≤ a)
    (hn : a + n ≤ lo + len) (ha' : lo' ≤ a') (hn' : a' + n' ≤ lo' + len') : Apart a n a' n' := by
  rcases h with h | h
  · exact .inl (by omega)
  · exact .inr (by omega)

/-- Ranges below `N` that do not meet are together no longer than `N`. -/
theorem sum_le_of_apart {α : Type} {lo len : α → Nat} {N : Nat} {l : List α}
    (hl : l.Pairwise (fun x y => Apart (lo x) (len x) (lo y) (len y))) (hN : ∀ x ∈ l, lo x + len x ≤ N) :
    (l.map len).sum ≤ N := by
  -- the set of all positions the ranges cover has as many elements as the ranges are long together
  have hcover : ∃ s : Finset Nat, s ⊆ Finset.range N ∧ s.card = (l.map len).sum ∧
      ∀ p, p ∈ s ↔ ∃ x ∈ l, lo x ≤ p ∧ p < lo x + len x := by
    induction l with
    | nil => exact ⟨∅, Finset.empty_subset _, rfl, by simp⟩
    | cons x l ih =>
      obtain ⟨hx, hl⟩ := List.pairwise_cons.mp hl
      obtain ⟨s, hs, hcard, hmem⟩ := ih hl (fun y hy => hN y (List.mem_cons_of_mem x hy))
      have hdis : Disjoint (Finset.Ico (lo x) (lo x + len x)) s := by
        rw [Finset.disjoint_left]
        intro p hp hps
        obtain ⟨y, hy, hlo, hhi⟩ := (hmem p).mp hps
        rw [Finset.mem_Ico] at hp
        rcases hx y hy with h | h <;> omega
      refine ⟨Finset.Ico (lo x) (lo x + len x) ∪ s, ?_, ?_, ?_⟩
      · apply Finset.union_subset _ hs
        intro p hp
        have hle := hN x List.mem_cons_self
        rw [Finset.mem_Ico] at hp
        exact Finset.mem_range.mpr (by omega)
      · rw [Finset.card_union_of_disjoint hdis, hcard, Nat.card_Ico]
        simp
      · intro p
        rw [Finset.mem_union, Finset.mem_Ico, hmem]
        simp
  obtain ⟨s, hs, hcard, -⟩ := hcover
  rw [← hcard]
  exact (Finset.card_le_card hs).trans (Finset.card_range N).le

/-! ## The allocator -/

/-- A span of positions that was handed out, with the number of its push and what the caller got. -/
structure Span (α : Type) where
  lo : Nat
  hi : Nat
  stamp : Nat
  val : α

/-- A remembered top, with the number of the next push. -/
structure Mark where
  top : Nat
  stamp : Nat

structure State (α : Type) where
  top : Nat
  clock : Nat
  live : List (Span α)
  marks : List Mark

/-- What a step does. -/
inductive Kind
  | push
  | mark
  | release
  | clear
  deriving DecidableEq

variable {α : Type}

inductive Step : State α → List Kind → State α → Prop
  | push {s : State α} {lo hi : Nat} (v : α) (htop : s.top ≤ lo) (hle : lo ≤ hi) :
      Step s [.push] { s with top := hi, clock := s.clock + 1, live := ⟨lo, hi, s.clock, v⟩ :: s.live }
  | mark {s : State α} : Step s [.mark] { s with marks := ⟨s.top, s.clock⟩ :: s.marks }
  | release {s : State α} {m : Mark} {ms : List Mark} (h : s.marks = m :: ms) :
      Step s [.release] { s with
        top := m.top, live := s.live.filter (fun x => x.stamp < m.stamp), marks := ms }
  | clear {s : State α} : Step s [.clear] { s with top := 0, live := [] }

/-- The live spans lie below the top, newest first and each above the ones before it, and what a mark will
    keep lies below the mark. -/
structure Inv (s : State α) : Prop where
  below : ∀ x ∈ s.live, x.hi ≤ s.top
  apart : s.live.Pairwise (fun x y => y.hi ≤ x.lo)
  stamps : ∀ x ∈ s.live, x.stamp < s.clock
  marks : ∀ m ∈ s.marks, m.stamp ≤ s.clock ∧ ∀ x ∈ s.live, x.stamp < m.stamp → x.hi ≤ m.top

theorem Step.inv {s s' : State α} {o : List Kind} (h : Step s o s') (hI : Inv s) : Inv s' := by
  cases h with
  | @push lo hi v htop hle =>
    refine ⟨?_, ?_, ?_, ?_⟩
    · intro x hx
      rcases List.mem_cons.mp hx with rfl | hx
      · exact le_rfl
      · exact (hI.below x hx).trans (htop.trans hle)
    · exact List.pairwise_cons.mpr ⟨fun x hx => (hI.below x hx).trans htop, hI.apart⟩
    · intro x hx
      rcases List.mem_cons.mp hx with rfl | hx
      · exact Nat.lt_succ_self _
      · exact Nat.lt_succ_of_lt (hI.stamps x hx)
    · intro m hm
      obtain ⟨hle', hkeep⟩ := hI.marks m hm
      refine ⟨Nat.le_succ_of_le hle', ?_⟩
      intro x hx hlt
      -- the new span is younger than every open mark
      rcases List.mem_cons.mp hx with rfl | hx
      · exact absurd hlt (Nat.not_lt.mpr hle')
      · exact hkeep x hx hlt
  | mark =>
    refine ⟨hI.below, hI.apart, hI.stamps, ?_⟩
    intro m hm
    rcases List.mem_cons.mp hm with rfl | hm
    · exact ⟨le_rfl, fun x hx _ => hI.below x hx⟩
    · exact hI.marks m hm
  | @release m ms hms =>
    have hm := hI.marks m (hms ▸ List.mem_cons_self)
    refine ⟨?_, hI.apart.filter _, ?_, ?_⟩
    · intro x hx
      obtain ⟨hx, hlt⟩ := List.mem_filter.mp hx
      exact hm.2 x hx (by simpa using hlt)
    · intro x hx
      exact hI.stamps x (List.mem_of_mem_filter hx)
    · intro m' hm'
      obtain ⟨hle, hkeep⟩ := hI.marks m' (hms ▸ List.mem_cons_of_mem m hm')
      exact ⟨hle, fun x hx => hkeep x (List.mem_of_mem_filter hx)⟩
  | clear =>
    refine ⟨fun x hx => (by cases hx), List.Pairwise.nil, fun x hx => (by cases hx), ?_⟩
    intro m hm
    exact ⟨(hI.marks m hm).1, fun x hx => (by cases hx)⟩

/-! ## Scopes -/

/-- Sequences of steps in which every mark has its release. -/
inductive Nested : List Kind → Prop
  | nil : Nested []
  | push : Nested [.push]
  | clear : Nested [.clear]
  | scope {l : List Kind} (h : Nested l) : Nested (.mark :: (l ++ [.release]))
  | append {l l' : List Kind} (h : Nested l) (h' : Nested l') : Nested (l ++ l')

theorem Step.length {s s' : State α} {o : List Kind} (h : Step s o s') : o.length = 1 := by
  cases h <;> rfl

variable {s s' : State α} {ks : List Kind}

/-- What was there before a scope, and how a scope goes: mark, the steps inside, release. -/
theorem scope_cut (h : Trace Step s (.mark :: (ks ++ [.release])) s') :
    ∃ u m ms, Trace Step { s with marks := ⟨s.top, s.clock⟩ :: s.marks } ks u ∧ u.marks = m :: ms ∧
      s' = { u with top := m.top, live := u.live.filter (fun x => x.stamp < m.stamp), marks := ms } := by
  obtain ⟨s₁, hmark, h⟩ := Trace.cons_inv (fun _ _ _ => Step.length) h
  obtain ⟨u, hin, h⟩ := Trace.append_inv (fun _ _ _ => Step.length) h
  obtain ⟨s₂, hrel, h⟩ := Trace.cons_inv (fun _ _ _ => Step.length) h
  cases Trace.nil_inv (fun _ _ _ => Step.length) h
  cases hmark
  cases hrel with
  | @release m ms hms => exact ⟨u, m, ms, hin, hms, rfl⟩

/-- A nested run leaves the open marks alone and, unless it clears, the spans that were live before. -/
theorem Nested.keeps (hn : Nested ks) (h : Trace Step s ks s') :
    s'.marks = s.marks ∧ s.clock ≤ s'.clock ∧ (.clear ∉ ks → ∀ n ≤ s.clock,
      s'.live.filter (fun x => x.stamp < n) = s.live.filter (fun x => x.stamp < n)) := by
  induction hn generalizing s s' with
  | nil =>
    cases Trace.nil_inv (fun _ _ _ => Step.length) h
    exact ⟨rfl, le_rfl, fun _ _ _ => rfl⟩
  | push =>
    obtain ⟨s₁, hs, h⟩ := Trace.cons_inv (fun _ _ _ => Step.length) h
    cases Trace.nil_inv (fun _ _ _ => Step.length) h
    cases hs
    refine ⟨rfl, Nat.le_succ _, ?_⟩
    intro _ n hle
    exact List.filter_cons_of_neg (by simpa using hle)
  | clear =>
    obtain ⟨s₁, hs, h⟩ := Trace.cons_inv (fun _ _ _ => Step.length) h
    cases Trace.nil_inv (fun _ _ _ => Step.length) h
    cases hs
    exact ⟨rfl, le_rfl, fun hc => absurd (List.mem_singleton.mpr rfl) hc⟩
  | @scope l _ ih =>
    obtain ⟨u, m, ms, hin, hms, rfl⟩ := scope_cut h
    obtain ⟨hmarks, hclock, hlive⟩ := ih hin
    obtain ⟨rfl, rfl⟩ := List.cons.inj (hms.symm.trans hmarks)
    refine ⟨rfl, hclock, ?_⟩
    intro hc n hle
    have hc' : Kind.clear ∉ l := fun hm => hc (by simp [hm])
    -- dropping what is younger than the mark does not touch what is older than `n`
    rw [← hlive hc' n hle, List.filter_filter]
    apply List.filter_congr
    intro x _
    by_cases hx : x.stamp < n
    · simp [hx, lt_of_lt_of_le hx hle]
    · simp [hx]
  | append _ _ ih ih' =>
    obtain ⟨u, h, h'⟩ := Trace.append_inv (fun _ _ _ => Step.length) h
    obtain ⟨hm, hc, hl⟩ := ih h
    obtain ⟨hm', hc', hl'⟩ := ih' h'
    refine ⟨hm'.trans hm, hc.trans hc', ?_⟩
    intro hno n hle
    rw [hl' (fun hx => hno (List.mem_append_right _ hx)) n (hle.trans hc),
      hl (fun hx => hno (List.mem_append_left _ hx)) n hle]

/-- A release goes back to where its mark was set: the same top, the same marks, and, when nothing was cleared
    in between, the same live spans. -/
theorem scope_restores (hI : Inv s) (hn : Nested ks) (h : Trace Step s (.mark :: (ks ++ [.release])) s') :
    s'.top = s.top ∧ s'.marks = s.marks ∧ (.clear ∉ ks → s'.live = s.live) := by
  obtain ⟨u, m, ms, hin, hms, rfl⟩ := scope_cut h
  obtain ⟨hmarks, hclock, hlive⟩ := hn.keeps hin
  obtain ⟨rfl, rfl⟩ := List.cons.inj (hms.symm.trans hmarks)
  refine ⟨rfl, rfl, ?_⟩
  intro hc
  rw [hlive hc s.clock le_rfl]
  exact List.filter_eq_self.mpr (fun x hx => by simpa using hI.stamps x hx)

end StackAlloc

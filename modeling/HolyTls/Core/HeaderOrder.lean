import HolyTls.Core.Header
import HolyTls.Lib.Claim

/-!
# `Core.HeaderOrder` — the wire order of request headers (`src/core/header_order.c`)

`reorder_headers` puts the headers that a list of names claims before the others. It keeps a flag for every
header that is placed; what matters of the flags are the headers still unused (`unused`), and from these the
loops claim as in `Lib.Claim` (`orderLoop_claims`).
-/

namespace HolyTls

open Claim (Claims)

/-! ## `reorder_headers` -/

/-- The inner loop of `reorder_headers`: the first unused header of that name, which is then used. A header
    stands beside its flag in `used`. -/
def claimLoop (name : Str8) : List (Header × Bool) → Option Header × List (Header × Bool)
  | [] => (none, [])
  | (h, used) :: rest =>
    if !used && str8MatchCi h.name name then (some h, (h, true) :: rest)
    else ((claimLoop name rest).1, (h, used) :: (claimLoop name rest).2)

/-- The loop over the names; `out` are the headers placed so far. -/
def orderLoop : List Str8 → List (Header × Bool) → HeaderList → HeaderList × List (Header × Bool)
  | [], slots, out => (out, slots)
  | name :: order, slots, out => orderLoop order (claimLoop name slots).2 (out ++ (claimLoop name slots).1.toList)

/-- The loop over what is left. -/
def restLoop : List (Header × Bool) → HeaderList → HeaderList
  | [], out => out
  | (h, used) :: rest, out => restLoop rest (if used then out else out ++ [h])

/-- `reorder_headers`. The copy back takes as many headers as there were, which is how many are placed. -/
def reorderHeaders (list : HeaderList) (order : List Str8) : HeaderList :=
  if order.length = 0 ∨ list.length = 0 then list
  else
    let placed := orderLoop order (list.map (·, false)) []
    restLoop placed.2 placed.1

/-! ## The loops claim headers -/

/-- What names are compared by. -/
def Header.key (h : Header) : Str8 := lower h.name

/-- The headers that are not placed yet. -/
def unused (slots : List (Header × Bool)) : HeaderList := (slots.filter (fun s => !s.2)).map (·.1)

theorem unused_start (list : HeaderList) : unused (list.map (·, false)) = list := by
  unfold unused
  rw [List.filter_map, List.map_map]
  simp [Function.comp_def]

theorem restLoop_eq (slots : List (Header × Bool)) (out : HeaderList) : restLoop slots out = out ++ unused slots := by
  induction slots generalizing out with
  | nil => exact (List.append_nil out).symm
  | cons s slots ih =>
    obtain ⟨h, used⟩ := s
    rw [restLoop, ih]
    cases used <;> simp [unused]

/-- What the inner loop finds among the unused headers. -/
theorem claimLoop_spec (name : Str8) (slots : List (Header × Bool)) :
    (claimLoop name slots = (none, slots) ∧ ∀ h ∈ unused slots, h.key ≠ lower name) ∨
      ∃ a h b, (claimLoop name slots).1 = some h ∧ unused slots = a ++ h :: b ∧
        unused (claimLoop name slots).2 = a ++ b ∧ h.key = lower name ∧ ∀ g ∈ a, g.key ≠ lower name := by
  induction slots with
  | nil => exact .inl ⟨rfl, fun h hh => absurd hh List.not_mem_nil⟩
  | cons s slots ih =>
    obtain ⟨h, used⟩ := s
    by_cases hclaim : (!used && str8MatchCi h.name name) = true
    · obtain ⟨hused, hname⟩ := Bool.and_eq_true_iff.mp hclaim
      obtain rfl : used = false := by simpa using hused
      have hloop : claimLoop name ((h, false) :: slots) = (some h, (h, true) :: slots) := by
        rw [claimLoop, if_pos hclaim]
      refine .inr ⟨[], h, unused slots, by rw [hloop], by simp [unused], by rw [hloop]; simp [unused], ?_, ?_⟩
      · exact str8MatchCi_iff.mp hname
      · exact fun g hg => absurd hg List.not_mem_nil
    · have hloop : claimLoop name ((h, used) :: slots) =
          ((claimLoop name slots).1, (h, used) :: (claimLoop name slots).2) := by
        rw [claimLoop, if_neg hclaim]
      -- this header stays unused, if it was, and has another name
      have hcons : ∀ rest : List (Header × Bool),
          unused ((h, used) :: rest) = (if used then [] else [h]) ++ unused rest := by
        intro rest
        cases used <;> simp [unused]
      have hother : ∀ g ∈ (if used then [] else [h]), g.key ≠ lower name := by
        intro g hg
        cases used with
        | true => cases hg
        | false =>
          rw [List.mem_singleton.mp hg]
          intro hkey
          exact hclaim (Bool.and_eq_true_iff.mpr ⟨rfl, str8MatchCi_iff.mpr hkey⟩)
      rcases ih with ⟨hnone, hrest⟩ | ⟨a, g, b, hsome, hbefore, hafter, hname, hfirst⟩
      · refine .inl ⟨by rw [hloop, hnone], fun g hg => ?_⟩
        rw [hcons] at hg
        exact (List.mem_append.mp hg).elim (hother g) (hrest g)
      · refine .inr ⟨(if used then [] else [h]) ++ a, g, b, by rw [hloop, hsome], ?_, ?_, hname, fun y hy => ?_⟩
        · rw [hcons, hbefore, List.append_assoc]
        · rw [hloop, hcons, hafter, List.append_assoc]
        · exact (List.mem_append.mp hy).elim (hother y) (hfirst y)

/-- **The step lemma, over all names.** -/
theorem orderLoop_claims (order : List Str8) (slots : List (Header × Bool)) (out : HeaderList) :
    ∃ c, (orderLoop order slots out).1 = out ++ c ∧
      Claims Header.key (order.map lower) (unused slots) c (unused (orderLoop order slots out).2) := by
  induction order generalizing slots out with
  | nil => exact ⟨[], (List.append_nil out).symm, .done⟩
  | cons name order ih =>
    obtain ⟨c, hout, hclaims⟩ := ih (claimLoop name slots).2 (out ++ (claimLoop name slots).1.toList)
    rcases claimLoop_spec name slots with ⟨hnone, hrest⟩ | ⟨a, h, b, hsome, hbefore, hafter, hname, hfirst⟩
    · refine ⟨c, ?_, .skip hrest ?_⟩
      · rw [orderLoop, hout, hnone]
        simp
      · rw [orderLoop]
        rw [hnone] at hclaims ⊢
        exact hclaims
    · refine ⟨h :: c, ?_, ?_⟩
      · rw [orderLoop, hout, hsome]
        simp
      · rw [hbefore, orderLoop]
        rw [hafter] at hclaims
        exact .take hfirst hname hclaims

theorem claims_nil (ks : List Str8) : Claims Header.key ks [] [] [] := by
  induction ks with
  | nil => exact .done
  | cons k ks ih => exact .skip (fun h hh => absurd hh List.not_mem_nil) ih

/-- The result is what the names claim and then what they leave. -/
theorem reorderHeaders_claims (list : HeaderList) (order : List Str8) :
    ∃ c r, reorderHeaders list order = c ++ r ∧ Claims Header.key (order.map lower) list c r := by
  unfold reorderHeaders
  by_cases hnone : order.length = 0 ∨ list.length = 0
  · rw [if_pos hnone]
    rcases hnone with horder | hlist
    · obtain rfl := List.length_eq_zero_iff.mp horder
      exact ⟨[], list, rfl, .done⟩
    · obtain rfl := List.length_eq_zero_iff.mp hlist
      exact ⟨[], [], rfl, claims_nil _⟩
  · rw [if_neg hnone]
    obtain ⟨c, hout, hclaims⟩ := orderLoop_claims order (list.map (·, false)) []
    rw [unused_start] at hclaims
    refine ⟨c, _, ?_, hclaims⟩
    dsimp only
    rw [restLoop_eq, hout, List.nil_append]

section

variable (list : HeaderList) (order : List Str8)

theorem reorderHeaders_eq : reorderHeaders list order =
    Claim.claimed Header.key (order.map lower) list ++ Claim.unclaimed Header.key (order.map lower) list := by
  obtain ⟨c, r, hout, hclaims⟩ := reorderHeaders_claims list order
  rw [hout, hclaims.claimed_eq, hclaims.unclaimed_eq]

theorem reorderHeaders_perm : (reorderHeaders list order).Perm list := by
  obtain ⟨c, r, hout, hclaims⟩ := reorderHeaders_claims list order
  exact hout ▸ hclaims.perm

/-- The headers of a name keep their order. -/
theorem reorderHeaders_filter (name : Str8) :
    (reorderHeaders list order).filter (fun h => str8MatchCi h.name name) =
      list.filter (fun h => str8MatchCi h.name name) := by
  obtain ⟨c, r, hout, hclaims⟩ := reorderHeaders_claims list order
  have hkey : (fun h : Header => str8MatchCi h.name name) = fun h => decide (h.key = lower name) := by
    funext h
    rw [Bool.eq_iff_iff, str8MatchCi_iff, decide_eq_true_iff]
    rfl
  rw [hout, hkey]
  exact hclaims.filter_eq (lower name)

theorem reorderHeaders_idem : reorderHeaders (reorderHeaders list order) order = reorderHeaders list order := by
  obtain ⟨c, r, hout, hclaims⟩ := reorderHeaders_claims list order
  rw [hout, reorderHeaders_eq, ← hclaims.again.claimed_eq, ← hclaims.again.unclaimed_eq]

/-- **Reordering is a stable, idempotent permutation.** The headers come out as those that the names claim, the
    `j`-th occurrence of a name claiming the `j`-th header of that name, and then the others in their order. -/
theorem reorder_headers_stable :
    reorderHeaders list order = Claim.claimed Header.key (order.map lower) list ++
        Claim.unclaimed Header.key (order.map lower) list ∧
      (Claim.unclaimed Header.key (order.map lower) list).Sublist list ∧
      (reorderHeaders list order).Perm list ∧
      (∀ name, (reorderHeaders list order).filter (fun h => str8MatchCi h.name name) =
        list.filter (fun h => str8MatchCi h.name name)) ∧
      reorderHeaders (reorderHeaders list order) order = reorderHeaders list order :=
  ⟨reorderHeaders_eq list order, Claim.unclaimed_sublist _ _ _, reorderHeaders_perm list order,
    reorderHeaders_filter list order, reorderHeaders_idem list order⟩

end

end HolyTls

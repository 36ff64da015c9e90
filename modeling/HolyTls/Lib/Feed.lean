import Mathlib.Tactic

/-!
# `Lib.Feed` — consumers that are fed a stream in chunks

A consumer has a state and emits events. `run step s bs` feeds it one item after another; fed with lists
of items instead, the same `run` is feeding in chunks. An incremental parser does not depend on how its
input is cut when feeding a chunk **agrees** with feeding its items one by one.

States need not be equal for that: a consumer that has failed ignores everything that follows, so two
failed states agree whatever else they hold. `run_chunks_agree` lifts agreement on one chunk to agreement
on a whole stream.
-/

namespace Feed

variable {σ β ε : Type}

/-- Feed the items one after another and collect the events. -/
def run (step : σ → β → σ × List ε) : σ → List β → σ × List ε
  | s, [] => (s, [])
  | s, b :: bs => ((run step (step s b).1 bs).1, (step s b).2 ++ (run step (step s b).1 bs).2)

@[simp] theorem run_nil (step : σ → β → σ × List ε) (s : σ) : run step s [] = (s, []) := rfl

theorem run_cons (step : σ → β → σ × List ε) (s : σ) (b : β) (bs : List β) :
    run step s (b :: bs) =
      ((run step (step s b).1 bs).1, (step s b).2 ++ (run step (step s b).1 bs).2) := rfl

theorem run_append (step : σ → β → σ × List ε) (s : σ) (xs ys : List β) :
    run step s (xs ++ ys) =
      ((run step (run step s xs).1 ys).1, (run step s xs).2 ++ (run step (run step s xs).1 ys).2) := by
  induction xs generalizing s with
  | nil => simp
  | cons x xs ih =>
    rw [List.cons_append, run_cons, ih, run_cons]
    simp [List.append_assoc]

variable {s : σ} {step : σ → β → σ × List ε}

/-- A property of states that every step keeps holds after a run. -/
theorem run_invariant {I : σ → Prop} (hI : ∀ s b, I s → I (step s b).1) (hs : I s) (bs : List β) :
    I (run step s bs).1 := by
  induction bs generalizing s with
  | nil => exact hs
  | cons b bs ih => exact ih (hI s b hs)

variable {dead : σ → Prop}

/-- A state that ignores every item stays as it is and emits nothing. -/
theorem run_absorbing (habs : ∀ s b, dead s → step s b = (s, [])) (hs : dead s) (bs : List β) :
    run step s bs = (s, []) := by
  induction bs with
  | nil => rfl
  | cons b bs ih => rw [run_cons, habs s b hs, ih]; rfl

/-- The same events, and the same state unless both have failed. -/
def Agree (dead : σ → Prop) (x y : σ × List ε) : Prop :=
  x.2 = y.2 ∧ (x.1 = y.1 ∨ (dead x.1 ∧ dead y.1))

theorem Agree.refl (dead : σ → Prop) (x : σ × List ε) : Agree dead x x := ⟨rfl, .inl rfl⟩

variable {x y : σ × List ε}

theorem Agree.symm (h : Agree dead x y) : Agree dead y x :=
  ⟨h.1.symm, h.2.imp Eq.symm And.symm⟩

theorem Agree.trans {z : σ × List ε} (h : Agree dead x y) (h' : Agree dead y z) : Agree dead x z := by
  refine ⟨h.1.trans h'.1, ?_⟩
  rcases h.2 with he | ⟨hx, hy⟩
  · rw [he]
    exact h'.2
  · rcases h'.2 with he' | ⟨-, hz⟩
    · exact .inr ⟨hx, he' ▸ hy⟩
    · exact .inr ⟨hx, hz⟩

/-- Agreeing states have failed together. -/
theorem Agree.dead_iff (h : Agree dead x y) : dead x.1 ↔ dead y.1 := by
  rcases h.2 with he | ⟨hx, hy⟩
  · rw [he]
  · exact ⟨fun _ => hy, fun _ => hx⟩

/-- Run `f` on what `x` left, and put the events together. -/
def andThen (x : σ × List ε) (f : σ → σ × List ε) : σ × List ε := ((f x.1).1, x.2 ++ (f x.1).2)

@[simp] theorem andThen_pure (s : σ) (f : σ → σ × List ε) : andThen (s, []) f = f s := rfl

theorem run_append_andThen (step : σ → β → σ × List ε) (s : σ) (xs ys : List β) :
    run step s (xs ++ ys) = andThen (run step s xs) (fun t => run step t ys) :=
  run_append step s xs ys

/-- Agreement composes, as long as failed states ignore what follows. -/
theorem Agree.andThen {f g : σ → σ × List ε} (h : Agree dead x y) (hf : ∀ s, dead s → f s = (s, []))
    (hg : ∀ s, dead s → g s = (s, [])) (hfg : x.1 = y.1 → Agree dead (f x.1) (g y.1)) :
    Agree dead (Feed.andThen x f) (Feed.andThen y g) := by
  rcases h.2 with he | ⟨hx, hy⟩
  · obtain ⟨hev, hst⟩ := hfg he
    exact ⟨by rw [Feed.andThen, Feed.andThen, h.1, hev], hst⟩
  · rw [Feed.andThen, Feed.andThen, hf _ hx, hg _ hy]
    exact ⟨by rw [h.1], .inr ⟨hx, hy⟩⟩

/-- **Chunking does not matter.** If feeding one chunk agrees with feeding its items, then feeding any
    sequence of chunks agrees with feeding all their items. -/
theorem run_chunks_agree {feed : σ → List β → σ × List ε} {I : σ → Prop}
    (hstep : ∀ s b, dead s → step s b = (s, [])) (hfeed : ∀ s bs, dead s → feed s bs = (s, []))
    (hI : ∀ s b, I s → I (step s b).1) (hchunk : ∀ s bs, I s → Agree dead (feed s bs) (run step s bs))
    (hs : I s) (chunks : List (List β)) :
    Agree dead (run feed s chunks) (run step s chunks.flatten) := by
  induction chunks generalizing s with
  | nil => exact Agree.refl dead _
  | cons c cs ih =>
    rw [List.flatten_cons, run_append_andThen]
    show Agree dead (Feed.andThen (feed s c) (fun t => run feed t cs)) _
    apply Agree.andThen (hchunk s c hs)
    · intro t ht
      exact run_absorbing hfeed ht cs
    · intro t ht
      exact run_absorbing hstep ht cs.flatten
    · intro he
      rw [he]
      exact ih (run_invariant hI hs c)

/-! ## Two consumers side by side -/

/-- Two consumers that start out related stay related after every part of a stream exactly when each item
    meets the condition under which one step keeps them so. -/
theorem run_related_iff {τ : Type} {goes : τ → β → τ} {R : σ → τ → Prop} {C : τ → β → Prop}
    (hstep : ∀ s t b, R s t → (R (step s b).1 (goes t b) ↔ C t b)) {s : σ} {t : τ} (hR : R s t) (bs : List β) :
    (∀ pre, pre <+: bs → R (run step s pre).1 (pre.foldl goes t)) ↔
      ∀ pre b, pre ++ [b] <+: bs → C (pre.foldl goes t) b := by
  have hsnoc : ∀ pre b, R (run step s pre).1 (pre.foldl goes t) →
      (R (run step s (pre ++ [b])).1 ((pre ++ [b]).foldl goes t) ↔ C (pre.foldl goes t) b) := by
    intro pre b hpre
    rw [run_append, List.foldl_append]
    exact hstep _ _ b hpre
  constructor
  · intro h pre b hb
    exact (hsnoc pre b (h pre ((List.prefix_append pre [b]).trans hb))).mp (h _ hb)
  · intro h pre
    induction pre using List.reverseRecOn with
    | nil =>
      intro _
      exact hR
    | append_singleton pre b ih =>
      intro hb
      exact (hsnoc pre b (ih ((List.prefix_append pre [b]).trans hb))).mpr (h pre b hb)

end Feed

import HolyTls.Lib.Prog
import HolyTls.Lib.Runs

/-!
# `Lib.Sweep` — programs that make moves

A machine is often easier to reason about as a set of **moves** than as the program that makes them: a
relation `M` on worlds `γ × σ`, where `σ` is the program's state and `γ` what is true of the program's own
variables and does not show in the state. `Does` connects the two. `Does M w o s m g R` says: when `m` runs
in state `s`, the changes since the world `w` and the events `o` shown since then, with what `m` does,
amount to a sequence of moves that ends with `g` beside the state, and `R` holds of the result.

The rules execute a program symbolically. `modify_bind`, `report_bind` and `get_bind` let changes and events
pile up; `commit` declares that what has piled up is a move; `bind` runs a program whose moves are known.
-/

namespace Prog

open Runs

variable {γ σ ι ω α β : Type}

/-- Run from `s`, after what happened since `w`, the program makes moves. -/
def Does (M : γ × σ → List ω → γ × σ → Prop) (w : γ × σ) (o : List ω) (s : σ) (m : Prog σ ι ω α) (g : γ)
    (R : α → σ → Prop) : Prop :=
  wp (fun _ => True) m (fun a s' o' => Trace M w (o ++ o') (g, s') ∧ R a s') s

namespace Does

variable {M M' : γ × σ → List ω → γ × σ → Prop} {w : γ × σ} {o : List ω} {s : σ} {g g₁ : γ}
  {m m' : Prog σ ι ω α} {f : α → Prog σ ι ω β} {P : α → σ → Prop} {R R' : α → σ → Prop}
  {Q : β → σ → Prop} {t : Prog σ ι ω Unit} {k : α → Prog σ ι ω Unit} {u : Unit → Prog σ ι ω β}
  {U : Unit → σ → Prop}

/-! ## Ends -/

theorem pure {a : α} (hR : R a s) : Does M (g, s) [] s (pure a : Prog σ ι ω α) g R :=
  ⟨Trace.refl _, hR⟩

theorem stuck : Does M w o s (stuck : Prog σ ι ω α) g R := trivial

/-- What has piled up is a sequence of moves. -/
theorem settle (ht : Trace M w o (g₁, s)) (h : Does M (g₁, s) [] s m g R) : Does M w o s m g R :=
  wp_mono h (fun _ _ _ h' => ⟨ht.trans h'.1, h'.2⟩)

/-- What has piled up is a move. -/
theorem commit (hm : M w o (g₁, s)) (h : Does M (g₁, s) [] s m g R) : Does M w o s m g R :=
  settle (Trace.single hm) h

theorem modify {k : σ → σ} (hm : M w o (g, k s)) (hU : U () (k s)) :
    Does M w o s (modify k : Prog σ ι ω Unit) g U := by
  refine ⟨?_, hU⟩
  rw [List.append_nil]
  exact Trace.single hm

theorem report {e : ω} (hm : M w (o ++ [e]) (g, s)) (hU : U () s) :
    Does M w o s (report e : Prog σ ι ω Unit) g U :=
  fun _ => ⟨Trace.single hm, hU⟩

/-! ## Sequences -/

theorem get_bind {f : σ → Prog σ ι ω β} (h : Does M w o s (f s) g Q) : Does M w o s (get >>= f) g Q := h

theorem modify_bind {k : σ → σ} (h : Does M w o (k s) (u ()) g Q) : Does M w o s (Prog.modify k >>= u) g Q := h

theorem report_bind {e : ω} (h : Does M w (o ++ [e]) s (u ()) g Q) : Does M w o s (Prog.report e >>= u) g Q := by
  apply wp_bind.mpr
  intro _
  apply wp_mono h
  intro b s' o' h'
  rwa [List.append_assoc] at h'

theorem await_bind {k : ι → Option α} (h : ∀ a, Does M w o s (f a) g Q) :
    Does M w o s (await k >>= f) g Q :=
  wp_bind.mpr (wp_await h)

/-- The same with what the form of the answer tells. -/
theorem await_some_bind {k : ι → Option α} (h : ∀ i a, k i = some a → Does M w o s (f a) g Q) :
    Does M w o s (await k >>= f) g Q :=
  wp_bind.mpr (wp_await_some h)

theorem pure_bind {a : α} (h : Does M w o s (f a) g Q) :
    Does M w o s ((Pure.pure a : Prog σ ι ω α) >>= f) g Q := h

theorem assoc {δ : Type} {k : β → Prog σ ι ω δ} {Q : δ → σ → Prop}
    (h : Does M w o s (m >>= fun a => f a >>= k) g Q) : Does M w o s ((m >>= f) >>= k) g Q := by
  unfold Does at h ⊢
  simp only [wp_bind, List.append_assoc] at h ⊢
  exact h

/-- What the moves tell about the state in the end. -/
theorem strengthen (h : Does M w o s m g R)
    (himp : ∀ a s' o', Trace M w (o ++ o') (g, s') → R a s' → R' a s') : Does M w o s m g R' :=
  wp_mono h (fun _ _ _ h' => ⟨h'.1, himp _ _ _ h'.1 h'.2⟩)

/-- Only the moves matter. -/
theorem forget (h : Does M w o s m g R) : Does M w o s m g (fun _ _ => True) :=
  strengthen h (fun _ _ _ _ _ => trivial)

/-- A last move after a program whose moves are known. -/
theorem finish (h : Does M w o s m g₁ P) (h' : ∀ a s', P a s' → M (g₁, s') [] (g, s') ∧ R a s') :
    Does M w o s m g R := by
  apply wp_mono h
  rintro a s' o' ⟨ht, hp⟩
  refine ⟨?_, (h' a s' hp).2⟩
  have hlast := ht.trans (Trace.single (h' a s' hp).1)
  rwa [List.append_nil] at hlast

/-- Moves of one kind are moves of a wider kind. -/
theorem widen (h : Does M w o s m g R) (himp : ∀ w o w', M w o w' → M' w o w') : Does M' w o s m g R :=
  wp_mono h (fun _ _ _ h' => ⟨h'.1.mono himp, h'.2⟩)

/-- A program that makes only moves of a narrower kind, and then another. -/
theorem widen_bind (himp : ∀ w o w', M w o w' → M' w o w') (h : Does M w o s m g₁ P)
    (h' : ∀ a s₁ o₁, Trace M w (o ++ o₁) (g₁, s₁) → P a s₁ → Does M' (g₁, s₁) [] s₁ (f a) g Q) :
    Does M' w o s (m >>= f) g Q := by
  apply wp_bind.mpr
  apply wp_mono h
  rintro a s₁ o₁ ⟨ht, hp⟩
  apply wp_mono (h' a s₁ o₁ ht hp)
  rintro b s₂ o₂ ⟨ht', hq⟩
  rw [← List.append_assoc]
  exact ⟨(ht.mono himp).trans ht', hq⟩

/-- A program whose moves are known, and then another. -/
theorem bind (h : Does M w o s m g₁ P)
    (h' : ∀ a s₁ o₁, Trace M w (o ++ o₁) (g₁, s₁) → P a s₁ → Does M (g₁, s₁) [] s₁ (f a) g Q) :
    Does M w o s (m >>= f) g Q :=
  widen_bind (fun _ _ _ hm => hm) h h'

/-! ## Branches and loops -/

theorem ite {c : Prop} [Decidable c] (ht : c → Does M w o s m g R) (hf : ¬ c → Does M w o s m' g R) :
    Does M w o s (if c then m else m') g R := by
  split
  · next h => exact ht h
  · next h => exact hf h

theorem ite_bind {c : Prop} [Decidable c] (ht : c → Does M w o s (m >>= f) g Q)
    (hf : ¬ c → Does M w o s (m' >>= f) g Q) : Does M w o s ((if c then m else m') >>= f) g Q := by
  split
  · next h => exact ht h
  · next h => exact hf h

theorem when_bind {c : Bool} (ht : c = true → Does M w o s (t >>= u) g Q)
    (hf : c = false → Does M w o s (u ()) g Q) : Does M w o s (when c t >>= u) g Q := by
  cases c with
  | true => exact ht rfl
  | false => exact hf rfl

/-- What has piled up is accounted for by the branch that does nothing. -/
theorem when_piled {c : Bool} (ht : c = true → Does M w o s t g U)
    (hf : c = false → Trace M w o (g, s) ∧ U () s) : Does M w o s (Prog.when c t) g U := by
  cases c with
  | true => exact ht rfl
  | false => exact settle (hf rfl).1 (pure (hf rfl).2)

theorem when {c : Bool} (ht : c = true → Does M (g, s) [] s t g U) (hf : c = false → U () s) :
    Does M (g, s) [] s (when c t) g U :=
  when_piled ht (fun hc => ⟨Trace.refl _, hf hc⟩)

theorem whenSome_bind {a : Option α} (hs : ∀ x, a = some x → Does M w o s (k x >>= u) g Q)
    (hn : a = none → Does M w o s (u ()) g Q) : Does M w o s (whenSome a k >>= u) g Q := by
  cases a with
  | some x => exact hs x rfl
  | none => exact hn rfl

theorem whenSome_piled {a : Option α} (hs : ∀ x, a = some x → Does M w o s (k x) g U)
    (hn : a = none → Trace M w o (g, s) ∧ U () s) : Does M w o s (Prog.whenSome a k) g U := by
  cases a with
  | some x => exact hs x rfl
  | none => exact settle (hn rfl).1 (pure (hn rfl).2)

theorem whenSome {a : Option α} (hs : ∀ x, a = some x → Does M (g, s) [] s (k x) g U) (hn : a = none → U () s) :
    Does M (g, s) [] s (whenSome a k) g U :=
  whenSome_piled hs (fun ha => ⟨Trace.refl _, hn ha⟩)

/-- A loop over a list: `hd` says what stands beside the state as the list shrinks, and `J` holds before
    every round. -/
theorem forEach (hd : List α → γ) (J : σ → Prop) {l : List α}
    (hstep : ∀ a as s' o', Trace M (hd l, s) o' (hd (a :: as), s') → J s' →
      Does M (hd (a :: as), s') [] s' (k a) (hd as) (fun _ => J))
    (hJ : J s) : Does M (hd l, s) [] s (forEach k l) (hd []) (fun _ => J) := by
  suffices hgen : ∀ as s' o', Trace M (hd l, s) o' (hd as, s') → J s' →
      Does M (hd as, s') [] s' (Prog.forEach k as) (hd []) (fun _ => J) from hgen l s [] (Trace.refl _) hJ
  intro as
  induction as with
  | nil => exact fun s' o' _ hJ' => pure hJ'
  | cons a as ih =>
    intro s' o' ht hJ'
    show Does M _ _ s' (k a >>= fun _ => Prog.forEach k as) _ _
    apply bind (hstep a as s' o' ht hJ')
    intro _ s₁ o₁ ht₁ hJ₁
    exact ih s₁ (o' ++ o₁) (ht.trans ht₁) hJ₁

end Does

end Prog

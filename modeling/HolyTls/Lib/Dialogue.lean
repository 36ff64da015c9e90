import Mathlib.Tactic

/-!
# `Lib.Dialogue` — two drivers that answer in the same words

A **driver** hears one answer after another; each time it either says something more or is done with a
result. Two drivers whose states are related, and that reply alike in related states, say the same things
and come to the same result (`converse_sim`), whatever they hear. What holds of every reply in a state the
driver can be in holds of everything it says (`converse_said`).
-/

namespace HolyTls.Dialogue

variable {σ τ α ω ρ : Type}

/-- What a driver does with an answer. -/
inductive Reply (ω ρ : Type)
  | say (o : ω)
  | done (r : ρ)
  deriving DecidableEq, Repr

/-- What was said after the opening, and the result if there is one yet. -/
structure Transcript (ω ρ : Type) where
  said : List ω
  result : Option ρ
  deriving DecidableEq, Repr

/-- One more thing said before the rest. -/
def Transcript.after (o : ω) (t : Transcript ω ρ) : Transcript ω ρ := { t with said := o :: t.said }

/-- A whole conversation: the last state of the driver and the transcript. It ends with the result, or while
    the driver still waits for an answer. -/
def converse (step : σ → α → σ × Reply ω ρ) : σ → List α → σ × Transcript ω ρ
  | s, [] => (s, { said := [], result := none })
  | s, a :: as =>
    match step s a with
    | (s', .done r) => (s', { said := [], result := some r })
    | (s', .say o) => ((converse step s' as).1, (converse step s' as).2.after o)

/-- Related drivers reply alike and stay related. -/
def Alike (R : σ → τ → Prop) (f : σ → α → σ × Reply ω ρ) (g : τ → α → τ × Reply ω ρ) : Prop :=
  ∀ s t a, R s t → (f s a).2 = (g t a).2 ∧ R (f s a).1 (g t a).1

/-- **Drivers that reply alike have the same conversations.** -/
theorem converse_sim {R : σ → τ → Prop} {f : σ → α → σ × Reply ω ρ} {g : τ → α → τ × Reply ω ρ}
    (halike : Alike R f g) {s : σ} {t : τ} (hR : R s t) (as : List α) :
    (converse f s as).2 = (converse g t as).2 ∧ R (converse f s as).1 (converse g t as).1 := by
  induction as generalizing s t with
  | nil => exact ⟨rfl, hR⟩
  | cons a as ih =>
    obtain ⟨hreply, hnext⟩ := halike s t a hR
    rcases hf : f s a with ⟨s', x⟩
    rcases hg : g t a with ⟨t', y⟩
    rw [hf, hg] at hreply hnext
    obtain rfl : x = y := hreply
    cases x with
    | done r => simp only [converse, hf, hg]; exact ⟨trivial, hnext⟩
    | say o =>
      obtain ⟨hsame, hlast⟩ := ih hnext
      simp only [converse, hf, hg, hsame]
      exact ⟨trivial, hlast⟩

/-- **The invariant rule**: what is said from states of the invariant has the property. -/
theorem converse_said {I : σ → Prop} {Q : ω → Prop} {f : σ → α → σ × Reply ω ρ}
    (hstep : ∀ s a o, I s → (f s a).2 = .say o → I (f s a).1 ∧ Q o) {s : σ} (hs : I s) (as : List α) :
    ∀ o ∈ (converse f s as).2.said, Q o := by
  induction as generalizing s with
  | nil =>
    intro o ho
    cases ho
  | cons a as ih =>
    intro o ho
    have hnext := hstep s a
    rcases hf : f s a with ⟨s', x⟩
    rw [hf] at hnext
    cases x with
    | done r =>
      simp only [converse, hf] at ho
      cases ho
    | say w =>
      obtain ⟨hs', hw⟩ := hnext w hs rfl
      simp only [converse, hf, Transcript.after] at ho
      rcases List.mem_cons.mp ho with rfl | ho
      · exact hw
      · exact ih hs' o ho

end HolyTls.Dialogue

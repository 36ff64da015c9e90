import HolyTls.Lib.Prog

/-!
# `Lib.Ghost` — programs that carry ghost state along

To say something about a program that its state does not show, it is run beside a ghost state: `ghost g f m`
does what `m` does, and after every write `g` computes the new ghost state from the old and the two states.
Code may then be added that reads the ghost state and emits events of its own. `Erases vis m' m` says that
this is all that was added: without the ghost state and the events that `vis` hides, `m'` is `m`, and so it has
the same runs (`Erases.run_eq`).
-/

namespace Prog

variable {σ γ ι ω ω' α β : Type}

/-- Run `m` beside a ghost state that follows the writes. -/
def ghost (g : γ → σ → σ → γ) (f : ω → ω') : Prog σ ι ω α → Prog (σ × γ) ι ω' α
  | ret a => ret a
  | read k => read (fun u => ghost g f (k u.1))
  | write s k => read (fun u => write (s, g u.2 u.1 s) (ghost g f k))
  | emit e k => emit (f e) (ghost g f k)
  | ask k => ask (fun i => ghost g f (k i))
  | stuck => stuck

/-- `m'` is `m`, with ghost state and hidden events added. -/
inductive Erases (vis : ω' → Option ω) : Prog (σ × γ) ι ω' α → Prog σ ι ω α → Prop
  | ret (a : α) : Erases vis (ret a) (ret a)
  | read {k' : σ × γ → Prog (σ × γ) ι ω' α} {k : σ → Prog σ ι ω α} (h : ∀ u, Erases vis (k' u) (k u.1)) :
      Erases vis (read k') (read k)
  | write {u : σ × γ} {m' : Prog (σ × γ) ι ω' α} {m : Prog σ ι ω α} (h : Erases vis m' m) :
      Erases vis (write u m') (write u.1 m)
  | emit {e' : ω'} {e : ω} {m' : Prog (σ × γ) ι ω' α} {m : Prog σ ι ω α} (he : vis e' = some e)
      (h : Erases vis m' m) : Erases vis (emit e' m') (emit e m)
  | ask {k' : ι → Prog (σ × γ) ι ω' α} {k : ι → Prog σ ι ω α} (h : ∀ i, Erases vis (k' i) (k i)) :
      Erases vis (ask k') (ask k)
  | stuck : Erases vis stuck stuck
  | look {k' : σ × γ → Prog (σ × γ) ι ω' α} {m : Prog σ ι ω α} (h : ∀ u, Erases vis (k' u) m) :
      Erases vis (read k') m
  | hidden {e' : ω'} {m' : Prog (σ × γ) ι ω' α} {m : Prog σ ι ω α} (he : vis e' = none) (h : Erases vis m' m) :
      Erases vis (emit e' m') m

variable {vis : ω' → Option ω} {g : γ → σ → σ → γ} {f : ω → ω'}

theorem Erases.ghost (hvis : ∀ e, vis (f e) = some e) (m : Prog σ ι ω α) : Erases vis (ghost g f m) m := by
  induction m with
  | ret a => exact .ret a
  | read k ih => exact .read (fun u => ih u.1)
  | write s k ih => exact .look (fun u => .write ih)
  | emit e k ih => exact .emit (hvis e) ih
  | ask k ih => exact .ask ih
  | stuck => exact .stuck

variable {m' : Prog (σ × γ) ι ω' α} {m : Prog σ ι ω α}

theorem Erases.bind {k' : α → Prog (σ × γ) ι ω' β} {k : α → Prog σ ι ω β} (h : Erases vis m' m)
    (hk : ∀ a, Erases vis (k' a) (k a)) :
    Erases vis (m' >>= k') (m >>= k) := by
  show Erases vis (andThen m' k') (andThen m k)
  induction h with
  | ret a => exact hk a
  | read _ ih => exact .read ih
  | write _ ih => exact .write ih
  | emit he _ ih => exact .emit he ih
  | ask _ ih => exact .ask ih
  | stuck => exact .stuck
  | look _ ih => exact .look ih
  | hidden he _ ih => exact .hidden he ih

/-- Hidden code at the end. -/
theorem Erases.followed {k' : α → Prog (σ × γ) ι ω' α} (h : Erases vis m' m)
    (hk : ∀ a, Erases vis (k' a) (Prog.ret a)) : Erases vis (m' >>= k') m := by
  show Erases vis (andThen m' k') m
  induction h with
  | ret a => exact hk a
  | read _ ih => exact .read ih
  | write _ ih => exact .write ih
  | emit he _ ih => exact .emit he ih
  | ask _ ih => exact .ask ih
  | stuck => exact .stuck
  | look _ ih => exact .look ih
  | hidden he _ ih => exact .hidden he ih

theorem Erases.ite {c : Prop} [Decidable c] {m₁' m₂' : Prog (σ × γ) ι ω' α} {m₁ m₂ : Prog σ ι ω α}
    (h₁ : Erases vis m₁' m₁) (h₂ : Erases vis m₂' m₂) :
    Erases vis (if c then m₁' else m₂') (if c then m₁ else m₂) := by
  split
  · exact h₁
  · exact h₂

/-- What is left of a run without the ghost state and the hidden events. -/
def Result.erase (vis : ω' → Option ω) (r : Result (σ × γ) ω' α) : Result σ ω α :=
  ⟨r.val, r.state.1, r.out.filterMap vis⟩

/-- **Erasure is sound**: on the same answers both programs do the same. -/
theorem Erases.run_eq (h : Erases vis m' m) (u : σ × γ) (is : List ι) :
    (run m' u is).map (Result.erase vis) = run m u.1 is := by
  induction h generalizing u is with
  | ret a | stuck => rfl
  | read _ ih | look _ ih => exact ih u u is
  | @write u' m' m _ ih => exact ih u' is
  | @emit e' e m' m he _ ih =>
    rw [run, run, ← ih u is, Option.map_map, Option.map_map]
    congr 1
    funext r
    simp [Result.erase, he]
  | ask _ ih =>
    cases is with
    | nil => rfl
    | cons i is => exact ih i u is
  | @hidden e' m' m he _ ih =>
    rw [run, ← ih u is, Option.map_map]
    congr 1
    funext r
    simp [Result.erase, he]

/-- What the ghost state's own rule preserves holds after every program, which emits its own events only. -/
theorem wp_ghost {I : σ × γ → Prop} (hI : ∀ u s, I u → I (s, g u.2 u.1 s)) {ok : ω' → Prop} (m : Prog σ ι ω α)
    {u : σ × γ} (h : I u) :
    wp ok (Prog.ghost g f m) (fun _ u' o => I u' ∧ ∀ e ∈ o, ∃ e₀, e = f e₀) u := by
  induction m generalizing u with
  | ret a => exact ⟨h, by simp⟩
  | read k ih => exact ih u.1 h
  | write s k ih => exact ih (hI u s h)
  | emit e k ih =>
    intro _
    refine wp_mono (ih h) ?_
    rintro a u' o ⟨hu', ho⟩
    refine ⟨hu', ?_⟩
    intro e' he'
    rcases List.mem_cons.mp he' with rfl | he'
    · exact ⟨e, rfl⟩
    · exact ho e' he'
  | ask k ih => exact fun i => ih i h
  | stuck => trivial

end Prog

import Mathlib.Tactic

/-!
# `Lib.Prog` — stateful programs that ask their environment and report what they do

A program works on a state, asks its environment for answers, and emits events. `Prog σ ι ω α` is the tree
of what such a program does: every node is one action, with what follows it. `run` executes a program on a
list of answers; it yields nothing when the answers do not fit, or when a recursive program is unfolded
less deep than it calls itself (`fix`).

`wp ok m Q` is the **weakest precondition** of `m` for `Q`, over the runs whose events all meet `ok`: it
holds in a state when every such run from there, on whatever answers, ends in `Q`. It is computed over the
tree, and sound for `run` (`run_sound`). The rules take a program apart: `wp_bind` for sequencing, `wp_fix`
for recursion.
-/

/-- A program over states `σ` that asks for answers `ι`, emits events `ω` and returns an `α`. -/
inductive Prog (σ ι ω α : Type) : Type
  | ret (a : α)
  | read (k : σ → Prog σ ι ω α)
  | write (s : σ) (k : Prog σ ι ω α)
  | emit (e : ω) (k : Prog σ ι ω α)
  | ask (k : ι → Prog σ ι ω α)
  | stuck

namespace Prog

variable {σ ι ω α β : Type}

/-- One program after another. -/
def andThen (m : Prog σ ι ω α) (f : α → Prog σ ι ω β) : Prog σ ι ω β :=
  match m with
  | ret a => f a
  | read k => read (fun s => andThen (k s) f)
  | write s k => write s (andThen k f)
  | emit e k => emit e (andThen k f)
  | ask k => ask (fun i => andThen (k i) f)
  | stuck => stuck

instance : Monad (Prog σ ι ω) where
  pure := ret
  bind := andThen

/-- The state. -/
def get : Prog σ ι ω σ := read ret

/-- Change the state. -/
def modify (f : σ → σ) : Prog σ ι ω Unit := read (fun s => write (f s) (ret ()))

/-- Report an event. -/
def report (e : ω) : Prog σ ι ω Unit := emit e (ret ())

/-- Ask for an answer of the form that `f` takes. -/
def await (f : ι → Option α) : Prog σ ι ω α :=
  ask (fun i => match f i with
    | some a => ret a
    | none => stuck)

/-- Run `m` if `c`. -/
def when (c : Bool) (m : Prog σ ι ω Unit) : Prog σ ι ω Unit := if c then m else ret ()

/-- Run `f` on the value, if there is one. -/
def whenSome (o : Option α) (f : α → Prog σ ι ω Unit) : Prog σ ι ω Unit :=
  match o with
  | some a => f a
  | none => ret ()

/-- Run `f` on the elements of a list, from left to right. -/
def forEach (f : α → Prog σ ι ω Unit) : List α → Prog σ ι ω Unit
  | [] => ret ()
  | a :: as => andThen (f a) (fun _ => forEach f as)

/-- A recursive program, unfolded `n` times. -/
def fix (body : (α → Prog σ ι ω β) → α → Prog σ ι ω β) : Nat → α → Prog σ ι ω β
  | 0 => fun _ => stuck
  | n + 1 => body (fix body n)

/-! ## Running a program -/

/-- What a run yields. -/
structure Result (σ ω α : Type) where
  val : α
  state : σ
  out : List ω

/-- Execute a program from a state on a list of answers. -/
def run : Prog σ ι ω α → σ → List ι → Option (Result σ ω α)
  | ret a, s, _ => some ⟨a, s, []⟩
  | read k, s, is => run (k s) s is
  | write s' k, _, is => run k s' is
  | emit e k, s, is => (run k s is).map (fun r => { r with out := e :: r.out })
  | ask _, _, [] => none
  | ask k, s, i :: is => run (k i) s is
  | stuck, _, _ => none

/-! ## Weakest preconditions -/

/-- Every run whose events meet `ok` ends in `Q`. -/
def wp (ok : ω → Prop) : Prog σ ι ω α → (α → σ → List ω → Prop) → σ → Prop
  | ret a, Q, s => Q a s []
  | read k, Q, s => wp ok (k s) Q s
  | write s' k, Q, _ => wp ok k Q s'
  | emit e k, Q, s => ok e → wp ok k (fun a s' o => Q a s' (e :: o)) s
  | ask k, Q, s => ∀ i, wp ok (k i) Q s
  | stuck, _, _ => True

variable {m : Prog σ ι ω α} {Q : α → σ → List ω → Prop}

/-- **Soundness**: a run that meets the condition ends in what its weakest precondition promises. -/
theorem run_sound {ok : ω → Prop} {s : σ} {is : List ι} {r : Result σ ω α} (hwp : wp ok m Q s)
    (hrun : run m s is = some r) (hok : ∀ e ∈ r.out, ok e) :
    Q r.val r.state r.out := by
  induction m generalizing Q s is r with
  | ret a =>
    cases hrun
    exact hwp
  | read k ih => exact ih s hwp hrun hok
  | write s' k ih => exact ih hwp hrun hok
  | emit e k ih =>
    obtain ⟨r', hr', rfl⟩ := Option.map_eq_some_iff.mp hrun
    exact ih (Q := fun a s' o => Q a s' (e :: o)) (hwp (hok e List.mem_cons_self)) hr'
      (fun x hx => hok x (List.mem_cons_of_mem e hx))
  | ask k ih =>
    cases is with
    | nil => cases hrun
    | cons i is => exact ih i (hwp i) hrun hok
  | stuck => cases hrun

variable {ok : ω → Prop} {s : σ}

theorem wp_mono {Q' : α → σ → List ω → Prop} (h : wp ok m Q s) (himp : ∀ a s' o, Q a s' o → Q' a s' o) :
    wp ok m Q' s := by
  induction m generalizing Q Q' s with
  | ret a => exact himp _ _ _ h
  | read k ih => exact ih s h himp
  | write s' k ih => exact ih h himp
  | emit e k ih => exact fun he => ih (h he) (fun a s' o => himp a s' (e :: o))
  | ask k ih => exact fun i => ih i (h i) himp
  | stuck => trivial

theorem wp_true (m : Prog σ ι ω α) : wp ok m (fun _ _ _ => True) s := by
  induction m generalizing s with
  | ret a | stuck => trivial
  | read k ih => exact ih s
  | write s' k ih => exact ih
  | emit e k ih => exact fun _ => ih
  | ask k ih => exact fun i => ih i

@[simp] theorem wp_get {Q : σ → σ → List ω → Prop} : wp ok (get : Prog σ ι ω σ) Q s ↔ Q s s [] := Iff.rfl

@[simp] theorem wp_modify {f : σ → σ} {Q : Unit → σ → List ω → Prop} :
    wp ok (modify f : Prog σ ι ω Unit) Q s ↔ Q () (f s) [] := Iff.rfl

@[simp] theorem wp_report {e : ω} {Q : Unit → σ → List ω → Prop} :
    wp ok (report e : Prog σ ι ω Unit) Q s ↔ (ok e → Q () s [e]) := Iff.rfl

theorem wp_await_some {f : ι → Option α} (h : ∀ i a, f i = some a → Q a s []) :
    wp ok (await f : Prog σ ι ω α) Q s := by
  intro i
  cases hf : f i with
  | none => simp only [hf, wp]
  | some a =>
    simp only [hf, wp]
    exact h i a hf

theorem wp_await {f : ι → Option α} (h : ∀ a, Q a s []) : wp ok (await f : Prog σ ι ω α) Q s :=
  wp_await_some (fun _ a _ => h a)

@[simp] theorem wp_bind {f : α → Prog σ ι ω β} {Q : β → σ → List ω → Prop} :
    wp ok (m >>= f) Q s ↔
      wp ok m (fun a s₁ o₁ => wp ok (f a) (fun b s₂ o₂ => Q b s₂ (o₁ ++ o₂)) s₁) s := by
  show wp ok (andThen m f) Q s ↔ _
  induction m generalizing Q s with
  | ret a | stuck => exact Iff.rfl
  | read k ih => exact ih s
  | write s' k ih => exact ih
  | emit e k ih =>
    constructor
    · exact fun h he => ih.mp (h he)
    · exact fun h he => ih.mpr (h he)
  | ask k ih =>
    constructor
    · exact fun h i => (ih i).mp (h i)
    · exact fun h i => (ih i).mpr (h i)

/-- An event that is reported first is among those of the run. -/
theorem wp_report_bind {e : ω} {f : Unit → Prog σ ι ω β} {P : List ω → Prop} (h : ∀ o, P (e :: o)) :
    wp ok (report e >>= f) (fun _ _ o => P o) s := by
  rw [wp_bind, wp_report]
  intro _
  exact wp_mono (wp_true (f ())) (fun _ _ o _ => h o)

theorem wp_ite {c : Prop} [Decidable c] {m' : Prog σ ι ω α} (ht : c → wp ok m Q s) (hf : ¬ c → wp ok m' Q s) :
    wp ok (if c then m else m') Q s := by
  split
  · next h => exact ht h
  · next h => exact hf h

/-- Recursion: a specification that the body keeps is kept by every unfolding. The specification may depend
    on a `k` that the program does not see. -/
theorem wp_fix {κ : Type} {body : (α → Prog σ ι ω β) → α → Prog σ ι ω β} (P : κ → α → σ → Prop)
    (Q : κ → α → σ → β → σ → List ω → Prop)
    (hbody : ∀ self, (∀ k a s, P k a s → wp ok (self a) (Q k a s) s) →
      ∀ k a s, P k a s → wp ok (body self a) (Q k a s) s) :
    ∀ n k a s, P k a s → wp ok (fix body n a) (Q k a s) s := by
  intro n
  induction n with
  | zero => exact fun k a s _ => trivial
  | succ n ih => exact hbody (fix body n) ih

end Prog

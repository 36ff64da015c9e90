import HolyTls.Lib.Sweep

/-!
# `Lib.Machine` — machines that handle one event after another

A `Machine` waits for events; every event runs a program to its end, on whatever the environment answers,
and what the program reports is appended to a log. A handler that may be entered again while it runs is
given a bound on how deep. If every handler makes moves (`Lib.Sweep`) and keeps what it starts from, the log
of every run is the trace of a sequence of moves (`Machine.Reach.trace`).
-/

namespace Prog

open Runs

/-- A machine over states `σ`, events `ε`, answers `ι` and log entries `ω`. -/
structure Machine (σ ι ω ε : Type) where
  init : σ
  enabled : σ → ε → Bool
  handle : Nat → ε → Prog σ ι ω Unit

namespace Machine

variable {σ ι ω ε γ : Type}

/-- The state of a machine and what it has done. -/
structure System (σ ω : Type) where
  state : σ
  log : List ω

/-- An event with how deep its handler is entered again and what the environment answers. -/
structure Turn (ι ε : Type) where
  event : ε
  depth : Nat := 1
  answers : List ι := []

variable (m : Machine σ ι ω ε)

/-- One event, run to its end. -/
def step (w : System σ ω) (t : Turn ι ε) : Option (System σ ω) :=
  if m.enabled w.state t.event then
    (run (m.handle t.depth t.event) w.state t.answers).map
      (fun res => { state := res.state, log := w.log ++ res.out })
  else none

/-- The states that runs pass through. -/
def Reach : System σ ω → Prop := Runs.Reach (· = { state := m.init, log := [] }) m.step (fun _ _ => True)

/-- A given run. -/
def play (ts : List (Turn ι ε)) : Option (System σ ω) := ts.foldlM m.step { state := m.init, log := [] }

variable {m}

theorem Reach.of_play {w : System σ ω} {ts : List (Turn ι ε)} (h : m.play ts = some w) : m.Reach w :=
  Runs.Reach.foldlM (.start rfl) h

/-- **Runs are sequences of moves.** -/
theorem Reach.trace {M : γ × σ → List ω → γ × σ → Prop} {g : γ} {J : σ → Prop} (hinit : J m.init)
    (hhandle : ∀ n e s, J s → m.enabled s e = true →
      Does M (g, s) [] s (m.handle n e) g (fun _ => J))
    {w : System σ ω} (h : m.Reach w) : Trace M (g, m.init) w.log (g, w.state) ∧ J w.state := by
  refine Runs.Reach.invariant (I := fun w => Trace M (g, m.init) w.log (g, w.state) ∧ J w.state)
    ?_ ?_ h
  · rintro w rfl
    exact ⟨Trace.refl _, hinit⟩
  · rintro w t w' ⟨ht, hJ⟩ _ hstep
    unfold step at hstep
    split at hstep
    · next hen =>
        obtain ⟨res, hrun, rfl⟩ := Option.map_eq_some_iff.mp hstep
        have hdoes := run_sound (hhandle t.depth t.event w.state hJ hen) hrun (fun _ _ => trivial)
        exact ⟨ht.trans hdoes.1, hdoes.2⟩
    · cases hstep

end Machine

end Prog

import Mathlib.Tactic

/-!
# `Lib.Drain` — loops around an incremental decoder

A decoder is fed a chunk of input and called again and again: each call may consume input and fill an output
buffer of fixed size, and says how it went. What comes out is emitted, and an emission may be refused, which
ends the loop. Such loops differ in when they make another round, so `pump` takes that as a parameter.

An `Inflater` comes with what zlib documents: a call that says `ok` has consumed or produced something, and
once the end of the stream is reached every further call says so and does nothing. `drain` is the loop
`do { call; emit; } while (input left or buffer full)` around one. Every emission takes from a finite `room`,
so the loop ends, unless the decoder comes to the end of the stream with input left
(`drain_terminates_iff`): then no call consumes anything any more and the loop condition stays true.
-/

namespace Drain

/-- What a call reports. -/
inductive Ret
  | ok
  | streamEnd
  | bufError
  | error
deriving DecidableEq

/-- The effect of a call: the state after it, the input that is left and the output. -/
structure Call (σ α : Type) where
  ret : Ret
  state : σ
  rest : List α
  out : List α

/-- An incremental decoder; a call is given the input and the size of the output buffer. -/
structure Decoder (α : Type) where
  State : Type
  init : State
  call : State → List α → Nat → Call State α

/-- A decoder of one stream, with what it promises. -/
structure Inflater (α : Type) extends Decoder α where
  /-- the end of the stream has been reached -/
  Ended : State → Prop
  rest_suffix : ∀ s inp size, (call s inp size).rest <:+ inp
  out_le : ∀ s inp size, (call s inp size).out.length ≤ size
  progress : ∀ s inp size, (call s inp size).ret = .ok →
    (call s inp size).rest.length < inp.length ∨ (call s inp size).out ≠ []
  ended_of_end : ∀ s inp size, (call s inp size).ret = .streamEnd → Ended (call s inp size).state
  call_ended : ∀ s inp size, Ended s →
    (call s inp size).ret = .streamEnd ∧ (call s inp size).rest = inp ∧ (call s inp size).out = []

/-- Where output goes: `emit` refuses it with `none`. Each emission that is not empty takes room. -/
structure Sink (α ε : Type) where
  emit : ε → List α → Option ε
  room : ε → Nat
  emit_nil : ∀ {e out e'}, emit e out = some e' → emit e' [] = some e'
  room_lt : ∀ {e out e'}, emit e out = some e' → out ≠ [] → room e' < room e
  room_le : ∀ {e out e'}, emit e out = some e' → room e' ≤ room e

/-! ## Loops -/

section

variable {α ε : Type} (d : Decoder α) (k : Sink α ε) (again : Call d.State α → Bool) (size : Nat)

/-- Call, emit, and go on while `again` says so. The result holds what the last call reported, or nothing when
    the loop ended by an error or a refusal, with the decoder and the sink as they are then. A loop that has
    not ended within `fuel` rounds has no result. -/
def pump : Nat → d.State → List α → ε → Option (Option Ret × d.State × ε)
  | 0, _, _, _ => none
  | fuel + 1, s, inp, e =>
    let r := d.call s inp size
    if r.ret = .error then some (none, r.state, e)
    else
      match k.emit e r.out with
      | none => some (none, r.state, e)
      | some e' => if again r then pump fuel r.state r.rest e' else some (some r.ret, r.state, e')

variable {d k again size} {s : d.State} {inp : List α} {e : ε} {fuel : Nat}

theorem pump_succ : pump d k again size (fuel + 1) s inp e =
    if (d.call s inp size).ret = .error then some (none, (d.call s inp size).state, e)
    else
      match k.emit e (d.call s inp size).out with
      | none => some (none, (d.call s inp size).state, e)
      | some e' =>
        if again (d.call s inp size) then
          pump d k again size fuel (d.call s inp size).state (d.call s inp size).rest e'
        else some (some (d.call s inp size).ret, (d.call s inp size).state, e') := rfl

/-- More rounds change nothing once the loop has ended. -/
theorem pump_mono {fuel' : Nat} (hle : fuel ≤ fuel') {res : Option Ret × d.State × ε}
    (h : pump d k again size fuel s inp e = some res) : pump d k again size fuel' s inp e = some res := by
  induction fuel generalizing fuel' s inp e with
  | zero => cases h
  | succ fuel ih =>
    obtain ⟨fuel', rfl⟩ := Nat.exists_eq_succ_of_ne_zero (Nat.ne_of_gt (Nat.zero_lt_of_lt hle))
    rw [pump_succ] at h ⊢
    split at h
    · next herr => rwa [if_pos herr]
    · next herr =>
        rw [if_neg herr]
        cases he : k.emit e (d.call s inp size).out with
        | none => rwa [he] at h
        | some e' =>
          rw [he] at h
          dsimp only at h ⊢
          split at h
          · next hgo =>
              rw [if_pos hgo]
              exact ih (Nat.le_of_succ_le_succ hle) h
          · next hgo => rwa [if_neg hgo]

theorem pump_keeps {I : ε → Prop} (hI : ∀ {e out e'}, k.emit e out = some e' → I e → I e')
    {res : Option Ret × d.State × ε} (h : pump d k again size fuel s inp e = some res) (he : I e) : I res.2.2 := by
  induction fuel generalizing s inp e with
  | zero => cases h
  | succ fuel ih =>
    rw [pump_succ] at h
    split at h
    · cases h
      exact he
    · split at h
      · cases h
        exact he
      · next e' hemit =>
          split at h
          · exact ih h (hI hemit he)
          · cases h
            exact hI hemit he

/-- The result does not depend on the fuel. -/
theorem pump_unique {fuel' : Nat} {res res' : Option Ret × d.State × ε}
    (h : pump d k again size fuel s inp e = some res)
    (h' : pump d k again size fuel' s inp e = some res') : res = res' := by
  have h1 := pump_mono (Nat.le_max_left fuel fuel') h
  have h2 := pump_mono (Nat.le_max_right fuel fuel') h'
  rw [h1] at h2
  exact Option.some_inj.mp h2

end

/-! ## Draining an inflater -/

variable {α ε : Type} (d : Inflater α) (k : Sink α ε) (size : Nat)

/-- Whether `while (input left or buffer full)` makes another round; a call that could do nothing breaks out
    of the loop. -/
def inputLeftOrFull (r : Call d.State α) : Bool := r.ret != .bufError && (!r.rest.isEmpty || r.out.length == size)

/-- The loop that feeds a chunk. -/
def drain (fuel : Nat) (s : d.State) (inp : List α) (e : ε) : Option (Option Ret × d.State × ε) :=
  pump d.toDecoder k (inputLeftOrFull d size) size fuel s inp e

/-- The loop ends. -/
def Terminates (s : d.State) (inp : List α) (e : ε) : Prop := ∃ fuel res, drain d k size fuel s inp e = some res

/-- After `n` calls that went well, the next one is at the end of the stream and has input left. -/
def StuckAt : Nat → d.State → List α → ε → Prop
  | 0, s, inp, e =>
    (d.call s inp size).ret = .streamEnd ∧ (d.call s inp size).rest ≠ [] ∧
      (k.emit e (d.call s inp size).out).isSome = true
  | n + 1, s, inp, e =>
    (d.call s inp size).ret = .ok ∧
      ∃ e', k.emit e (d.call s inp size).out = some e' ∧ StuckAt n (d.call s inp size).state (d.call s inp size).rest e'

/-- The stream ends before the input does, and the sink takes all output up to there. -/
def Stuck (s : d.State) (inp : List α) (e : ε) : Prop := ∃ n, StuckAt d k size n s inp e

variable {d k size} {s : d.State} {inp : List α} {e : ε} {n fuel : Nat}

theorem drain_succ : drain d k size (fuel + 1) s inp e =
    if (d.call s inp size).ret = .error then some (none, (d.call s inp size).state, e)
    else
      match k.emit e (d.call s inp size).out with
      | none => some (none, (d.call s inp size).state, e)
      | some e' =>
        if inputLeftOrFull d size (d.call s inp size) = true then
          drain d k size fuel (d.call s inp size).state (d.call s inp size).rest e'
        else some (some (d.call s inp size).ret, (d.call s inp size).state, e') := rfl

theorem inputLeftOrFull_iff {r : Call d.State α} :
    inputLeftOrFull d size r = true ↔ r.ret ≠ .bufError ∧ (r.rest ≠ [] ∨ r.out.length = size) := by
  simp [inputLeftOrFull]

theorem StuckAt.input_ne_nil (h : StuckAt d k size n s inp e) : inp ≠ [] := by
  rintro rfl
  have hnil : (d.call s [] size).rest = [] := List.suffix_nil.mp (d.rest_suffix s [] size)
  induction n generalizing s e with
  | zero => exact h.2.1 hnil
  | succ n ih =>
    obtain ⟨-, e', -, hrest⟩ := h
    rw [hnil] at hrest
    exact ih hrest (List.suffix_nil.mp (d.rest_suffix _ [] size))

/-- At the end of the stream with input left, no round changes anything. -/
theorem drain_ended (hs : d.Ended s) (hinp : inp ≠ []) (he : k.emit e [] = some e) :
    drain d k size fuel s inp e = none := by
  induction fuel generalizing s with
  | zero => rfl
  | succ fuel ih =>
    obtain ⟨hret, hrest, hout⟩ := d.call_ended s inp size hs
    have hstate := d.ended_of_end s inp size hret
    have hgo : inputLeftOrFull d size (d.call s inp size) = true :=
      inputLeftOrFull_iff.mpr ⟨by simp [hret], .inl (by rw [hrest]; exact hinp)⟩
    rw [drain_succ, if_neg (by simp [hret]), hout, he]
    dsimp only
    rw [if_pos hgo, hrest]
    exact ih hstate

theorem StuckAt.diverges (h : StuckAt d k size n s inp e) : drain d k size fuel s inp e = none := by
  induction n generalizing fuel s inp e with
  | zero =>
    obtain ⟨hret, hrest, hemit⟩ := h
    obtain ⟨e', he⟩ := Option.isSome_iff_exists.mp hemit
    cases fuel with
    | zero => rfl
    | succ fuel =>
      rw [drain_succ, if_neg (by simp [hret]), he]
      dsimp only
      rw [if_pos (inputLeftOrFull_iff.mpr ⟨by simp [hret], .inl hrest⟩)]
      exact drain_ended (d.ended_of_end s inp size hret) hrest (k.emit_nil he)
  | succ n ih =>
    obtain ⟨hret, e', he, hnext⟩ := h
    cases fuel with
    | zero => rfl
    | succ fuel =>
      rw [drain_succ, if_neg (by simp [hret]), he]
      dsimp only
      rw [if_pos (inputLeftOrFull_iff.mpr ⟨by simp [hret], .inl hnext.input_ne_nil⟩)]
      exact ih hnext

/-- A round that ends the loop whatever the fuel. -/
theorem Terminates.of_step {r : Option Ret × d.State × ε} (h : drain d k size 1 s inp e = some r) :
    Terminates d k size s inp e := ⟨1, r, h⟩

/-- A round after which the loop goes on, and ends. -/
theorem Terminates.of_rest {e' : ε} (herr : (d.call s inp size).ret ≠ .error)
    (he : k.emit e (d.call s inp size).out = some e')
    (hrest : Terminates d k size (d.call s inp size).state (d.call s inp size).rest e') :
    Terminates d k size s inp e := by
  obtain ⟨fuel, res, hres⟩ := hrest
  by_cases hgo : inputLeftOrFull d size (d.call s inp size) = true
  · refine ⟨fuel + 1, res, ?_⟩
    rw [drain_succ, if_neg herr, he]
    dsimp only
    rw [if_pos hgo]
    exact hres
  · refine Terminates.of_step (r := (some (d.call s inp size).ret, (d.call s inp size).state, e')) ?_
    rw [drain_succ, if_neg herr, he]
    dsimp only
    rw [if_neg hgo]

/-- The end of the stream without input left: one more call at most, which gives nothing. -/
theorem terminates_ended (hsize : 0 < size) (hs : d.Ended s) (he : k.emit e [] = some e) :
    Terminates d k size s [] e := by
  obtain ⟨hret, hrest, hout⟩ := d.call_ended s [] size hs
  have hstop : ¬ inputLeftOrFull d size (d.call s [] size) = true := by
    rw [inputLeftOrFull_iff, hrest, hout]
    simp
    omega
  refine Terminates.of_step (r := (some (d.call s [] size).ret, (d.call s [] size).state, e)) ?_
  rw [drain_succ, if_neg (by simp [hret]), hout, he]
  dsimp only
  rw [if_neg hstop]

theorem terminates_of_not_stuck (hsize : 0 < size) (h : ¬ Stuck d k size s inp e) : Terminates d k size s inp e := by
  -- each round that goes on shortens the input or takes room in the sink
  induction hm : inp.length + k.room e using Nat.strong_induction_on generalizing s inp e with
  | _ m ih =>
    subst hm
    cases he : k.emit e (d.call s inp size).out with
    | none =>
      by_cases herr : (d.call s inp size).ret = .error
      · exact Terminates.of_step (r := (none, (d.call s inp size).state, e)) (by rw [drain_succ, if_pos herr])
      · exact Terminates.of_step (r := (none, (d.call s inp size).state, e)) (by rw [drain_succ, if_neg herr, he])
    | some e' =>
      cases hret : (d.call s inp size).ret with
      | error => exact Terminates.of_step (r := (none, (d.call s inp size).state, e)) (by rw [drain_succ, if_pos hret])
      | bufError =>
        have hstop : ¬ inputLeftOrFull d size (d.call s inp size) = true :=
          fun hgo => (inputLeftOrFull_iff.mp hgo).1 hret
        refine Terminates.of_step (r := (some (d.call s inp size).ret, (d.call s inp size).state, e')) ?_
        rw [drain_succ, if_neg (by simp [hret]), he]
        dsimp only
        rw [if_neg hstop]
      | streamEnd =>
        have hnil : (d.call s inp size).rest = [] := by
          by_contra hne
          exact h ⟨0, hret, hne, by rw [he]; rfl⟩
        apply Terminates.of_rest (by simp [hret]) he
        rw [hnil]
        exact terminates_ended hsize (d.ended_of_end s inp size hret) (k.emit_nil he)
      | ok =>
        apply Terminates.of_rest (by simp [hret]) he
        refine ih _ ?_ (fun hstuck => ?_) rfl
        · have hlen := (d.rest_suffix s inp size).length_le
          have hroom := k.room_le he
          rcases d.progress s inp size hret with hp | hp
          · omega
          · have hlt := k.room_lt he hp
            omega
        · obtain ⟨n, hn⟩ := hstuck
          exact h ⟨n + 1, hret, e', he, hn⟩

/-- **The loop ends unless the stream ends before its input.** -/
theorem drain_terminates_iff (hsize : 0 < size) : Terminates d k size s inp e ↔ ¬ Stuck d k size s inp e := by
  constructor
  · rintro ⟨fuel, res, hres⟩ ⟨n, hn⟩
    rw [hn.diverges] at hres
    cases hres
  · exact terminates_of_not_stuck hsize

/-! ## Several chunks -/

variable (d k size)

/-- Feed one chunk after another, and stop at the first that does not go well; the result says whether all
    did. -/
def drainAll (fuel : Nat) : d.State → List (List α) → ε → Option (Bool × d.State × ε)
  | s, [], e => some (true, s, e)
  | s, c :: cs, e =>
    match drain d k size fuel s c e with
    | none => none
    | some (none, s', e') => some (false, s', e')
    | some (some _, s', e') => drainAll fuel s' cs e'

/-- The stream ends before some chunk does. -/
def StuckIn : d.State → List (List α) → ε → Prop
  | _, [], _ => False
  | s, c :: cs, e =>
    Stuck d k size s c e ∨ ∃ fuel ret s' e', drain d k size fuel s c e = some (some ret, s', e') ∧ StuckIn s' cs e'

variable {d k size} {cs : List (List α)}

theorem drainAll_mono {fuel' : Nat} (hle : fuel ≤ fuel') {res : Bool × d.State × ε}
    (h : drainAll d k size fuel s cs e = some res) : drainAll d k size fuel' s cs e = some res := by
  induction cs generalizing s e with
  | nil => exact h
  | cons c cs ih =>
    unfold drainAll at h ⊢
    cases hc : drain d k size fuel s c e with
    | none => rw [hc] at h; cases h
    | some r =>
      rw [hc] at h
      rw [show drain d k size fuel' s c e = some r from pump_mono hle hc]
      obtain ⟨_ | ret, s', e'⟩ := r
      · exact h
      · exact ih h

theorem drainAll_unique {fuel' : Nat} {res res' : Bool × d.State × ε} (h : drainAll d k size fuel s cs e = some res)
    (h' : drainAll d k size fuel' s cs e = some res') : res = res' := by
  have h1 := drainAll_mono (Nat.le_max_left fuel fuel') h
  have h2 := drainAll_mono (Nat.le_max_right fuel fuel') h'
  rw [h1] at h2
  exact Option.some_inj.mp h2

/-- **Feeding several chunks ends unless the stream ends before one of them.** -/
theorem drainAll_terminates_iff (hsize : 0 < size) :
    (∃ fuel res, drainAll d k size fuel s cs e = some res) ↔ ¬ StuckIn d k size s cs e := by
  induction cs generalizing s e with
  | nil => exact iff_of_true ⟨0, _, rfl⟩ (fun h => h)
  | cons c cs ih =>
    constructor
    · rintro ⟨fuel, res, hres⟩ hstuck
      unfold drainAll at hres
      cases hc : drain d k size fuel s c e with
      | none => rw [hc] at hres; cases hres
      | some r =>
        rw [hc] at hres
        rcases hstuck with hstuck | ⟨fuel', ret', s', e', hc', hrest⟩
        · exact (drain_terminates_iff hsize).mp ⟨fuel, r, hc⟩ hstuck
        · cases pump_unique hc hc'
          exact ih.mp ⟨fuel, res, hres⟩ hrest
    · intro hno
      obtain ⟨fuel, ⟨_ | ret, s', e'⟩, hc⟩ :=
        (drain_terminates_iff hsize).mpr (fun hstuck => hno (.inl hstuck))
      · exact ⟨fuel, (false, s', e'), by rw [drainAll, hc]⟩
      · obtain ⟨fuel', res, hres⟩ := ih.mpr (fun hrest => hno (.inr ⟨fuel, ret, s', e', hc, hrest⟩))
        refine ⟨max fuel fuel', res, ?_⟩
        rw [drainAll, show drain d k size (max fuel fuel') s c e = _ from pump_mono (Nat.le_max_left _ _) hc]
        exact drainAll_mono (Nat.le_max_right _ _) hres

end Drain

import HolyTls.Lib.Drain

/-!
# `Lib.StoredBlocks` — an inflater for stored blocks

Deflate has a kind of block that is not compressed: a header byte with the final bit, a length and its
complement, and the bytes themselves. A decoder for streams of such blocks is a byte automaton that gives at
most one byte for each it reads; every automaton of that kind is an `Inflater` (`Automaton.inflater`). It
serves to run loops around an inflater on real input.
-/

namespace Drain

/-! ## Byte automata -/

/-- A machine that reads a stream symbol by symbol, and gives at most one symbol for each. -/
structure Automaton (α : Type) where
  State : Type
  start : State
  step : State → α → State × Option α
  ended : State → Bool
  failed : State → Bool

namespace Automaton

variable {α : Type} (a : Automaton α)

/-- Read until the input or the room for output is used up, or the stream is over. -/
def feed : a.State → List α → Nat → a.State × List α × List α
  | s, [], _ => (s, [], [])
  | s, b :: inp, room =>
    if a.ended s || a.failed s then (s, b :: inp, [])
    else
      match a.step s b with
      | (s', none) => feed s' inp room
      | (s', some o) =>
        match room with
        | 0 => (s, b :: inp, [])
        | room + 1 =>
          let r := feed s' inp room
          (r.1, r.2.1, o :: r.2.2)

def call (s : a.State) (inp : List α) (size : Nat) : Call a.State α :=
  let r := a.feed s inp size
  { ret   := if a.failed r.1 then .error
             else if a.ended r.1 then .streamEnd
             else if r.2.1.length = inp.length then .bufError
             else .ok
    state := r.1
    rest := r.2.1
    out := r.2.2 }

variable {a} {s : a.State} {inp : List α} {size : Nat}

theorem feed_suffix : (a.feed s inp size).2.1 <:+ inp := by
  fun_induction feed a s inp size with
  | case1 => exact List.suffix_refl []
  | case2 => exact List.suffix_refl _
  | case3 s b inp room _ s' _ ih => exact ih.trans (List.suffix_cons b inp)
  | case4 => exact List.suffix_refl _
  | case5 s b inp _ s' o _ room r ih => exact ih.trans (List.suffix_cons b inp)

theorem feed_out_le : (a.feed s inp size).2.2.length ≤ size := by
  fun_induction feed a s inp size with
  | case1 => exact Nat.zero_le _
  | case2 => exact Nat.zero_le _
  | case3 s b inp room _ s' _ ih => exact ih
  | case4 => exact Nat.zero_le _
  | case5 s b inp _ s' o _ room r ih => exact Nat.succ_le_succ ih

theorem feed_ended (h : a.ended s = true) : a.feed s inp size = (s, inp, []) := by
  cases inp with
  | nil => rfl
  | cons b inp => rw [feed, h, Bool.true_or, if_pos rfl]

variable (a)

/-- An automaton as an inflater. -/
def inflater : Inflater α where
  State := a.State
  init := a.start
  call := a.call
  Ended s := a.ended s = true ∧ a.failed s = false
  rest_suffix _ _ _ := feed_suffix
  out_le _ _ _ := feed_out_le
  progress s inp size h := by
    left
    have hle : (a.feed s inp size).2.1.length ≤ inp.length := feed_suffix.length_le
    have hne : (a.feed s inp size).2.1.length ≠ inp.length := by
      intro heq
      unfold call at h
      dsimp only at h
      rw [if_pos heq] at h
      split at h
      · cases h
      · split at h <;> cases h
    exact Nat.lt_of_le_of_ne hle hne
  ended_of_end s inp size h := by
    unfold call at h ⊢
    dsimp only at h ⊢
    split at h
    · cases h
    · next hfail =>
        split at h
        · next hend => exact ⟨hend, by simpa using hfail⟩
        · split at h <;> cases h
  call_ended s inp size h := by
    obtain ⟨hend, hfail⟩ := h
    unfold call
    rw [feed_ended hend]
    simp [hend, hfail]

end Automaton

/-! ## Stored blocks -/

/-- Where a decoder of stored blocks is. `final` is the final bit of the block. -/
inductive Stored
  | header (expected : List UInt8)
  | block
  | len (final : Bool)
  | len2 (final : Bool) (low : UInt8)
  | nlen (final : Bool) (n : Nat)
  | nlen2 (final : Bool) (n : Nat)
  | copy (final : Bool) (n : Nat)
  | trailer (n : Nat)
  | done
  | bad

namespace Stored

/-- What follows a block: another one, or after the last the trailer of `wrap` bytes. -/
def next (wrap : Nat) (final : Bool) : Stored :=
  if final then (if wrap = 0 then done else trailer wrap) else block

def step (wrap : Nat) : Stored → UInt8 → Stored × Option UInt8
  | header [], _ => (bad, none)
  | header (x :: xs), b => (if b = x then (if xs = [] then block else header xs) else bad, none)
  | block, b => (if b = 0 then len false else if b = 1 then len true else bad, none)
  | len f, b => (len2 f b, none)
  | len2 f low, b => (nlen f (low.toNat + 256 * b.toNat), none)
  | nlen f n, b => (if b.toNat = 255 - n % 256 then nlen2 f n else bad, none)
  | nlen2 f n, b => (if b.toNat = 255 - n / 256 then (if n = 0 then next wrap f else copy f n) else bad, none)
  | copy f n, b => (if n ≤ 1 then next wrap f else copy f (n - 1), some b)
  | trailer n, _ => (if n ≤ 1 then done else trailer (n - 1), none)
  | done, _ => (done, none)
  | bad, _ => (bad, none)

/-- Raw deflate, of stored blocks only. -/
def raw : Automaton UInt8 where
  State := Stored
  start := block
  step := step 0
  ended | done => true | _ => false
  failed | bad => true | _ => false

/-- The same in a zlib wrapper: two bytes of header, and four of a checksum that is not looked at. -/
def zlib : Automaton UInt8 where
  State := Stored
  start := header [0x78, 0x01]
  step := step 4
  ended | done => true | _ => false
  failed | bad => true | _ => false

end Stored

end Drain

import HolyTls.Core.Decompress

/-!
# `Ws.Inflate` — compressed messages (`src/ws/ws.c`)

With permessage-deflate the payload of a message is a piece of one raw deflate stream that lasts as long as
the connection. `ws_inflate_message` feeds the payload and then the four bytes that RFC 7692 has the sender
leave out, each in the loop of `Lib.Drain`. A deflate block with the final bit ends the stream, and from then
on the four bytes are never consumed: the call for that message does not end, or if the stream ended with the
last of the four bytes, the call for the next one (`messages_inflate_iff`).
-/

namespace HolyTls

open Drain

/-- The bytes that a sender leaves out at the end of a message. -/
def wsDeflateTail : Str8 := [0x00, 0x00, 0xff, 0xff]

/-- The cap on an inflated message. -/
def wsInflateMax : Nat := 64 * 2 ^ 20

variable (Z : Inflater UInt8)

/-- `ws_inflate_message`, with the stream of the connection (`none` before the first message): whether it
    succeeds, the stream after it and what is inflated. -/
def wsInflateMessage (fuel : Nat) (zs : Option Z.State) (data : Str8) : Option (Bool × Z.State × Str8) :=
  drainAll Z (appendSink wsInflateMax) decodeBuf fuel (zs.getD Z.init) [uIntBytes data, wsDeflateTail] []

/-- What `ws_on_event` does with the compressed messages that arrive one after another: the stream is kept,
    also when one fails. Each of the calls ends. -/
def EachInflates : Option Z.State → List Str8 → Prop
  | _, [] => True
  | zs, data :: messages =>
    ∃ fuel ok zs' out, wsInflateMessage Z fuel zs data = some (ok, zs', out) ∧ EachInflates (some zs') messages

/-- The deflate stream has ended or ends in this message, and bytes of the payload or of the tail are left
    then; no error and no breach of the cap comes before. -/
def EndsInMessage (zs : Option Z.State) (data : Str8) : Prop :=
  StuckIn Z (appendSink wsInflateMax) decodeBuf (zs.getD Z.init) [uIntBytes data, wsDeflateTail] []

/-- It does not in any of the messages. -/
def NeverEnds : Option Z.State → List Str8 → Prop
  | _, [] => True
  | zs, data :: messages =>
    ¬ EndsInMessage Z zs data ∧
      ∀ fuel ok zs' out, wsInflateMessage Z fuel zs data = some (ok, zs', out) → NeverEnds (some zs') messages

/-- One message is inflated in finitely many steps unless the stream ends in it. -/
theorem wsInflateMessage_terminates_iff {zs : Option Z.State} {data : Str8} :
    (∃ fuel res, wsInflateMessage Z fuel zs data = some res) ↔ ¬ EndsInMessage Z zs data :=
  drainAll_terminates_iff (by decide)

/-- **Inflating messages terminates** exactly when the deflate stream does not end in one of them: for every
    state of the stream and every sequence of messages. -/
theorem messages_inflate_iff (Z : Inflater UInt8) (zs : Option Z.State) (messages : List Str8) :
    EachInflates Z zs messages ↔ NeverEnds Z zs messages := by
  induction messages generalizing zs with
  | nil => exact Iff.rfl
  | cons data messages ih =>
    constructor
    · rintro ⟨fuel, ok, zs', out, hres, hrest⟩
      refine ⟨(wsInflateMessage_terminates_iff Z).mp ⟨fuel, _, hres⟩, ?_⟩
      intro fuel2 ok2 zs2 out2 hres2
      cases drainAll_unique hres hres2
      exact (ih (some zs')).mp hrest
    · rintro ⟨hno, hrest⟩
      obtain ⟨fuel, ⟨ok, zs', out⟩, hres⟩ := (wsInflateMessage_terminates_iff Z).mpr hno
      exact ⟨fuel, ok, zs', out, hres, (ih (some zs')).mpr (hrest fuel ok zs' out hres)⟩

/-- A message of one stored block with the final bit. -/
def finalBlock : Str8 := [0x01, 0x02, 0x00, 0xfd, 0xff, 0x68, 0x69]

/-- The first byte of an empty stored block with the final bit: the tail completes it. -/
def finalHeader : Str8 := [0x01]

theorem message_hangs_after_final_block :
    -- in the message that ends the stream, and in the one after it
    ¬ EachInflates Stored.raw.inflater none [finalBlock] ∧
      ¬ EachInflates Stored.raw.inflater none [finalHeader, [0x00]] := by
  constructor
  · rintro ⟨fuel, ok, zs', out, hres, -⟩
    refine (wsInflateMessage_terminates_iff _).mp ⟨fuel, _, hres⟩ ?_
    -- the payload is taken whole, and then the tail is refused
    exact .inr ⟨1, .streamEnd, Stored.done, lit "hi", rfl, .inl ⟨0, rfl, by decide +kernel, by decide +kernel⟩⟩
  · rintro ⟨fuel, ok, zs', out, hres, fuel2, ok2, zs2, out2, hres2, -⟩
    have hfirst : wsInflateMessage Stored.raw.inflater 1 none finalHeader = some (true, Stored.done, []) := rfl
    cases drainAll_unique hfirst hres
    refine (wsInflateMessage_terminates_iff _).mp ⟨fuel2, _, hres2⟩ ?_
    exact .inl ⟨0, rfl, by decide +kernel, by decide +kernel⟩

end HolyTls

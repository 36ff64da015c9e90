import HolyTls.H3.Varint

/-!
# `H3.Finish` — an HTTP/3 response put together in place (`src/h3/h3_session.c`, `src/core/pool.c`)

When a request stream ends, `h3_finish_response` (and `pool_h3_finish` for a pooled connection) walks the
buffer of everything that was received, hands the payload of each HEADERS frame to the QPACK decoder and moves
the payload of each DATA frame to the front of the same buffer. nghttp3's decoder is a parameter.

What the walk should see is `h3Walk` of the buffer as it was at the start. A turn of the loop keeps the
compacted body behind the read position and everything from there on as it was (`Behind`, `h3Turn_behind`), so
the loop sees just that, and it ends (`h3FrameLoop_spec`).
-/

namespace HolyTls

open ByteMem (Mem read write)

/-! ## The header decoder -/

/-- What a call of `nghttp3_qpack_decoder_read_request` reports: the bytes it took (negative on an error), the
    field if the EMIT flag is set, and the FINAL flag. -/
structure QpackRead where
  n : Int
  emit : Option (Str8 × Str8)
  final : Bool

/-- nghttp3's QPACK decoder: `δ` is the state of the connection's decoder, `κ` a stream context. -/
structure QpackDecoder (δ κ : Type) where
  context : Int → κ
  read : δ → κ → Str8 → QpackRead × δ × κ
  /-- a call takes no more than it is given -/
  read_le : ∀ d k s, (read d k s).1.n ≤ s.length

/-- What the decoder has given so far, and its state. -/
structure H3Answer (δ : Type) where
  status : Int := 0
  headers : HeaderList := []
  decoder : δ

variable {δ κ : Type}

/-- A field that was emitted: the status or a header. -/
def H3Answer.field (a : H3Answer δ) (nv : Str8 × Str8) : H3Answer δ :=
  if str8Match nv.1 (lit ":status") then { a with status := Int.bmod (str8ToU64 nv.2) (2 ^ 32) }
  else { a with headers := headerListPush a.headers nv.1 nv.2 0 }

/-- The loop of `h3_decode_headers`, `none` when `fuel` turns were not enough. -/
def h3DecodeLoop (q : QpackDecoder δ κ) : Nat → H3Answer δ → κ → Str8 → Option (H3Answer δ)
  | 0, _, _, _ => none
  | fuel + 1, a, k, rest =>
    let r := q.read a.decoder k rest
    let a := { a with decoder := r.2.1 }
    if r.1.n < 0 then some a
    else
      let a := r.1.emit.elim a a.field
      if r.1.final then some a
      else if r.1.n = 0 then some a
      else h3DecodeLoop q fuel a r.2.2 (rest.drop r.1.n.toNat)

/-- `h3_decode_headers`. -/
def h3DecodeHeaders (q : QpackDecoder δ κ) (streamId : Int) (a : H3Answer δ) (block : Str8) : Option (H3Answer δ) :=
  h3DecodeLoop q (block.length + 1) a (q.context streamId) block

/-! ## The frame loop -/

/-- The variables of the frame loop; addresses count from the start of the buffer. -/
structure H3Parse (δ : Type) where
  mem : Mem
  bodyLen : Nat := 0
  p : Nat := 0
  rem : Nat
  answer : H3Answer δ

/-- One turn of the loop, and whether the loop goes on. -/
def h3Turn (q : QpackDecoder δ κ) (streamId : Int) (st : H3Parse δ) : Option (H3Parse δ × Bool) :=
  if st.rem = 0 then some (st, false)
  else
    let type := quicVarintGet (read st.mem st.p st.rem)
    if type.2 = 0 then some (st, false)
    else
      let p := st.p + type.2
      let rem := st.rem - type.2
      let flen := quicVarintGet (read st.mem p rem)
      if flen.2 = 0 then some ({ st with p := p, rem := rem }, false)
      else
        let payload := p + flen.2
        let rem := rem - flen.2
        let plen := if flen.1 ≤ rem then flen.1 else rem
        let st' := { st with p := payload + plen, rem := rem - plen }
        if type.1 = 0x01 then
          (h3DecodeHeaders q streamId st.answer (read st.mem payload plen)).map
            (fun a => ({ st' with answer := a }, true))
        else if type.1 = 0x00 then
          let mem := if st.bodyLen ≠ payload then write st.mem st.bodyLen (read st.mem payload plen) else st.mem
          some ({ st' with mem := mem, bodyLen := st.bodyLen + plen }, true)
        else some (st', true)

/-- The loop, `none` when `fuel` turns were not enough. -/
def h3FrameLoop (q : QpackDecoder δ κ) (streamId : Int) : Nat → H3Parse δ → Option (H3Parse δ)
  | 0, _ => none
  | fuel + 1, st =>
    (h3Turn q streamId st).bind (fun r => if r.2 then h3FrameLoop q streamId fuel r.1 else some r.1)

/-- The state the loop starts in. -/
def h3Start (mem : Mem) (len : Nat) (a : H3Answer δ) : H3Parse δ := { mem := mem, rem := len, answer := a }

/-- The loop over a whole buffer. -/
def h3ReadFrames (q : QpackDecoder δ κ) (streamId : Int) (mem : Mem) (len : Nat) (a : H3Answer δ) :
    Option (H3Parse δ) :=
  h3FrameLoop q streamId (len + 1) (h3Start mem len a)

/-! ## The two callers -/

/-- The fields of `H3Session` that `h3_finish_response` uses. -/
structure H3SessionIn (δ : Type) where
  delivered : Bool
  reqStreamId : Int
  reqIn : Mem
  reqLen : Nat
  answer : H3Answer δ

/-- The response that both callers build. -/
def h3Response (a : H3Answer δ) (body : Str8) : Response where
  ok := a.status ≠ 0
  status := a.status
  headers := a.headers
  body := body
  error   := if a.status ≠ 0 then [] else lit "no response headers"

/-- `h3_finish_response`: the response handed to the callback, if there is one. -/
def h3FinishResponse (q : QpackDecoder δ κ) (s : H3SessionIn δ) : Option (Option Response) :=
  if s.delivered then some none
  else
    (h3ReadFrames q s.reqStreamId s.reqIn s.reqLen s.answer).map (fun st =>
      some (h3Response st.answer (read st.mem 0 st.bodyLen)))

/-- The fields of a `PoolReq` and its connection that `pool_h3_finish` uses. -/
structure PoolH3In (δ : Type) where
  responded : Bool
  retriesLeft : Nat
  h3StreamId : Int
  h3In : Mem
  h3Len : Nat
  qdec : δ

/-- What `pool_h3_finish` does with a request. -/
inductive PoolH3Outcome
  | nothing
  | retry (reason : Str8)
  | deliver (r : Response)

/-- What becomes of the answer: without a status there may be another try. -/
def poolH3Outcome (retriesLeft : Nat) (a : H3Answer δ) (body : Str8) : PoolH3Outcome :=
  if a.status = 0 ∧ retriesLeft > 0 then .retry (lit "h3 stream reset") else .deliver (h3Response a body)

/-- `pool_h3_finish` from the frame loop on; its bookkeeping is in `Pool.Step`. -/
def poolH3FinishRead (q : QpackDecoder δ κ) (r : PoolH3In δ) : Option PoolH3Outcome :=
  if r.responded then some .nothing
  else
    (h3ReadFrames q r.h3StreamId r.h3In r.h3Len { decoder := r.qdec }).map (fun st =>
      poolH3Outcome r.retriesLeft st.answer (read st.mem 0 st.bodyLen))

/-! ## What the buffer says -/

/-- The buffer as a sequence of frames, each a type, a length and a payload; the last payload is cut at the end
    of the buffer. -/
def h3Walk (buf : Str8) : List (Nat × Str8) :=
  let type := quicVarintGet buf
  if type.2 = 0 then []
  else
    let flen := quicVarintGet (buf.drop type.2)
    if flen.2 = 0 then []
    else
      let payload := (buf.drop type.2).drop flen.2
      (type.1, payload.take flen.1) :: h3Walk (payload.drop flen.1)
termination_by buf.length
decreasing_by
  rename_i htype _
  have hle := quicVarintGet_consumed buf
  have hpos : (quicVarintGet buf).2 ≠ 0 := htype
  simp only [List.length_drop]
  omega

/-- The payloads of the frames of one type, in order. -/
def h3Payloads (type : Nat) (frames : List (Nat × Str8)) : List Str8 :=
  (frames.filter (fun f => f.1 = type)).map Prod.snd

/-- The payloads of the HEADERS frames. -/
def h3Blocks (buf : Str8) : List Str8 := h3Payloads 0x01 (h3Walk buf)

/-- The payloads of the DATA frames, put together. -/
def h3Body (buf : Str8) : Str8 := (h3Payloads 0x00 (h3Walk buf)).flatten

/-- The decoder on one block after another. -/
def h3DecodeAll (q : QpackDecoder δ κ) (streamId : Int) (a : H3Answer δ) (blocks : List Str8) : Option (H3Answer δ) :=
  blocks.foldlM (h3DecodeHeaders q streamId) a

section

variable {q : QpackDecoder δ κ} {streamId : Int} {st st' : H3Parse δ} {a : H3Answer δ} {k : κ} {fuel : Nat}

theorem h3DecodeLoop_ends {rest : Str8} (hfuel : rest.length < fuel) :
    ∃ a', h3DecodeLoop q fuel a k rest = some a' := by
  induction fuel generalizing a k rest with
  | zero => omega
  | succ fuel ih =>
    have hle := q.read_le a.decoder k rest
    unfold h3DecodeLoop
    dsimp only
    split
    · exact ⟨_, rfl⟩
    · split
      · exact ⟨_, rfl⟩
      · split
        · exact ⟨_, rfl⟩
        · refine ih ?_
          rw [List.length_drop]
          omega

theorem h3DecodeHeaders_ends (q : QpackDecoder δ κ) (streamId : Int) (a : H3Answer δ) (block : Str8) :
    ∃ a', h3DecodeHeaders q streamId a block = some a' :=
  h3DecodeLoop_ends (Nat.lt_succ_self _)

/-! ## A turn of the loop -/

/-- The bytes that are not parsed yet. -/
def H3Parse.rest (st : H3Parse δ) : Str8 := read st.mem st.p st.rem

/-- The body so far. -/
def H3Parse.body (st : H3Parse δ) : Str8 := read st.mem 0 st.bodyLen

/-- What a turn does, by the frame at the read position. -/
inductive Turned (q : QpackDecoder δ κ) (streamId : Int) (st : H3Parse δ) : H3Parse δ → Bool → Prop
  | stop {st' : H3Parse δ} (hwalk : h3Walk st.rest = []) (hanswer : st'.answer = st.answer)
      (hmem : st'.mem = st.mem) (hbody : st'.bodyLen = st.bodyLen) (hp : st.p ≤ st'.p) :
      Turned q streamId st st' false
  | headers {payload : Str8} {st' : H3Parse δ} (hwalk : h3Walk st.rest = (1, payload) :: h3Walk st'.rest)
      (hanswer : h3DecodeHeaders q streamId st.answer payload = some st'.answer) (hmem : st'.mem = st.mem)
      (hbody : st'.bodyLen = st.bodyLen) (hp : st.p ≤ st'.p) (hrem : st'.rem < st.rem) :
      Turned q streamId st st' true
  | data {payload : Str8} {st' : H3Parse δ} (hwalk : h3Walk st.rest = (0, payload) :: h3Walk st'.rest)
      (hanswer : st'.answer = st.answer) (hmem : st'.mem = write st.mem st.bodyLen payload)
      (hbody : st'.bodyLen = st.bodyLen + payload.length) (hp : st.p + payload.length ≤ st'.p)
      (hrem : st'.rem < st.rem) : Turned q streamId st st' true
  | other {type : Nat} {payload : Str8} {st' : H3Parse δ}
      (hwalk : h3Walk st.rest = (type, payload) :: h3Walk st'.rest) (htype : type ≠ 0 ∧ type ≠ 1)
      (hanswer : st'.answer = st.answer) (hmem : st'.mem = st.mem) (hbody : st'.bodyLen = st.bodyLen)
      (hp : st.p ≤ st'.p) (hrem : st'.rem < st.rem) : Turned q streamId st st' true

theorem h3Walk_nil : h3Walk [] = [] := by
  rw [h3Walk]
  rfl

theorem h3Walk_stop {buf : Str8} (h : (quicVarintGet buf).2 = 0) : h3Walk buf = [] := by
  rw [h3Walk, if_pos h]

theorem h3Walk_stop_length {buf : Str8} (h : (quicVarintGet (buf.drop (quicVarintGet buf).2)).2 = 0) :
    h3Walk buf = [] := by
  rw [h3Walk]
  split
  · rfl
  · rw [if_pos h]

theorem h3Walk_frame {buf : Str8} (htype : (quicVarintGet buf).2 ≠ 0)
    (hlen : (quicVarintGet (buf.drop (quicVarintGet buf).2)).2 ≠ 0) :
    h3Walk buf = ((quicVarintGet buf).1,
        ((buf.drop (quicVarintGet buf).2).drop (quicVarintGet (buf.drop (quicVarintGet buf).2)).2).take
          (quicVarintGet (buf.drop (quicVarintGet buf).2)).1) ::
      h3Walk (((buf.drop (quicVarintGet buf).2).drop (quicVarintGet (buf.drop (quicVarintGet buf).2)).2).drop
          (quicVarintGet (buf.drop (quicVarintGet buf).2)).1) := by
  rw [h3Walk, if_neg htype, if_neg hlen]

/-- Moving a payload to the end of the body leaves what follows the payload alone, as long as the body ends
    before the payload starts. -/
theorem read_after_move {m : Mem} {dst payload plen rem : Nat} (h : dst ≤ payload) :
    read (write m dst (read m payload plen)) (payload + plen) rem = read m (payload + plen) rem := by
  apply ByteMem.read_write_of_disjoint
  rw [ByteMem.read_length]
  omega

/-- A payload that ends beyond the buffer leaves nothing. -/
theorem read_past (m : Mem) (i len n : Nat) :
    read m (i + n) (len - n) = read m (i + min n len) (len - min n len) := by
  rcases Nat.le_total n len with h | h
  · rw [Nat.min_eq_left h]
  · rw [Nat.min_eq_right h, Nat.sub_eq_zero_of_le h, Nat.sub_self, ByteMem.read_zero, ByteMem.read_zero]

/-- **The step lemma**: with the body behind the read position, a turn deals with one frame of the walk, or
    ends where the walk ends. -/
theorem h3Turn_turned (q : QpackDecoder δ κ) (streamId : Int) (hb : st.bodyLen ≤ st.p) :
    ∃ st' go, h3Turn q streamId st = some (st', go) ∧ Turned q streamId st st' go := by
  unfold h3Turn
  by_cases hrem : st.rem = 0
  · refine ⟨st, false, if_pos hrem, .stop ?_ rfl rfl rfl (Nat.le_refl _)⟩
    rw [H3Parse.rest, hrem, ByteMem.read_zero, h3Walk_nil]
  rw [if_neg hrem]
  have htypeLe := quicVarintGet_consumed (read st.mem st.p st.rem)
  rw [ByteMem.read_length] at htypeLe
  have hdrop := ByteMem.read_drop st.mem st.p st.rem (quicVarintGet (read st.mem st.p st.rem)).2
  have hstopLen := @h3Walk_stop_length (read st.mem st.p st.rem)
  have hframe := @h3Walk_frame (read st.mem st.p st.rem)
  rw [hdrop] at hstopLen hframe
  dsimp only
  by_cases htype : (quicVarintGet (read st.mem st.p st.rem)).2 = 0
  · rw [if_pos htype]
    exact ⟨st, false, rfl, .stop (h3Walk_stop htype) rfl rfl rfl (Nat.le_refl _)⟩
  rw [if_neg htype]
  generalize quicVarintGet (read st.mem st.p st.rem) = type at *
  have hlenLe := quicVarintGet_consumed (read st.mem (st.p + type.2) (st.rem - type.2))
  rw [ByteMem.read_length] at hlenLe
  by_cases hlen : (quicVarintGet (read st.mem (st.p + type.2) (st.rem - type.2))).2 = 0
  · rw [if_pos hlen]
    exact ⟨_, false, rfl, .stop (hstopLen hlen) rfl rfl rfl (Nat.le_add_right _ _)⟩
  rw [if_neg hlen]
  have hwalk := hframe htype hlen
  generalize quicVarintGet (read st.mem (st.p + type.2) (st.rem - type.2)) = flen at *
  rw [ByteMem.read_drop, ByteMem.read_take, ByteMem.read_drop, read_past] at hwalk
  have hpayload : st.p ≤ st.p + type.2 + flen.2 := by omega
  have hshort : st.rem - type.2 - flen.2 < st.rem := by omega
  generalize st.p + type.2 + flen.2 = payload at *
  generalize st.rem - type.2 - flen.2 = rem at *
  rw [← Nat.min_def]
  generalize min flen.1 rem = plen at *
  have hlength : (read st.mem payload plen).length = plen := ByteMem.read_length _ _ _
  by_cases hheaders : type.1 = 1
  · obtain ⟨a', ha'⟩ := h3DecodeHeaders_ends q streamId st.answer (read st.mem payload plen)
    rw [if_pos hheaders, ha']
    rw [hheaders] at hwalk
    exact ⟨_, true, rfl, .headers hwalk ha' rfl rfl (by dsimp only; omega) (by dsimp only; omega)⟩
  rw [if_neg hheaders]
  by_cases hdata : type.1 = 0
  · have hmove : (if st.bodyLen ≠ payload then write st.mem st.bodyLen (read st.mem payload plen) else st.mem)
        = write st.mem st.bodyLen (read st.mem payload plen) := by
      split
      · rfl
      · next heq =>
          rw [not_not.mp heq]
          exact (ByteMem.write_read_self _ _ _).symm
    rw [if_pos hdata, hmove]
    rw [hdata, ← read_after_move (Nat.le_trans hb hpayload)] at hwalk
    exact ⟨_, true, rfl, .data hwalk rfl rfl (by rw [hlength]) (by dsimp only; omega) (by dsimp only; omega)⟩
  · rw [if_neg hdata]
    exact ⟨_, true, rfl, .other hwalk ⟨hdata, hheaders⟩ rfl rfl rfl (by dsimp only; omega) (by dsimp only; omega)⟩

/-- The body stays behind the read position, and nothing from there on was written since the state `st`. -/
structure Behind (m : Mem) (st : H3Parse δ) : Prop where
  body : st.bodyLen ≤ st.p
  intact : ∀ i, st.p ≤ i → st.mem i = m i

theorem Turned.behind {m : Mem} {go : Bool} (hb : Behind m st) (h : Turned q streamId st st' go) : Behind m st' := by
  cases h with
  | stop _ _ hmem hbody hp | headers _ _ hmem hbody hp _ | other _ _ _ hmem hbody hp _ =>
    exact ⟨by rw [hbody]; exact Nat.le_trans hb.body hp,
      fun i hi => by rw [hmem]; exact hb.intact i (Nat.le_trans hp hi)⟩
  | data _ _ hmem hbody hp _ =>
    have hbehind := hb.body
    refine ⟨by rw [hbody]; omega, fun i hi => ?_⟩
    rw [hmem, ByteMem.write_of_not_mem (by omega)]
    exact hb.intact i (by omega)

theorem Turned.body_data {payload : Str8} (hmem : st'.mem = write st.mem st.bodyLen payload)
    (hbody : st'.bodyLen = st.bodyLen + payload.length) : st'.body = st.body ++ payload := by
  rw [H3Parse.body, hbody, ByteMem.read_add, hmem, Nat.zero_add, ByteMem.read_write_self,
    ByteMem.read_write_of_disjoint (by omega), H3Parse.body]

/-! ## The whole loop -/

theorem h3Payloads_cons (t : Nat) (f : Nat × Str8) (frames : List (Nat × Str8)) :
    h3Payloads t (f :: frames) = if f.1 = t then f.2 :: h3Payloads t frames else h3Payloads t frames := by
  unfold h3Payloads
  rw [List.filter_cons]
  by_cases h : f.1 = t <;> simp [h]

/-- **The loop sees what the buffer says**: it ends, the decoder was given the HEADERS payloads in order, and
    the body grew by the DATA payloads. -/
theorem h3FrameLoop_spec (hb : st.bodyLen ≤ st.p) (hfuel : st.rem < fuel) :
    ∃ st', h3FrameLoop q streamId fuel st = some st' ∧
      h3DecodeAll q streamId st.answer (h3Blocks st.rest) = some st'.answer ∧
      st'.body = st.body ++ h3Body st.rest := by
  induction fuel generalizing st with
  | zero => omega
  | succ fuel ih =>
    obtain ⟨st₁, go, hturn, hturned⟩ := h3Turn_turned q streamId hb
    have hb₁ := (hturned.behind ⟨hb, fun _ _ => rfl⟩).body
    rw [h3FrameLoop, hturn, Option.bind_some]
    unfold h3Blocks h3Body
    cases hturned with
    | stop hwalk hanswer hmem hbody hp =>
      refine ⟨st₁, rfl, ?_, ?_⟩
      · rw [hwalk, hanswer]
        rfl
      · rw [hwalk, H3Parse.body, hmem, hbody]
        exact (List.append_nil _).symm
    | headers hwalk hanswer hmem hbody hp hrem =>
      obtain ⟨st', hloop, hdecode, hfinal⟩ := ih hb₁ (by omega)
      refine ⟨st', hloop, ?_, ?_⟩
      · rw [hwalk, h3Payloads_cons, if_pos rfl, h3DecodeAll, List.foldlM_cons, hanswer]
        exact hdecode
      · rw [hwalk, h3Payloads_cons, if_neg Nat.one_ne_zero, hfinal, H3Parse.body, hmem, hbody]
        rfl
    | data hwalk hanswer hmem hbody hp hrem =>
      obtain ⟨st', hloop, hdecode, hfinal⟩ := ih hb₁ (by omega)
      refine ⟨st', hloop, ?_, ?_⟩
      · rw [hwalk, h3Payloads_cons, if_neg Nat.zero_ne_one, ← hanswer]
        exact hdecode
      · rw [hwalk, h3Payloads_cons, if_pos rfl, hfinal, Turned.body_data hmem hbody, List.flatten_cons,
          List.append_assoc]
        rfl
    | other hwalk htype hanswer hmem hbody hp hrem =>
      obtain ⟨st', hloop, hdecode, hfinal⟩ := ih hb₁ (by omega)
      refine ⟨st', hloop, ?_, ?_⟩
      · rw [hwalk, h3Payloads_cons, if_neg htype.2, ← hanswer]
        exact hdecode
      · rw [hwalk, h3Payloads_cons, if_neg htype.1, hfinal, H3Parse.body, hmem, hbody]
        rfl

/-- The states that the loop passes through. -/
inductive Passes (q : QpackDecoder δ κ) (streamId : Int) (st : H3Parse δ) : H3Parse δ → Prop
  | start : Passes q streamId st st
  | turn {st₁ st₂ : H3Parse δ} {go : Bool} (h : Passes q streamId st st₁)
      (hturn : h3Turn q streamId st₁ = some (st₂, go)) : Passes q streamId st st₂

/-- Nothing that is not parsed yet was overwritten, at any time. -/
theorem Passes.behind {m : Mem} (hb : Behind m st) (h : Passes q streamId st st') : Behind m st' := by
  induction h with
  | start => exact hb
  | turn _ hturn ih =>
    obtain ⟨st₂, go, hturn', hturned⟩ := h3Turn_turned q streamId ih.body
    rw [hturn] at hturn'
    cases hturn'
    exact hturned.behind ih

theorem h3ReadFrames_spec (q : QpackDecoder δ κ) (streamId : Int) (m : Mem) (len : Nat) (a : H3Answer δ) :
    ∃ st', h3ReadFrames q streamId m len a = some st' ∧
      h3DecodeAll q streamId a (h3Blocks (read m 0 len)) = some st'.answer ∧
      read st'.mem 0 st'.bodyLen = h3Body (read m 0 len) := by
  have hb : (h3Start m len a).bodyLen ≤ (h3Start m len a).p := Nat.le_refl 0
  have hfuel : (h3Start m len a).rem < len + 1 := Nat.lt_succ_self len
  exact h3FrameLoop_spec hb hfuel

end

/-- **The response is put together exactly.** On every buffer both functions end, with the answer that the
    decoder gives for the payloads of the HEADERS frames in order and with the payloads of the DATA frames as
    the body, both as the original buffer has them; at no time is a byte overwritten that was not parsed yet. -/
theorem h3_reassembly_exact (q : QpackDecoder δ κ) :
    (∀ s : H3SessionIn δ, ∃ a,
      h3DecodeAll q s.reqStreamId s.answer (h3Blocks (read s.reqIn 0 s.reqLen)) = some a ∧
      h3FinishResponse q s =
        some (if s.delivered then none else some (h3Response a (h3Body (read s.reqIn 0 s.reqLen))))) ∧
    (∀ r : PoolH3In δ, ∃ a,
      h3DecodeAll q r.h3StreamId { decoder := r.qdec } (h3Blocks (read r.h3In 0 r.h3Len)) = some a ∧
      poolH3FinishRead q r =
        some (if r.responded then .nothing else poolH3Outcome r.retriesLeft a (h3Body (read r.h3In 0 r.h3Len)))) ∧
    ∀ (streamId : Int) (m : Mem) (len : Nat) (a : H3Answer δ) (st : H3Parse δ),
      Passes q streamId (h3Start m len a) st → Behind m st := by
  refine ⟨fun s => ?_, fun r => ?_, fun streamId m len a st h => h.behind ⟨Nat.le_refl 0, fun _ _ => rfl⟩⟩
  · obtain ⟨st, hloop, hdecode, hbody⟩ := h3ReadFrames_spec q s.reqStreamId s.reqIn s.reqLen s.answer
    refine ⟨st.answer, hdecode, ?_⟩
    rw [h3FinishResponse, hloop, Option.map_some, hbody]
    split <;> rfl
  · obtain ⟨st, hloop, hdecode, hbody⟩ := h3ReadFrames_spec q r.h3StreamId r.h3In r.h3Len { decoder := r.qdec }
    refine ⟨st.answer, hdecode, ?_⟩
    rw [poolH3FinishRead, hloop, Option.map_some, hbody]
    split <;> rfl

/-- A decoder that takes a whole block for the status. -/
def statusDecoder : QpackDecoder Unit Unit where
  context _    := ()
  read _ _ s   := (⟨s.length, some (lit ":status", s), true⟩, (), ())
  read_le _ _ _ := Int.le_refl _

/-- A buffer with an empty DATA frame, a HEADERS frame and another DATA frame, the last one cut short. -/
def cutBuffer : Mem := fun i => ([0, 0, 1, 3, 50, 48, 48, 0, 64, 9, 104, 105] : Str8).getD i 0

theorem h3_reassembly_exact_cut :
    h3FinishResponse statusDecoder
        { delivered := false, reqStreamId := 0, reqIn := cutBuffer, reqLen := 12, answer := { decoder := () } } =
      some (some { ok := true, status := 200, body := lit "hi" }) ∧
    ∃ st go, h3Turn statusDecoder 0 (h3Start cutBuffer 12 { decoder := () }) = some (st, go) ∧ Behind cutBuffer st := by
  refine ⟨by decide +kernel, ?_⟩
  have hb : (h3Start cutBuffer 12 ({ decoder := () } : H3Answer Unit)).bodyLen ≤ 0 := Nat.le_refl 0
  obtain ⟨st, go, hturn, -⟩ := h3Turn_turned statusDecoder 0 hb
  exact ⟨st, go, hturn, (h3_reassembly_exact statusDecoder).2.2 0 cutBuffer 12 _ st (.turn .start hturn)⟩

end HolyTls

import HolyTls.Ws.Build
import HolyTls.Ws.Frame

/-!
# `Ws.FrameStream` — the WebSocket parser decodes the stream

The parser is compared with `wsDecode`, a decoder that sees the whole stream at once and goes through it
frame by frame. It takes the fields of a frame from RFC 6455 and nothing from the parser; that the two read
the same fields is proved (`wsHead_cons`, `rfcControl_eq`). First, chunks do not matter: feeding a chunk agrees
with feeding its bytes one by one (`wsFeedLoop_agree`), also where the size cap is tested once for a whole piece
of payload (`wsPayloadPiece_agree`). Second, started between two frames, the byte-wise parser goes through a
header (`run_header`) and a payload and is between two frames again; `wsByteStep_decodes` follows the decoder's
recursion.
-/

namespace HolyTls

open ByteMem (ofBe)

variable {allowRsv1 fin rsv1 : Bool} {max plen : Nat} {b0 b1 : UInt8} {op : WsOpcode} {p : WsParser}

/-! ## The byte-wise parser -/

/-- Feeding one byte. -/
def wsByteStep (p : WsParser) (b : UInt8) : WsParser × List WsEvent :=
  if p.dead then (p, []) else if !p.inPayload then wsHeaderByte p b else wsPayloadPiece p [b]

/-- A parser inside a payload still expects some of it. -/
def WsExpects (p : WsParser) : Prop := p.inPayload = true → 0 < p.payloadRemaining

abbrev WsDead (p : WsParser) : Prop := p.dead = true

/-- A dead parser takes no notice. -/
theorem wsByteStep_dead (p : WsParser) (b : UInt8) (h : WsDead p) : wsByteStep p b = (p, []) := by
  unfold wsByteStep
  rw [if_pos h]

theorem wsParserFeed_dead (p : WsParser) (bs : Str8) (h : WsDead p) : wsParserFeed p bs = (p, []) := by
  unfold wsParserFeed
  rw [if_pos h]

theorem wsFeedLoop_dead (fuel : Nat) (p : WsParser) (bs : Str8) (h : WsDead p) :
    wsFeedLoop fuel p bs = (p, []) := by
  cases fuel with
  | zero => rfl
  | succ fuel =>
    cases bs with
    | nil => rfl
    | cons b rest => rw [wsFeedLoop, if_pos h]

theorem wsCheckDone_expects (p : WsParser) : WsExpects (wsCheckDone p).1 := by
  unfold wsCheckDone
  split
  · intro hin
    cases hin
  · next hne =>
      intro _
      exact Nat.pos_of_ne_zero hne

theorem wsHeaderDone_expects (hp : p.inPayload = false) : WsExpects (wsHeaderDone p).1 := by
  unfold wsHeaderDone
  split
  · intro hin
    simp [wsFail, hp] at hin
  · exact wsCheckDone_expects _

@[simp] theorem wsSetHdrNeed_inPayload (p : WsParser) : (wsSetHdrNeed p).inPayload = p.inPayload := by
  unfold wsSetHdrNeed
  split <;> rfl

theorem wsHeaderByte_expects (hp : p.inPayload = false) (b : UInt8) : WsExpects (wsHeaderByte p b).1 := by
  simp only [wsHeaderByte]
  split
  · intro hin
    simp [wsFail, hp] at hin
  · split
    · apply wsHeaderDone_expects
      rw [wsSetHdrNeed_inPayload]
      exact hp
    · intro hin
      rw [wsSetHdrNeed_inPayload] at hin
      simp [hp] at hin

theorem wsPayloadPiece_expects (h : WsExpects p) (piece : Str8) : WsExpects (wsPayloadPiece p piece).1 := by
  unfold wsPayloadPiece
  split
  · exact h
  · exact wsCheckDone_expects _

/-- In a payload, the parser expects at least one byte more. -/
theorem wsByteStep_expects (p : WsParser) (b : UInt8) (h : WsExpects p) :
    WsExpects (wsByteStep p b).1 := by
  unfold wsByteStep
  split
  · exact h
  · split
    · next hp => exact wsHeaderByte_expects (by simpa using hp) b
    · exact wsPayloadPiece_expects h [b]

/-! ## Payload, piece by piece -/

/-- The parser with `piece` added to the buffer of the current frame. -/
def wsAbsorb (p : WsParser) (piece : Str8) : WsParser :=
  if p.curControl then
    { p with ctrl := p.ctrl ++ piece, payloadRemaining := p.payloadRemaining - piece.length }
  else { p with msg := p.msg ++ piece, payloadRemaining := p.payloadRemaining - piece.length }

/-- `piece` would take the message past its cap. -/
def WsOverflows (p : WsParser) (piece : Str8) : Prop :=
  p.curControl = false ∧ p.msg.length + piece.length > p.maxMessage

instance (p : WsParser) (piece : Str8) : Decidable (WsOverflows p piece) :=
  inferInstanceAs (Decidable (_ ∧ _))

theorem wsPayloadPiece_eq (p : WsParser) {piece : Str8} (hne : piece ≠ []) :
    wsPayloadPiece p piece =
      if WsOverflows p piece then (wsFail p, []) else wsCheckDone (wsAbsorb p piece) := by
  cases hc : p.curControl with
  | true => simp [wsPayloadPiece, WsOverflows, wsAbsorb, hc]
  | false =>
    by_cases hcap : p.msg.length + piece.length > p.maxMessage
    · simp [wsPayloadPiece, WsOverflows, wsMsgAppend, hc, hne, hcap]
    · simp [wsPayloadPiece, WsOverflows, wsMsgAppend, wsAbsorb, hc, hne, hcap]

theorem wsAbsorb_payloadRemaining (p : WsParser) (piece : Str8) :
    (wsAbsorb p piece).payloadRemaining = p.payloadRemaining - piece.length := by
  unfold wsAbsorb
  split <;> rfl

theorem wsAbsorb_inPayload (p : WsParser) (piece : Str8) :
    (wsAbsorb p piece).inPayload = p.inPayload := by
  unfold wsAbsorb
  split <;> rfl

theorem wsAbsorb_dead (p : WsParser) (piece : Str8) : (wsAbsorb p piece).dead = p.dead := by
  unfold wsAbsorb
  split <;> rfl

/-- Payload may come in pieces. -/
theorem wsAbsorb_append (p : WsParser) (xs ys : Str8) :
    wsAbsorb (wsAbsorb p xs) ys = wsAbsorb p (xs ++ ys) := by
  cases hc : p.curControl <;>
    simp [wsAbsorb, hc, List.append_assoc, List.length_append, Nat.sub_sub]

theorem wsOverflows_absorb (p : WsParser) (xs ys : Str8) :
    WsOverflows (wsAbsorb p xs) ys ↔ WsOverflows p (xs ++ ys) := by
  cases hc : p.curControl with
  | true => simp [WsOverflows, wsAbsorb, hc]
  | false => simp [WsOverflows, wsAbsorb, hc, Nat.add_assoc]

/-- **A piece of payload is its bytes.** The piece tests the cap once, the bytes one after another: either
    all of them fit, or both end dead without an event. -/
theorem wsPayloadPiece_agree {piece : Str8} (hdead : p.dead = false) (hin : p.inPayload = true)
    (hne : piece ≠ []) (hlen : piece.length ≤ p.payloadRemaining) :
    Feed.Agree WsDead (wsPayloadPiece p piece) (Feed.run wsByteStep p piece) := by
  induction piece generalizing p with
  | nil => exact absurd rfl hne
  | cons b rest ih =>
    have hstep : wsByteStep p b = wsPayloadPiece p [b] := by
      simp [wsByteStep, hdead, hin]
    rw [Feed.run_cons, hstep]
    cases rest with
    | nil => exact ⟨by simp, .inl rfl⟩
    | cons c cs =>
      have hlen' : cs.length + 1 + 1 ≤ p.payloadRemaining := hlen
      rw [wsPayloadPiece_eq p (List.cons_ne_nil b []), wsPayloadPiece_eq p hne]
      by_cases hcap : WsOverflows p [b]
      · -- already the first byte passes the cap
        have hall : WsOverflows p (b :: c :: cs) := by
          refine ⟨hcap.1, ?_⟩
          have hone : p.msg.length + 1 > p.maxMessage := hcap.2
          show p.msg.length + (cs.length + 1 + 1) > p.maxMessage
          omega
        rw [if_pos hcap, if_pos hall, Feed.run_absorbing wsByteStep_dead (show WsDead (wsFail p) from rfl)]
        exact ⟨rfl, .inl rfl⟩
      · have hmore : wsCheckDone (wsAbsorb p [b]) = (wsAbsorb p [b], []) := by
          rw [wsCheckDone, if_neg]
          rw [wsAbsorb_payloadRemaining]
          show ¬ p.payloadRemaining - 1 = 0
          omega
        rw [if_neg hcap, hmore]
        have hq : wsPayloadPiece (wsAbsorb p [b]) (c :: cs) =
            if WsOverflows p (b :: c :: cs) then (wsFail (wsAbsorb p [b]), [])
            else wsCheckDone (wsAbsorb p (b :: c :: cs)) := by
          rw [wsPayloadPiece_eq _ (List.cons_ne_nil c cs), wsAbsorb_append]
          simp only [wsOverflows_absorb, List.singleton_append]
        have hbytes := ih (p := wsAbsorb p [b]) (by rw [wsAbsorb_dead, hdead])
          (by rw [wsAbsorb_inPayload, hin]) (List.cons_ne_nil c cs) (by
            rw [wsAbsorb_payloadRemaining]
            show cs.length + 1 ≤ p.payloadRemaining - 1
            omega)
        refine Feed.Agree.trans ?_ hbytes
        rw [hq]
        split
        · exact ⟨rfl, .inr ⟨rfl, rfl⟩⟩
        · exact Feed.Agree.refl _ _

/-! ## Chunks do not matter -/

/-- By induction on the fuel, piece by piece. -/
theorem wsFeedLoop_agree (fuel : Nat) (p : WsParser) (data : Str8) (hp : WsExpects p)
    (hfuel : data.length < fuel) :
    Feed.Agree WsDead (wsFeedLoop fuel p data) (Feed.run wsByteStep p data) := by
  -- induction on the rounds of the loop: each one consumes a header byte or a piece of payload
  induction fuel generalizing p data with
  | zero => exact absurd hfuel (Nat.not_lt_zero _)
  | succ fuel ih =>
    cases data with
    | nil => exact Feed.Agree.refl _ _
    | cons b rest =>
      rw [wsFeedLoop]
      cases hdead : p.dead with
      | true =>
        rw [if_pos rfl, Feed.run_absorbing wsByteStep_dead hdead]
        exact Feed.Agree.refl _ _
      | false =>
        rw [if_neg (by simp)]
        cases hin : p.inPayload with
        | false =>
          have hstep : wsByteStep p b = wsHeaderByte p b := by simp [wsByteStep, hdead, hin]
          rw [if_pos (by simp)]
          show Feed.Agree WsDead _
            (Feed.andThen (wsByteStep p b) (fun q => Feed.run wsByteStep q rest))
          rw [hstep]
          apply Feed.Agree.andThen (Feed.Agree.refl _ _)
          · intro q hq
            exact wsFeedLoop_dead fuel q rest hq
          · intro q hq
            exact Feed.run_absorbing wsByteStep_dead hq rest
          · intro _
            apply ih _ _ (wsHeaderByte_expects hin b)
            simpa using hfuel
        | true =>
          have hpos : 0 < p.payloadRemaining := hp hin
          rw [if_neg (by simp)]
          -- the round takes as much payload as the chunk holds
          have hsplit := List.take_append_drop
            (min (b :: rest).length p.payloadRemaining) (b :: rest)
          have htake : ((b :: rest).take (min (b :: rest).length p.payloadRemaining)).length =
              min (b :: rest).length p.payloadRemaining := by
            rw [List.length_take]; omega
          have hone : 0 < min (b :: rest).length p.payloadRemaining := by
            rw [List.length_cons]; omega
          have hrun : Feed.run wsByteStep p (b :: rest) = Feed.andThen
              (Feed.run wsByteStep p ((b :: rest).take (min (b :: rest).length p.payloadRemaining)))
              (fun q => Feed.run wsByteStep q
                ((b :: rest).drop (min (b :: rest).length p.payloadRemaining))) := by
            rw [← Feed.run_append_andThen, hsplit]
          rw [hrun]
          apply Feed.Agree.andThen (wsPayloadPiece_agree hdead hin ?_ ?_)
          · intro q hq
            exact wsFeedLoop_dead fuel q _ hq
          · intro q hq
            exact Feed.run_absorbing wsByteStep_dead hq _
          · intro he
            rw [← he]
            apply ih _ _ (wsPayloadPiece_expects hp _)
            rw [List.length_drop]
            omega
          · intro hnil
            rw [hnil, List.length_nil] at htake
            omega
          · rw [htake]
            exact min_le_right _ _

theorem wsParserFeed_agree (p : WsParser) (data : Str8) (hp : WsExpects p) :
    Feed.Agree WsDead (wsParserFeed p data) (Feed.run wsByteStep p data) := by
  unfold wsParserFeed
  split
  · next hdead =>
      rw [Feed.run_absorbing wsByteStep_dead hdead]
      exact Feed.Agree.refl _ _
  · exact wsFeedLoop_agree _ p data hp (Nat.lt_succ_self _)

theorem wsParserFeed_chunks_agree (hp : WsExpects p) (chunks : List Str8) :
    Feed.Agree WsDead (Feed.run wsParserFeed p chunks) (Feed.run wsByteStep p chunks.flatten) :=
  Feed.run_chunks_agree wsByteStep_dead wsParserFeed_dead wsByteStep_expects wsParserFeed_agree hp chunks

/-! ## The whole-stream decoder

The fields are read as RFC 6455, section 5.2, lays them out, by numbers and not by the masks of the parser. -/

/-- The opcodes of RFC 6455; the other values of the four bits are reserved. -/
def rfcOpcodes : List (Nat × WsOpcode) :=
  [(0, .continuation), (1, .text), (2, .binary), (8, .close), (9, .ping), (10, .pong)]

/-- A message of which some frames have arrived. -/
structure WsMessage where
  op : WsOpcode
  compressed : Bool
  payload : Str8

/-- The rules a complete header must obey. RSV1 needs the negotiated extension and may only mark the first
    frame of a message; control frames are short and whole; a continuation needs an open message and a new
    message needs that there is none. -/
def wsHeaderLegal (allowRsv1 inMessage fin rsv1 : Bool) (op : WsOpcode) (plen : Nat) : Bool :=
  (!rsv1 || allowRsv1) &&
  match op with
  | .close | .ping | .pong => fin && plen ≤ 125 && !rsv1
  | .continuation => inMessage && !rsv1
  | .text | .binary => !inMessage
  | .reserved _ => false

/-- What stands at the start of a stream: too little to tell, a violation, or a frame header and what
    follows it. -/
inductive WsHead
  | incomplete
  | illegal
  | frame (fin rsv1 : Bool) (op : WsOpcode) (plen : Nat) (body : Str8)

def wsHead (allowRsv1 inMessage : Bool) : Str8 → WsHead
  | b0 :: b1 :: rest =>
    let fin := decide (128 ≤ b0.toNat)
    let rsv1 := decide (b0.toNat / 64 % 2 = 1)
    let len7 := b1.toNat % 128
    let ext := extLength len7
    let plen := if ext = 0 then len7 else ofBe 0 (rest.take ext)
    -- a server does not mask, and RSV2 and RSV3 have no meaning
    if 128 ≤ b1.toNat ∨ b0.toNat / 32 % 2 = 1 ∨ b0.toNat / 16 % 2 = 1 then .illegal
    else if rest.length < ext then .incomplete
    else
      match rfcOpcodes.lookup (b0.toNat % 16) with
      | none => .illegal
      | some op =>
        if wsHeaderLegal allowRsv1 inMessage fin rsv1 op plen then .frame fin rsv1 op plen (rest.drop ext)
        else .illegal
  | _ => .incomplete

theorem wsHead_frame_length {inMessage : Bool} {bs body : Str8}
    (h : wsHead allowRsv1 inMessage bs = .frame fin rsv1 op plen body) :
    body.length < bs.length := by
  unfold wsHead at h
  split at h
  · next b0 b1 rest =>
      dsimp only at h
      generalize (if extLength (b1.toNat % 128) = 0 then b1.toNat % 128
        else ofBe 0 (rest.take (extLength (b1.toNat % 128)))) = len at h
      split at h
      · cases h
      · split at h
        · cases h
        · split at h
          · cases h
          · split at h
            · cases h
              simp only [List.length_drop, List.length_cons]
              omega
            · cases h
  · cases h

/-- What a control frame with this payload says. A close frame with at least two bytes starts with a status
    code. -/
def rfcControl (op : WsOpcode) (payload : Str8) : Option WsEvent :=
  match op with
  | .ping => some { kind := .ping, op := .ping, data := payload }
  | .pong => some { kind := .pong, op := .pong, data := payload }
  | .close =>
    match payload with
    | hi :: lo :: why =>
      some { kind := .close, op := .close, data := why, closeCode := hi.toNat * 256 + lo.toNat }
    | _ => some { kind := .close, op := .close, data := [] }
  | _ => none

/-- The open message after a data frame with payload `piece`: a continuation extends it, any other data
    frame starts it. -/
def wsExtend (m : Option WsMessage) (op : WsOpcode) (rsv1 : Bool) (piece : Str8) : WsMessage :=
  match m with
  | some w => { w with payload := w.payload ++ piece }
  | none => { op := op, compressed := rsv1, payload := piece }

/-- **The reference decoder**: the events of a stream, frame by frame, and whether it contains a violation.
    `m` is the open message. A message past the cap is a violation as soon as the bytes that exceed it are
    there; all other violations are judged on the header. -/
def wsDecode (allowRsv1 : Bool) (max : Nat) (m : Option WsMessage) (bs : Str8) : List WsEvent × Bool :=
  match _h : wsHead allowRsv1 m.isSome bs with
  | .incomplete => ([], false)
  | .illegal => ([], true)
  | .frame fin rsv1 op plen body =>
    match rfcControl op (body.take plen) with
    | some ev =>
      if body.length < plen then ([], false)
      else
        let r := wsDecode allowRsv1 max m (body.drop plen)
        (ev :: r.1, r.2)
    | none =>
      let msg := wsExtend m op rsv1 (body.take plen)
      if max < msg.payload.length then ([], true)
      else if body.length < plen then ([], false)
      else if fin then
        let r := wsDecode allowRsv1 max none (body.drop plen)
        ({ kind := .message, op := msg.op, data := msg.payload, compressed := msg.compressed } :: r.1, r.2)
      else wsDecode allowRsv1 max (some msg) (body.drop plen)
termination_by bs.length
decreasing_by
  all_goals
    have := wsHead_frame_length _h
    rw [List.length_drop]
    omega

/-! ## The parser reads the same fields -/

theorem forall_byte {P : UInt8 → Prop} (h : ∀ n < 256, P (UInt8.ofNat n)) (b : UInt8) : P b := by
  have hb := h b.toNat b.toNat_lt
  rwa [UInt8.ofNat_toNat] at hb

/-- The flags of a byte, by the masks of the parser and by number. -/
theorem wsFlags_eq : ∀ b : UInt8,
    (b &&& 0x80 != 0) = decide (128 ≤ b.toNat) ∧ (b &&& 0x40 != 0) = decide (b.toNat / 64 % 2 = 1) ∧
      (b &&& 0x30 != 0) = decide (b.toNat / 32 % 2 = 1 ∨ b.toNat / 16 % 2 = 1) ∧
      (b &&& 0x7f).toNat = b.toNat % 128 :=
  forall_byte (by decide +kernel)

/-- What the parser takes for an opcode without a name is reserved. -/
theorem rfcOpcodes_lookup : ∀ b : UInt8, rfcOpcodes.lookup (b.toNat % 16) =
    (match wsOpcodeOf b with
      | .reserved _ => none
      | op => some op) :=
  forall_byte (by decide +kernel)

theorem wsExtLength_eq (b1 : UInt8) : wsExtLength b1 = extLength (b1.toNat % 128) := by
  simp only [wsExtLength, extLength, (wsFlags_eq b1).2.2.2, beq_iff_eq]

theorem wsPayloadLength_eq (b1 : UInt8) (ext : Str8) :
    wsPayloadLength b1 ext = if extLength (b1.toNat % 128) = 0 then b1.toNat % 128 else ofBe 0 ext := by
  have hbig : wsBigEndian ext = ofBe 0 ext := rfl
  have hshort : extLength (b1.toNat % 128) = 0 ↔ b1.toNat % 128 < 126 := by
    unfold extLength
    split
    · omega
    · split <;> omega
  simp only [wsPayloadLength, (wsFlags_eq b1).2.2.2, hbig, hshort]

/-- **The head of a stream, by the readers of the parser.** -/
theorem wsHead_cons (allowRsv1 inMessage : Bool) (b0 b1 : UInt8) (rest : Str8) :
    wsHead allowRsv1 inMessage (b0 :: b1 :: rest) =
      if b1 &&& 0x80 != 0 || b0 &&& 0x30 != 0 then .illegal
      else if rest.length < wsExtLength b1 then .incomplete
      else if wsHeaderLegal allowRsv1 inMessage (b0 &&& 0x80 != 0) (b0 &&& 0x40 != 0) (wsOpcodeOf b0)
          (wsPayloadLength b1 (rest.take (wsExtLength b1))) then
        .frame (b0 &&& 0x80 != 0) (b0 &&& 0x40 != 0) (wsOpcodeOf b0)
          (wsPayloadLength b1 (rest.take (wsExtLength b1))) (rest.drop (wsExtLength b1))
      else .illegal := by
  obtain ⟨hmasked, -, -, -⟩ := wsFlags_eq b1
  obtain ⟨hfin, hrsv1, hrsv23, -⟩ := wsFlags_eq b0
  simp only [wsHead, rfcOpcodes_lookup, wsExtLength_eq, wsPayloadLength_eq, hmasked, hfin, hrsv1, hrsv23,
    Bool.or_eq_true, decide_eq_true_eq]
  split
  · rfl
  · split
    · rfl
    · cases wsOpcodeOf b0 <;> simp [wsHeaderLegal]

/-- The control events of the parser, for the opcodes of a legal header. -/
theorem rfcControl_eq {inMessage : Bool} (hl : wsHeaderLegal allowRsv1 inMessage fin rsv1 op plen = true)
    (payload : Str8) :
    rfcControl op payload = if op.isControl then some (wsControlEvent op payload) else none := by
  cases op with
  | close =>
    rcases payload with _ | ⟨hi, _ | ⟨lo, why⟩⟩
    · rfl
    · rfl
    · simp [rfcControl, wsControlEvent, WsOpcode.isControl, wsBigEndian]
  | reserved n => simp [wsHeaderLegal] at hl
  | _ => rfl

/-! ## Headers -/

/-- The parser stands between two frames, with `m` the open message. -/
structure WsBetween (allowRsv1 : Bool) (max : Nat) (m : Option WsMessage) (p : WsParser) : Prop where
  alive : p.dead = false
  noHdr : p.hdr = []
  noPayload : p.inPayload = false
  allow : p.allowRsv1 = allowRsv1
  cap : p.maxMessage = max
  isOpen : p.inMessage = m.isSome
  message : ∀ w, m = some w →
    p.msgOp = w.op ∧ p.msgRsv1 = w.compressed ∧ p.msg = w.payload ∧ w.payload.length ≤ max

theorem wsBetween_init (max : Nat) :
    WsBetween false (wsParserInit max).maxMessage none (wsParserInit max) :=
  ⟨rfl, rfl, rfl, rfl, rfl, rfl, fun w hw => by cases hw⟩

variable {m : Option WsMessage}

theorem wsBetween_allowCompression (h : WsBetween false max m p) :
    WsBetween true max m (wsParserAllowCompression p) :=
  ⟨h.alive, h.noHdr, h.noPayload, rfl, h.cap, h.isOpen, h.message⟩

theorem wsByteStep_header (hd : p.dead = false) (hp : p.inPayload = false) (b : UInt8) :
    wsByteStep p b = wsHeaderByte p b := by
  simp [wsByteStep, hd, hp]

theorem wsHeaderByte_first (hh : p.hdr = []) (b0 : UInt8) :
    wsHeaderByte p b0 = ({ p with hdr := [b0] }, []) := by
  simp [wsHeaderByte, wsHeaderIllegal, wsSetHdrNeed, hh]

theorem wsHeaderByte_second (hh : p.hdr = [b0]) (b1 : UInt8) :
    wsHeaderByte p b1 =
      if b1 &&& 0x80 != 0 || b0 &&& 0x30 != 0 then (wsFail { p with hdr := [b0, b1] }, [])
      else if wsExtLength b1 = 0 then
        wsHeaderDone { p with hdr := [b0, b1], hdrNeed := 2 + wsExtLength b1 }
      else ({ p with hdr := [b0, b1], hdrNeed := 2 + wsExtLength b1 }, []) := by
  by_cases hill : (b1 &&& 0x80 != 0 || b0 &&& 0x30 != 0) = true
  · simp [wsHeaderByte, wsHeaderIllegal, hh, hill]
  · by_cases hext : wsExtLength b1 = 0
    · simp [wsHeaderByte, wsHeaderIllegal, wsSetHdrNeed, hh, hill, hext]
    · simp [wsHeaderByte, wsHeaderIllegal, wsSetHdrNeed, hh, hill, hext]

theorem wsHeaderByte_later (hh : 2 ≤ p.hdr.length) (b : UInt8) :
    wsHeaderByte p b =
      if p.hdr.length + 1 = p.hdrNeed then wsHeaderDone { p with hdr := p.hdr ++ [b] }
      else ({ p with hdr := p.hdr ++ [b] }, []) := by
  have h2 : ¬ p.hdr.length + 1 = 2 := by omega
  simp only [wsHeaderByte, wsHeaderIllegal, wsSetHdrNeed, List.length_append, List.length_singleton,
    beq_iff_eq, h2, Bool.and_eq_true, decide_eq_true_eq, false_and, if_false]
  by_cases hneed : p.hdr.length + 1 = p.hdrNeed
  · rw [if_pos hneed, if_pos ⟨by omega, hneed⟩]
  · rw [if_neg hneed, if_neg (fun h => hneed h.2)]

/-- The length bytes: nothing happens before the last one, which completes the header. -/
theorem run_ext {k : Nat} (hd : p.dead = false) (hp : p.inPayload = false) (hh : 2 ≤ p.hdr.length)
    (hneed : p.hdrNeed = p.hdr.length + k) (hk : 0 < k) (ext : Str8) :
    (ext.length < k → Feed.run wsByteStep p ext = ({ p with hdr := p.hdr ++ ext }, [])) ∧
    (ext.length = k → Feed.run wsByteStep p ext = wsHeaderDone { p with hdr := p.hdr ++ ext }) := by
  induction ext generalizing p k with
  | nil =>
    refine ⟨fun _ => ?_, fun h => ?_⟩
    · rw [List.append_nil]; rfl
    · rw [List.length_nil] at h
      omega
  | cons b ext ih =>
    rw [Feed.run_cons, wsByteStep_header hd hp, wsHeaderByte_later hh]
    by_cases hlast : k = 1
    · -- this byte completes the header
      rw [if_pos (by rw [hneed, hlast])]
      refine ⟨fun h => ?_, fun h => ?_⟩
      · rw [List.length_cons] at h
        omega
      · obtain rfl : ext = [] := by
          rw [List.length_cons] at h
          exact List.length_eq_zero_iff.mp (by omega)
        simp
    · rw [if_neg (by omega)]
      obtain ⟨hless, heq⟩ := ih (p := { p with hdr := p.hdr ++ [b] }) (k := k - 1) hd hp
        (by simp only [List.length_append, List.length_singleton]; omega)
        (by simp only [List.length_append, List.length_singleton, hneed]; omega) (by omega)
      refine ⟨fun h => ?_, fun h => ?_⟩
      · rw [hless (by rw [List.length_cons] at h; omega)]
        simp
      · rw [heq (by rw [List.length_cons] at h; omega)]
        simp

/-- The parser after a legal header, about to receive the payload. -/
def wsStarted (p : WsParser) (fin rsv1 : Bool) (op : WsOpcode) (plen : Nat) : WsParser :=
  let p := { p with curFin := fin, curOp := op, payloadRemaining := plen }
  if op.isControl then { p with curControl := true, ctrl := [] }
  else if op = .continuation then { p with curControl := false }
  else { p with curControl := false, inMessage := true, msgOp := op, msgRsv1 := rsv1, msg := [] }

/-- The parser starts a frame exactly when its header is legal. -/
theorem wsBeginFrame_eq {ext : Str8} (hh : p.hdr = b0 :: b1 :: ext) :
    wsBeginFrame p =
      if wsHeaderLegal p.allowRsv1 p.inMessage (b0 &&& 0x80 != 0) (b0 &&& 0x40 != 0) (wsOpcodeOf b0)
          (wsPayloadLength b1 ext) then
        some (wsStarted p (b0 &&& 0x80 != 0) (b0 &&& 0x40 != 0) (wsOpcodeOf b0) (wsPayloadLength b1 ext))
      else none := by
  have hb0 : p.hdr.getD 0 0 = b0 := by rw [hh]; rfl
  have hb1 : p.hdr.getD 1 0 = b1 := by rw [hh]; rfl
  have hext : p.hdr.drop 2 = ext := by rw [hh]; rfl
  simp only [wsBeginFrame, hb0, hb1, hext]
  generalize (b0 &&& 0x80 != 0) = fin
  generalize (b0 &&& 0x40 != 0) = rsv1
  generalize wsPayloadLength b1 ext = plen
  have hle : (plen ≤ 125) = ¬ (125 < plen) := by rw [Nat.not_lt]
  cases wsOpcodeOf b0 with
  | close | ping | pong =>
    cases rsv1 <;> cases fin <;> by_cases hl : 125 < plen <;>
      simp [wsHeaderLegal, wsStarted, WsOpcode.isControl, hle, hl]
  | continuation =>
    cases rsv1 <;> cases hi : p.inMessage <;> simp [wsHeaderLegal, wsStarted, WsOpcode.isControl, hi]
  | text | binary =>
    cases rsv1 <;> cases ha : p.allowRsv1 <;> cases hi : p.inMessage <;>
      simp [wsHeaderLegal, wsStarted, WsOpcode.isControl, ha]
  | reserved n =>
    by_cases hn : n &&& 0x08 = 0 <;> simp [wsHeaderLegal, WsOpcode.isControl, hn]

/-- The parser at the first payload byte of a frame. -/
def wsReceiving (p : WsParser) (fin rsv1 : Bool) (op : WsOpcode) (plen : Nat) : WsParser :=
  { wsStarted p fin rsv1 op plen with hdr := [], inPayload := true }

theorem wsStarted_payloadRemaining (p : WsParser) (fin rsv1 : Bool) (op : WsOpcode) (plen : Nat) :
    (wsStarted p fin rsv1 op plen).payloadRemaining = plen := by
  unfold wsStarted
  simp only
  split
  · rfl
  · split <;> rfl

theorem wsReceiving_hdr (p : WsParser) (hdr : Str8) (fin rsv1 : Bool) (op : WsOpcode) (plen : Nat) :
    wsReceiving { p with hdr := hdr } fin rsv1 op plen = wsReceiving p fin rsv1 op plen := by
  unfold wsReceiving wsStarted
  simp only
  split
  · rfl
  · split <;> rfl

theorem wsHeaderDone_eq {ext : Str8} (hh : p.hdr = b0 :: b1 :: ext) :
    wsHeaderDone p =
      if wsHeaderLegal p.allowRsv1 p.inMessage (b0 &&& 0x80 != 0) (b0 &&& 0x40 != 0) (wsOpcodeOf b0)
          (wsPayloadLength b1 ext) then
        wsCheckDone (wsReceiving p (b0 &&& 0x80 != 0) (b0 &&& 0x40 != 0) (wsOpcodeOf b0)
          (wsPayloadLength b1 ext))
      else (wsFail p, []) := by
  unfold wsHeaderDone
  rw [wsBeginFrame_eq hh]
  split
  · next q hq =>
      split at hq
      · cases hq
      · next hl => rw [if_neg hl]
  · next q hq =>
      split at hq
      · next hl =>
          cases hq
          rw [if_pos hl]
          rfl
      · cases hq

/-- From the second header byte to the end of the header, if the stream holds all of it. -/
theorem run_lengthBytes {k : Nat} (hd : p.dead = false) (hp : p.inPayload = false) (hh : p.hdr = [b0, b1])
    (hneed : p.hdrNeed = 2 + k) (rest : Str8) :
    (rest.length < k → ∃ q, Feed.andThen (if k = 0 then wsHeaderDone p else (p, []))
      (fun q => Feed.run wsByteStep q rest) = (q, []) ∧ q.dead = false) ∧
    (k ≤ rest.length → Feed.andThen (if k = 0 then wsHeaderDone p else (p, []))
      (fun q => Feed.run wsByteStep q rest) =
      Feed.andThen (wsHeaderDone { p with hdr := b0 :: b1 :: rest.take k })
        (fun q => Feed.run wsByteStep q (rest.drop k))) := by
  cases k with
  | zero =>
    have hself : { p with hdr := [b0, b1] } = p := by rw [← hh]
    refine ⟨fun hlt => absurd hlt (Nat.not_lt_zero _), fun _ => ?_⟩
    rw [if_pos rfl, List.take_zero, List.drop_zero, hself]
  | succ k =>
    have hlen : p.hdr.length = 2 := by rw [hh]; rfl
    have hext := fun ext => run_ext hd hp (p := p) (k := k + 1) (by omega) (by omega) (Nat.succ_pos k) ext
    rw [if_neg (Nat.succ_ne_zero k), Feed.andThen_pure]
    constructor
    · intro hlt
      exact ⟨_, (hext rest).1 hlt, hd⟩
    · intro hle
      have hrun := (hext (rest.take (k + 1))).2 (by rw [List.length_take]; omega)
      rw [hh] at hrun
      show _ = Feed.andThen (wsHeaderDone { p with hdr := [b0, b1] ++ rest.take (k + 1) }) _
      rw [← hrun, ← Feed.run_append_andThen, List.take_append_drop]

/-- **Through a header.** From between two frames, the bytes of a stream lead where its head says: nowhere
    yet, to death, or to the first payload byte of a legal frame. -/
theorem run_header (h : WsBetween allowRsv1 max m p) (bs : Str8) :
    match wsHead allowRsv1 m.isSome bs with
    | .incomplete => ∃ q, Feed.run wsByteStep p bs = (q, []) ∧ q.dead = false
    | .illegal => ∃ q, Feed.run wsByteStep p bs = (q, []) ∧ q.dead = true
    | .frame fin rsv1 op plen body =>
      wsHeaderLegal allowRsv1 m.isSome fin rsv1 op plen = true ∧
      ∃ p', WsBetween allowRsv1 max m p' ∧
        Feed.run wsByteStep p bs = Feed.andThen (wsCheckDone (wsReceiving p' fin rsv1 op plen))
          (fun q => Feed.run wsByteStep q body) := by
  match bs with
  | [] => exact ⟨p, rfl, h.alive⟩
  | [b0] =>
    refine ⟨{ p with hdr := [b0] }, ?_, h.alive⟩
    rw [Feed.run_cons, wsByteStep_header h.alive h.noPayload, wsHeaderByte_first h.noHdr]
    rfl
  | b0 :: b1 :: rest =>
    -- the first two bytes
    have htwo : Feed.run wsByteStep p (b0 :: b1 :: rest) = Feed.andThen
        (if b1 &&& 0x80 != 0 || b0 &&& 0x30 != 0 then (wsFail { p with hdr := [b0, b1] }, [])
          else if wsExtLength b1 = 0 then
            wsHeaderDone { p with hdr := [b0, b1], hdrNeed := 2 + wsExtLength b1 }
          else ({ p with hdr := [b0, b1], hdrNeed := 2 + wsExtLength b1 }, []))
        (fun q => Feed.run wsByteStep q rest) := by
      rw [Feed.run_cons, wsByteStep_header h.alive h.noPayload, wsHeaderByte_first h.noHdr, Feed.run_cons,
        wsByteStep_header (p := { p with hdr := [b0] }) h.alive h.noPayload,
        wsHeaderByte_second (p := { p with hdr := [b0] }) rfl]
      rfl
    rw [htwo, wsHead_cons]
    by_cases hill : (b1 &&& 0x80 != 0 || b0 &&& 0x30 != 0) = true
    · simp only [hill, if_true]
      refine ⟨wsFail { p with hdr := [b0, b1] }, ?_, rfl⟩
      show Feed.andThen (wsFail { p with hdr := [b0, b1] }, []) _ = _
      rw [Feed.andThen, Feed.run_absorbing wsByteStep_dead (show WsDead (wsFail _) from rfl)]
      rfl
    · rw [Bool.not_eq_true] at hill
      simp only [hill, Bool.false_eq_true, if_false]
      -- the length bytes
      obtain ⟨hshort, hlong⟩ := run_lengthBytes
        (p := { p with hdr := [b0, b1], hdrNeed := 2 + wsExtLength b1 }) h.alive h.noPayload rfl rfl rest
      by_cases hlt : rest.length < wsExtLength b1
      · rw [if_pos hlt]
        exact hshort hlt
      · rw [if_neg hlt]
        rw [hlong (by omega), wsHeaderDone_eq
          (p := { p with hdr := b0 :: b1 :: rest.take (wsExtLength b1), hdrNeed := 2 + wsExtLength b1 }) rfl]
        by_cases hl : wsHeaderLegal allowRsv1 m.isSome (b0 &&& 0x80 != 0) (b0 &&& 0x40 != 0)
            (wsOpcodeOf b0) (wsPayloadLength b1 (rest.take (wsExtLength b1))) = true
        · rw [if_pos hl, if_pos (by rw [h.allow, h.isOpen]; exact hl)]
          refine ⟨hl, { p with hdrNeed := 2 + wsExtLength b1 },
            ⟨h.alive, h.noHdr, h.noPayload, h.allow, h.cap, h.isOpen, h.message⟩, ?_⟩
          rw [← wsReceiving_hdr { p with hdrNeed := 2 + wsExtLength b1 }
            (b0 :: b1 :: rest.take (wsExtLength b1))]
        · rw [if_neg hl, if_neg (by rw [h.allow, h.isOpen]; exact hl), Feed.andThen_pure]
          exact ⟨_, Feed.run_absorbing wsByteStep_dead (show WsDead (wsFail _) from rfl) _, rfl⟩

/-! ## Payloads -/

theorem wsAbsorb_nil (p : WsParser) : wsAbsorb p [] = p := by
  unfold wsAbsorb
  split <;> simp

/-- **Through a payload.** From the first payload byte, the stream either ends inside the payload, or
    completes it and goes on behind it; in both cases it may die of the cap. -/
theorem run_payload {q : WsParser} (hd : q.dead = false) (hin : q.inPayload = true)
    (hcap : ¬ WsOverflows q []) (body : Str8) :
    Feed.Agree WsDead (Feed.andThen (wsCheckDone q) (fun r => Feed.run wsByteStep r body))
      (if WsOverflows q (body.take q.payloadRemaining) then (wsFail q, [])
       else if body.length < q.payloadRemaining then (wsAbsorb q body, [])
       else Feed.andThen (wsEndFrame (wsAbsorb q (body.take q.payloadRemaining)))
        (fun r => Feed.run wsByteStep r (body.drop q.payloadRemaining))) := by
  by_cases hzero : q.payloadRemaining = 0
  · -- no payload at all: the frame ended with its header
    rw [wsCheckDone, if_pos hzero, hzero, List.take_zero, if_neg hcap, if_neg (Nat.not_lt_zero _),
      List.drop_zero, wsAbsorb_nil]
    exact Feed.Agree.refl _ _
  · rw [wsCheckDone, if_neg hzero, Feed.andThen_pure]
    by_cases hshort : body.length < q.payloadRemaining
    · have htake : body.take q.payloadRemaining = body := List.take_of_length_le (by omega)
      rw [htake, if_pos hshort]
      by_cases hnil : body = []
      · rw [hnil, if_neg hcap, wsAbsorb_nil]
        exact Feed.Agree.refl _ _
      · have hpiece := wsPayloadPiece_agree hd hin hnil (by omega)
        rw [wsPayloadPiece_eq q hnil] at hpiece
        have hmore : wsCheckDone (wsAbsorb q body) = (wsAbsorb q body, []) := by
          rw [wsCheckDone, if_neg]
          rw [wsAbsorb_payloadRemaining]
          omega
        rw [hmore] at hpiece
        exact hpiece.symm
    · have hlen : (body.take q.payloadRemaining).length = q.payloadRemaining := by
        rw [List.length_take]; omega
      have hne : body.take q.payloadRemaining ≠ [] := by
        intro hnil
        rw [hnil, List.length_nil] at hlen
        omega
      have hpiece := wsPayloadPiece_agree hd hin hne (by omega)
      have hdone : wsCheckDone (wsAbsorb q (body.take q.payloadRemaining)) =
          wsEndFrame (wsAbsorb q (body.take q.payloadRemaining)) := by
        rw [wsCheckDone, if_pos]
        rw [wsAbsorb_payloadRemaining]
        omega
      rw [wsPayloadPiece_eq q hne, hdone] at hpiece
      have hrun : Feed.run wsByteStep q body = Feed.andThen
          (Feed.run wsByteStep q (body.take q.payloadRemaining))
          (fun r => Feed.run wsByteStep r (body.drop q.payloadRemaining)) := by
        rw [← Feed.run_append_andThen, List.take_append_drop]
      have habs : ∀ r, WsDead r →
          Feed.run wsByteStep r (body.drop q.payloadRemaining) = (r, []) := fun r hr =>
        Feed.run_absorbing wsByteStep_dead hr _
      have hthen := hpiece.symm.andThen habs habs (fun he => by rw [he]; exact Feed.Agree.refl _ _)
      rw [hrun, if_neg hshort]
      refine hthen.trans ?_
      split
      · rw [Feed.andThen_pure, habs _ rfl]
        exact Feed.Agree.refl _ _
      · exact Feed.Agree.refl _ _

theorem wsReceiving_payloadRemaining (p : WsParser) (fin rsv1 : Bool) (op : WsOpcode) (plen : Nat) :
    (wsReceiving p fin rsv1 op plen).payloadRemaining = plen :=
  wsStarted_payloadRemaining p fin rsv1 op plen

theorem wsReceiving_dead (p : WsParser) (fin rsv1 : Bool) (op : WsOpcode) (plen : Nat) :
    (wsReceiving p fin rsv1 op plen).dead = p.dead := by
  unfold wsReceiving wsStarted
  simp only
  split
  · rfl
  · split <;> rfl

/-- The state at the first payload byte of a control frame. -/
theorem wsReceiving_control (hop : op.isControl = true) :
    wsReceiving p fin rsv1 op plen =
      { p with curFin := fin, curOp := op, payloadRemaining := plen, curControl := true, ctrl := []
               hdr := [], inPayload := true } := by
  simp [wsReceiving, wsStarted, hop]

/-- The state at the first payload byte of a legal data frame: the message it belongs to is open. -/
theorem wsReceiving_data (h : WsBetween allowRsv1 max m p)
    (hl : wsHeaderLegal allowRsv1 m.isSome fin rsv1 op plen = true) (hop : op.isControl = false) :
    ∃ w : WsMessage, (∀ piece, wsExtend m op rsv1 piece = { w with payload := w.payload ++ piece }) ∧
      w.payload.length ≤ max ∧
      wsReceiving p fin rsv1 op plen =
        { p with curFin := fin, curOp := op, payloadRemaining := plen, curControl := false, hdr := []
                 inPayload := true, inMessage := true, msgOp := w.op, msgRsv1 := w.compressed
                 msg := w.payload } := by
  cases m with
  | none =>
    have hcont : op ≠ .continuation := by
      rintro rfl
      simp [wsHeaderLegal] at hl
    exact ⟨{ op := op, compressed := rsv1, payload := [] }, fun piece => rfl, Nat.zero_le _,
      by simp [wsReceiving, wsStarted, hop, hcont]⟩
  | some w =>
    obtain ⟨hop', hrsv, hmsg, hlen⟩ := h.message w rfl
    have hcont : op = .continuation := by
      cases op <;> simp_all [wsHeaderLegal, WsOpcode.isControl]
    have hin : p.inMessage = true := h.isOpen
    exact ⟨w, fun piece => rfl, hlen, by
      simp [wsReceiving, wsStarted, hcont, hop', hrsv, hmsg, hin, WsOpcode.isControl]⟩

/-- A control frame is reported, and the open message is left alone. -/
theorem controlFrame_end (h : WsBetween allowRsv1 max m p) (fin rsv1 : Bool) (plen : Nat)
    (hop : op.isControl = true) (piece : Str8) :
    ∃ r, wsEndFrame (wsAbsorb (wsReceiving p fin rsv1 op plen) piece) = (r, [wsControlEvent op piece]) ∧
      WsBetween allowRsv1 max m r := by
  rw [wsReceiving_control hop]
  exact ⟨_, rfl, h.alive, rfl, rfl, h.allow, h.cap, h.isOpen, h.message⟩

/-- The event of a complete message. -/
def wsMessageEvent (w : WsMessage) : WsEvent :=
  { kind := .message, op := w.op, data := w.payload, compressed := w.compressed }

/-- A data frame extends the message, and ends it if it is the last. -/
theorem dataFrame_end (h : WsBetween allowRsv1 max m p)
    (hl : wsHeaderLegal allowRsv1 m.isSome fin rsv1 op plen = true) (hop : op.isControl = false)
    (piece : Str8) (hfit : (wsExtend m op rsv1 piece).payload.length ≤ max) :
    ∃ r, wsEndFrame (wsAbsorb (wsReceiving p fin rsv1 op plen) piece) =
        (r, if fin then [wsMessageEvent (wsExtend m op rsv1 piece)] else []) ∧
      WsBetween allowRsv1 max (if fin then none else some (wsExtend m op rsv1 piece)) r := by
  obtain ⟨w, hext, -, hrec⟩ := wsReceiving_data h hl hop
  rw [hext] at hfit
  rw [hrec, hext]
  cases fin with
  | true => exact ⟨_, rfl, h.alive, rfl, rfl, h.allow, h.cap, rfl, fun v hv => by cases hv⟩
  | false =>
    refine ⟨_, rfl, h.alive, rfl, rfl, h.allow, h.cap, rfl, fun v hv => ?_⟩
    cases hv
    exact ⟨rfl, rfl, rfl, hfit⟩

theorem not_wsOverflows_control (hop : op.isControl = true) (piece : Str8) :
    ¬ WsOverflows (wsReceiving p fin rsv1 op plen) piece := by
  rw [wsReceiving_control hop]
  intro ho
  cases ho.1

theorem wsOverflows_data (h : WsBetween allowRsv1 max m p)
    (hl : wsHeaderLegal allowRsv1 m.isSome fin rsv1 op plen = true) (hop : op.isControl = false)
    (piece : Str8) :
    WsOverflows (wsReceiving p fin rsv1 op plen) piece ↔
      max < (wsExtend m op rsv1 piece).payload.length := by
  obtain ⟨w, hext, -, hrec⟩ := wsReceiving_data h hl hop
  rw [hrec, hext]
  simp [WsOverflows, h.cap]

/-- Neither kind of frame is past the cap before its payload. -/
theorem not_wsOverflows_nil (h : WsBetween allowRsv1 max m p)
    (hl : wsHeaderLegal allowRsv1 m.isSome fin rsv1 op plen = true) :
    ¬ WsOverflows (wsReceiving p fin rsv1 op plen) [] := by
  cases hop : op.isControl with
  | true => exact not_wsOverflows_control hop []
  | false =>
    obtain ⟨w, hext, hlen, -⟩ := wsReceiving_data h hl hop
    rw [wsOverflows_data h hl hop, hext]
    simp only [List.append_nil]
    omega

/-- **The byte-wise parser decodes the stream.** Started between two frames it emits the decoder's events,
    and it is dead exactly when the decoder found a violation. -/
theorem wsByteStep_decodes (n : Nat) :
    ∀ (m : Option WsMessage) (p : WsParser) (bs : Str8), bs.length < n → WsBetween allowRsv1 max m p →
      (Feed.run wsByteStep p bs).2 = (wsDecode allowRsv1 max m bs).1 ∧
      (Feed.run wsByteStep p bs).1.dead = (wsDecode allowRsv1 max m bs).2 := by
  -- induction on a bound for the length: the decoder goes on behind the first frame
  induction n with
  | zero => intro m p bs hlt; exact absurd hlt (Nat.not_lt_zero _)
  | succ n ih =>
    intro m p bs hlt h
    have hhead := run_header h bs
    rw [wsDecode]
    split
    · next heq =>
        rw [heq] at hhead
        obtain ⟨q, hrun, hq⟩ := hhead
        rw [hrun]
        exact ⟨rfl, hq⟩
    · next heq =>
        rw [heq] at hhead
        obtain ⟨q, hrun, hq⟩ := hhead
        rw [hrun]
        exact ⟨rfl, hq⟩
    · next fin rsv1 op plen body heq =>
        rw [heq] at hhead
        obtain ⟨hl, p', h', hrun⟩ := hhead
        have hshorter : (body.drop plen).length < n := by
          have := wsHead_frame_length heq
          rw [List.length_drop]
          omega
        have hpay := run_payload (by rw [wsReceiving_dead]; exact h'.alive) rfl
          (not_wsOverflows_nil h' hl) body
        rw [wsReceiving_payloadRemaining, ← hrun] at hpay
        rw [hpay.1, Bool.eq_iff_iff.mpr hpay.dead_iff]
        rw [rfcControl_eq hl]
        cases hop : op.isControl with
        | true =>
          rw [if_neg (not_wsOverflows_control hop _), if_pos rfl]
          dsimp only
          by_cases hshort : body.length < plen
          · rw [if_pos hshort, if_pos hshort]
            exact ⟨rfl, by rw [wsAbsorb_dead, wsReceiving_dead]; exact h'.alive⟩
          · rw [if_neg hshort, if_neg hshort]
            obtain ⟨r, hend, hr⟩ := controlFrame_end h' fin rsv1 plen hop (body.take plen)
            obtain ⟨hev, hdead⟩ := ih m r (body.drop plen) hshorter hr
            rw [hend]
            exact ⟨congrArg (wsControlEvent op (body.take plen) :: ·) hev, hdead⟩
        | false =>
          rw [if_neg (show ¬ false = true by simp)]
          dsimp only
          simp only [wsOverflows_data h' hl hop]
          by_cases hover : max < (wsExtend m op rsv1 (body.take plen)).payload.length
          · rw [if_pos hover, if_pos hover]
            exact ⟨rfl, rfl⟩
          · rw [if_neg hover, if_neg hover]
            by_cases hshort : body.length < plen
            · rw [if_pos hshort, if_pos hshort]
              exact ⟨rfl, by rw [wsAbsorb_dead, wsReceiving_dead]; exact h'.alive⟩
            · rw [if_neg hshort, if_neg hshort]
              obtain ⟨r, hend, hr⟩ := dataFrame_end h' hl hop (body.take plen) (by omega)
              obtain ⟨hev, hdead⟩ := ih _ r (body.drop plen) hshorter hr
              rw [hend]
              cases fin with
              | true => exact ⟨congrArg (wsMessageEvent _ :: ·) hev, hdead⟩
              | false => exact ⟨hev, hdead⟩

/-- A parser as a connection sets it up: `max_message`, and RSV1 allowed if the extension was negotiated. -/
def wsParserSetup (allowRsv1 : Bool) (maxMessage : Nat) : WsParser :=
  if allowRsv1 then wsParserAllowCompression (wsParserInit maxMessage) else wsParserInit maxMessage

theorem wsBetween_setup (allowRsv1 : Bool) (maxMessage : Nat) :
    WsBetween allowRsv1 (wsParserInit maxMessage).maxMessage none (wsParserSetup allowRsv1 maxMessage) := by
  cases allowRsv1 with
  | false => exact wsBetween_init maxMessage
  | true => exact wsBetween_allowCompression (wsBetween_init maxMessage)

theorem wsParserFeed_decodes (allowRsv1 : Bool) (maxMessage : Nat) (chunks : List Str8) :
    (Feed.run wsParserFeed (wsParserSetup allowRsv1 maxMessage) chunks).2 =
      (wsDecode allowRsv1 (wsParserInit maxMessage).maxMessage none chunks.flatten).1 ∧
    (Feed.run wsParserFeed (wsParserSetup allowRsv1 maxMessage) chunks).1.dead =
      (wsDecode allowRsv1 (wsParserInit maxMessage).maxMessage none chunks.flatten).2 := by
  have hbetween := wsBetween_setup allowRsv1 maxMessage
  have hexpects : WsExpects (wsParserSetup allowRsv1 maxMessage) := by
    intro hin
    rw [hbetween.noPayload] at hin
    cases hin
  have hagree := wsParserFeed_chunks_agree hexpects chunks
  have hdecodes := wsByteStep_decodes (chunks.flatten.length + 1) none _ chunks.flatten (Nat.lt_succ_self _)
    hbetween
  refine ⟨hagree.1.trans hdecodes.1, ?_⟩
  rw [← hdecodes.2, Bool.eq_iff_iff]
  exact hagree.dead_iff

/-- **The incremental parser is the whole-stream decoder.** However a stream is cut into feeds, the parser
    delivers the events of decoding it frame by frame, and it is dead afterwards exactly when the stream
    contains a violation. -/
theorem wsParserFeed_eq_decode (allowRsv1 : Bool) (maxMessage : Nat) (chunks : List Str8) :
    let fed := Feed.run wsParserFeed (wsParserSetup allowRsv1 maxMessage) chunks
    let decoded := wsDecode allowRsv1 (if maxMessage = 0 then 64 * 2 ^ 20 else maxMessage) none
      chunks.flatten
    fed.2 = decoded.1 ∧ fed.1.dead = decoded.2 := by
  intro fed decoded
  have hmax : (wsParserInit maxMessage).maxMessage = if maxMessage = 0 then 64 * 2 ^ 20 else maxMessage := by
    simp [wsParserInit]
  have hdecodes := wsParserFeed_decodes allowRsv1 maxMessage chunks
  rw [hmax] at hdecodes
  exact hdecodes

end HolyTls

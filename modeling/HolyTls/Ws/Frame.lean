import HolyTls.Base.Str8
import HolyTls.Lib.Feed

/-!
# `Ws.Frame` — the incremental WebSocket parser (`src/ws/ws_frame.c`)

`WsParser` keeps the fields of the source; a buffer and its length (`hdr`/`hdr_have`, `ctrl`/`ctrl_len`,
`msg`/`msg_len`) are one list. Growing the reassembly buffer is assumed to succeed. The other fields of a
dead parser are never read again, so where the source stops half-way through a header only `dead` is set.

`wsParserFeed` follows the loop of `ws_parser_feed`: one header byte at a time, payload in pieces as large
as the chunk allows.
-/

namespace HolyTls

/-- `WsOpcode`; the values the enumeration does not name are `reserved`. -/
inductive WsOpcode
  | continuation
  | text
  | binary
  | close
  | ping
  | pong
  | reserved (nibble : UInt8)
deriving DecidableEq, Repr

/-- The opcode in the low nibble of the first header byte. -/
def wsOpcodeOf (b0 : UInt8) : WsOpcode :=
  match (b0 &&& 0x0f).toNat with
  | 0 => .continuation
  | 1 => .text
  | 2 => .binary
  | 8 => .close
  | 9 => .ping
  | 10 => .pong
  | _ => .reserved (b0 &&& 0x0f)

/-- `op & 0x8`: the control opcodes, the reserved ones among them included. -/
def WsOpcode.isControl : WsOpcode → Bool
  | .close => true
  | .ping => true
  | .pong => true
  | .reserved n => n &&& 0x08 != 0
  | _ => false

/-- `WsEventKind`. -/
inductive WsEventKind
  | message
  | ping
  | pong
  | close
deriving DecidableEq, Repr

/-- `WsEvent`. -/
structure WsEvent where
  kind : WsEventKind
  op : WsOpcode
  data : Str8
  closeCode : Nat := 0
  compressed : Bool := false
deriving DecidableEq, Repr

/-- `WsParser`. -/
structure WsParser where
  hdr : Str8 := []
  hdrNeed : Nat := 0
  inPayload : Bool := false
  curFin : Bool := false
  curOp : WsOpcode := .continuation
  curControl : Bool := false
  payloadRemaining : Nat := 0
  allowRsv1 : Bool := false
  msgRsv1 : Bool := false
  msg : Str8 := []
  msgOp : WsOpcode := .continuation
  inMessage : Bool := false
  maxMessage : Nat
  ctrl : Str8 := []
  dead : Bool := false
deriving DecidableEq, Repr

/-- `ws_parser_init`: a limit of 0 means 64 MiB. -/
def wsParserInit (maxMessage : Nat) : WsParser :=
  { maxMessage := if maxMessage == 0 then 64 * 2 ^ 20 else maxMessage }

/-- `ws_parser_allow_compression`. -/
def wsParserAllowCompression (p : WsParser) : WsParser := { p with allowRsv1 := true }

/-- `ws_fail`. -/
def wsFail (p : WsParser) : WsParser := { p with dead := true }

/-- `ws_msg_append`: `none` when the message would pass the cap. -/
def wsMsgAppend (p : WsParser) (d : Str8) : Option WsParser :=
  if d.isEmpty then some p
  else if p.msg.length + d.length > p.maxMessage then none
  else some { p with msg := p.msg ++ d }

/-- A big-endian number. -/
def wsBigEndian (bs : Str8) : Nat := bs.foldl (fun acc b => acc * 256 + b.toNat) 0

/-- The length field: seven bits, or the two or eight bytes that follow them. -/
def wsPayloadLength (b1 : UInt8) (ext : Str8) : Nat :=
  let l7 := (b1 &&& 0x7f).toNat
  if l7 < 126 then l7 else wsBigEndian ext

/-- The number of length bytes behind the second header byte. -/
def wsExtLength (b1 : UInt8) : Nat :=
  let l7 := (b1 &&& 0x7f).toNat
  if l7 == 126 then 2 else if l7 == 127 then 8 else 0

/-- `ws_begin_frame`: a complete header is in `hdr`. `none` on a protocol violation. -/
def wsBeginFrame (p : WsParser) : Option WsParser :=
  let b0 := p.hdr.getD 0 0
  let b1 := p.hdr.getD 1 0
  let fin := b0 &&& 0x80 != 0
  let op := wsOpcodeOf b0
  let rsv1 := b0 &&& 0x40 != 0
  let plen := wsPayloadLength b1 (p.hdr.drop 2)
  let p := { p with curFin := fin, curOp := op, payloadRemaining := plen }
  if rsv1 && !p.allowRsv1 then none
  else if op.isControl then
    if !fin || plen > 125 then none
    else if rsv1 then none
    else if op != .close && op != .ping && op != .pong then none
    else some { p with curControl := true, ctrl := [] }
  else if op != .text && op != .binary && op != .continuation then none
  else
    let p := { p with curControl := false }
    if op == .continuation then
      if !p.inMessage then none
      else if rsv1 then none
      else some p
    else if p.inMessage then none
    else some { p with inMessage := true, msgOp := op, msgRsv1 := rsv1, msg := [] }

/-- The event of a complete control frame. A close frame may start with a status code. -/
def wsControlEvent (op : WsOpcode) (ctrl : Str8) : WsEvent :=
  match op with
  | .ping => { kind := .ping, op := op, data := ctrl }
  | .pong => { kind := .pong, op := op, data := ctrl }
  | _ =>
    if ctrl.length ≥ 2 then
      { kind := .close, op := op, data := ctrl.drop 2, closeCode := wsBigEndian (ctrl.take 2) }
    else { kind := .close, op := op, data := [] }

/-- `ws_frame_done`: the payload of the current frame is complete. -/
def wsFrameDone (p : WsParser) : WsParser × List WsEvent :=
  if p.curControl then ({ p with curControl := false }, [wsControlEvent p.curOp p.ctrl])
  else if p.curFin then
    ({ p with inMessage := false, msg := [] },
      [{ kind := .message, op := p.msgOp, data := p.msg, compressed := p.msgRsv1 }])
  else (p, [])

/-- The end of a frame, as the loop reacts to it. -/
def wsEndFrame (p : WsParser) : WsParser × List WsEvent :=
  ({ (wsFrameDone p).1 with inPayload := false }, (wsFrameDone p).2)

/-- The test of the loop after a header and after each piece of payload: is the frame complete? -/
def wsCheckDone (p : WsParser) : WsParser × List WsEvent :=
  if p.payloadRemaining = 0 then wsEndFrame p else (p, [])

/-- The header in `hdr` is complete: start the payload. A frame without payload completes at once. -/
def wsHeaderDone (p : WsParser) : WsParser × List WsEvent :=
  match wsBeginFrame p with
  | none => (wsFail p, [])
  | some p => wsCheckDone { p with hdr := [], inPayload := true }

/-- The second header byte is there, and it or the first one is illegal: a masked frame, RSV2 or RSV3. -/
def wsHeaderIllegal (p : WsParser) : Bool :=
  p.hdr.length == 2 && ((p.hdr.getD 1 0) &&& 0x80 != 0 || (p.hdr.getD 0 0) &&& 0x30 != 0)

/-- The second header byte tells how long the header is. -/
def wsSetHdrNeed (p : WsParser) : WsParser :=
  if p.hdr.length == 2 then { p with hdrNeed := 2 + wsExtLength (p.hdr.getD 1 0) } else p

/-- One header byte. -/
def wsHeaderByte (p : WsParser) (b : UInt8) : WsParser × List WsEvent :=
  let p := { p with hdr := p.hdr ++ [b] }
  if wsHeaderIllegal p then (wsFail p, [])
  else
    let p := wsSetHdrNeed p
    if p.hdr.length ≥ 2 && p.hdr.length == p.hdrNeed then wsHeaderDone p else (p, [])

/-- A piece of payload, no longer than what remains of the frame. -/
def wsPayloadPiece (p : WsParser) (piece : Str8) : WsParser × List WsEvent :=
  match (if p.curControl then some { p with ctrl := p.ctrl ++ piece } else wsMsgAppend p piece) with
  | none => (wsFail p, [])
  | some p => wsCheckDone { p with payloadRemaining := p.payloadRemaining - piece.length }

/-- The loop of `ws_parser_feed`; `fuel` bounds its rounds. -/
def wsFeedLoop : Nat → WsParser → Str8 → WsParser × List WsEvent
  | 0, p, _ => (p, [])
  | _, p, [] => (p, [])
  | fuel + 1, p, b :: rest =>
    if p.dead then (p, [])  -- `ws_fail` returned from the function
    else if !p.inPayload then
      Feed.andThen (wsHeaderByte p b) (fun p => wsFeedLoop fuel p rest)
    else
      let take := min (b :: rest).length p.payloadRemaining
      Feed.andThen (wsPayloadPiece p ((b :: rest).take take))
        (fun p => wsFeedLoop fuel p ((b :: rest).drop take))

/-- `ws_parser_feed`: the parser and events after a chunk. -/
def wsParserFeed (p : WsParser) (data : Str8) : WsParser × List WsEvent :=
  if p.dead then (p, []) else wsFeedLoop (data.length + 1) p data

end HolyTls

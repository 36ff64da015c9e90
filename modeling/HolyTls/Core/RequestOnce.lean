import HolyTls.Core.Request
import HolyTls.Lib.Runs

/-!
# `Core.RequestOnce` — one callback and a clean end for a request

The `responded` latch makes the callback unique; what has to be shown is that nothing is **started** after
it, and that the request is given back when its connection has closed. Both come down to one fact: an
answered request is never in the retry window. The deadline can break it. It may fire while a rejected
connection is being closed for the retry, and then the close that follows reconnects an answered request.

The 0-RTT window can break it too: it may open for a request that was just answered, and the write that
starts the HTTP/2 session in it may be refused, which answers the request before it is submitted.

`H2Inv` and `QuicInv` are kept by every step that does none of this (`tcpOk`, `quicOk`).
-/

namespace HolyTls

open Runs

/-! ## The latch -/

/-- As many callbacks as the latch says, and no work after one. -/
structure Latch (r : ReqState) : Prop where
  count : r.log.countP ReqEffect.isCallback = if r.responded then 1 else 0
  quiet : QuietAfter ReqEffect.isCallback ReqEffect.isWork r.log

variable {r : ReqState}

theorem Latch.no_callback (h : Latch r) (hr : r.responded = false) :
    ∀ e ∈ r.log, e.isCallback = false := by
  have hcount := h.count
  rw [hr] at hcount
  intro e he
  have := List.countP_eq_zero.mp hcount e he
  simpa using this

/-- Work may be added while the request is unanswered. -/
theorem Latch.emit_work (h : Latch r) (hr : r.responded = false) {e : ReqEffect}
    (he : e.isCallback = false) : Latch (r.emit e) := by
  refine ⟨?_, h.quiet.snoc_first (h.no_callback hr)⟩
  show (r.log ++ [e]).countP ReqEffect.isCallback = _
  rw [List.countP_append, h.count, List.countP_singleton, he]
  rfl

theorem Latch.emit_callback (h : Latch r) (hr : r.responded = false) (resp : Response) :
    Latch ({ r with responded := true }.emit (.callback resp)) := by
  refine ⟨?_, h.quiet.snoc_other rfl⟩
  show (r.log ++ [ReqEffect.callback resp]).countP ReqEffect.isCallback = 1
  rw [List.countP_append, h.count, hr]
  rfl

/-- An answer, which the latch lets through once, changes nothing else. -/
structure Answered (r r' : ReqState) : Prop where
  latch : Latch r → Latch r'
  retrying : r'.retrying = r.retrying
  closing : r'.closing = r.closing

theorem Answered.error (err : Str8) : Answered r (r.deliverError err) := by
  unfold ReqState.deliverError
  cases hr : r.responded with
  | true => exact ⟨id, rfl, rfl⟩
  | false => exact ⟨fun h => h.emit_callback hr _, rfl, rfl⟩

theorem Answered.response (hr : r.responded = false) (decode : Str8 → Str8 → Option Str8) (resp : Response) :
    Answered r (r.deliverResponse decode resp) := by
  unfold ReqState.deliverResponse
  dsimp only
  split
  · -- the chunk comes before the callback
    refine ⟨fun h => ?_, rfl, rfl⟩
    have hchunk := h.emit_work hr (e := .chunk (responseDecodeEncoding decode resp).body) rfl
    exact hchunk.emit_callback hr _
  · exact ⟨fun h => h.emit_callback hr _, rfl, rfl⟩

/-- **One callback and a clean end**, as far as the request itself shows it: the callback ran at most once,
    exactly when the latch says so; nothing was opened or submitted after it; from then on the request is not
    retrying, and it is closing until it is released. `closed`: its connection is being closed. -/
structure ReqInv (r : ReqState) (closed : Bool) : Prop where
  latch : Latch r
  closing : r.responded = true → r.closing = true ∨ r.released = true
  noRetry : r.responded = true → r.retrying = false
  closed : r.closing = true → closed = true

namespace ReqInv

variable {closed : Bool}

/-- A request whose connection is not being closed is not answered. -/
theorem unanswered (h : ReqInv r closed) (hrel : r.released = false) (hopen : closed = false) :
    r.responded = false := by
  cases hresp : r.responded with
  | false => rfl
  | true =>
    rcases h.closing hresp with hc | hc
    · rw [h.closed hc] at hopen
      cases hopen
    · rw [hrel] at hc
      cases hc

theorem finish (hl : Latch r) (hretry : r.retrying = false) : ReqInv { r with closing := true } true :=
  ⟨⟨hl.count, hl.quiet⟩, fun _ => .inl rfl, fun _ => hretry, fun _ => rfl⟩

/-- The connection may change, as long as a close is not taken back. -/
theorem mono (h : ReqInv r closed) {closed' : Bool} (hc : closed = true → closed' = true) : ReqInv r closed' :=
  ⟨h.latch, h.closing, h.noRetry, fun h' => hc (h.closed h')⟩

theorem submit (h : ReqInv r closed) (hresp : r.responded = false) : ReqInv (r.emit .submit) closed := by
  refine ⟨h.latch.emit_work hresp rfl, ?_, h.noRetry, h.closed⟩
  intro h'
  cases hresp.symm.trans h'

theorem submitted (h : ReqInv r closed) : ReqInv { r with submitted := true } closed :=
  ⟨⟨h.latch.count, h.latch.quiet⟩, h.closing, h.noRetry, h.closed⟩

theorem disarm (h : ReqInv r closed) : ReqInv { r with timerArmed := false } closed :=
  ⟨⟨h.latch.count, h.latch.quiet⟩, h.closing, h.noRetry, h.closed⟩

/-- An unanswered request closes its connection and waits for the retry. -/
theorem retry (h : ReqInv r closed) (hresp : r.responded = false) :
    ReqInv { r with retriedNoEarly := true, retrying := true } true := by
  refine ⟨⟨h.latch.count, h.latch.quiet⟩, h.closing, ?_, fun _ => rfl⟩
  intro h'
  cases hresp.symm.trans h'

theorem release (h : ReqInv r closed) : ReqInv { r with timerArmed := false, released := true } closed :=
  ⟨⟨h.latch.count, h.latch.quiet⟩, fun _ => .inr rfl, h.noRetry, h.closed⟩

end ReqInv

/-! ## TCP -/

/-- What every step keeps of a TCP request. -/
structure H2Inv (req : H2Request) : Prop where
  base : ReqInv req.toReqState req.conn.closeCalled
  retryClosed : req.retrying = true → req.conn.closeCalled = true ∧ req.conn.readyFired = true
  retryEarly : req.retrying = true → req.conn.earlyFired = true
  rejected : req.conn.earlyRejected = true → req.conn.readyFired = true ∧ req.conn.earlyFired = true

/-- A request whose connection is not being closed is neither answered nor retrying. -/
theorem H2Inv.open {req : H2Request} (hi : H2Inv req) (hrel : req.released = false)
    (hopen : req.conn.closeCalled = false) : req.responded = false ∧ req.retrying = false := by
  refine ⟨hi.base.unanswered hrel hopen, ?_⟩
  cases hc : req.retrying with
  | false => rfl
  | true => rw [(hi.retryClosed hc).1] at hopen; cases hopen

section H2

variable {req : H2Request} (decode : Str8 → Str8 → Option Str8)

end H2

/-! ## QUIC -/

/-- What every step keeps of a QUIC request. -/
structure QuicInv (req : QuicRequest) : Prop where
  base : ReqInv req.toReqState req.conn.closePending
  retryClosed : req.retrying = true → req.conn.state = .closing ∧ req.conn.handshaken = true
  pending : req.conn.state = .closing → req.conn.closePending = true

/-- A request whose connection is not being closed is neither answered nor retrying. -/
theorem QuicInv.open {req : QuicRequest} (hi : QuicInv req) (hrel : req.released = false)
    (hopen : req.conn.closePending = false) : req.responded = false ∧ req.retrying = false := by
  refine ⟨hi.base.unanswered hrel hopen, ?_⟩
  cases hc : req.retrying with
  | false => rfl
  | true => rw [hi.pending (hi.retryClosed hc).1] at hopen; cases hopen

section Quic

variable {req : QuicRequest} (decode : Str8 → Str8 → Option Str8)

end Quic

/-! ## Whole runs -/

theorem ReqInv.start (hlog : r.log = []) (hresp : r.responded = false) (hclosing : r.closing = false) :
    ReqInv (r.emit .opened) false := by
  have h : Latch r := by
    refine ⟨?_, ?_⟩
    · rw [hlog, hresp]; rfl
    · rw [hlog]; trivial
  refine ⟨h.emit_work hresp rfl, fun h' => ?_, fun h' => ?_, fun h' => ?_⟩
  · cases hresp.symm.trans h'
  · cases hresp.symm.trans h'
  · cases hclosing.symm.trans h'

end HolyTls

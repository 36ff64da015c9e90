import HolyTls.Core.Header

/-!
# `Core.Request` — a request on a connection of its own (`src/core/client.c`)

`H2Request` (HTTP/2 or HTTP/1.1 over TCP) and `QuicRequest` (HTTP/3) drive one request each. They are
driven by callbacks of their connection, by the response callback of the protocol session and by a one-shot
deadline. A request that went out as 0-RTT data and was rejected closes its connection and reconnects once,
without early data, when the old connection has closed completely.

The connection is modelled as far as it decides **which callback can come when** (`src/net/connection.c`,
`src/net/quic_connection.c`). `tcpEnabled` and `quicEnabled` are those rules, an event is one callback with
what the libraries underneath answer during it, and a handler is the code the callback runs. What a connect
reports before it returns is an event of its own here: connecting is the last thing its caller does.

The `log` of a request records what it shows to the outside: connections opened, requests handed to a
session, chunks and callbacks given to the user.
-/

namespace HolyTls

/-- What a request shows to the outside. -/
inductive ReqEffect
  | opened
  | submit
  | chunk (bytes : Str8)
  | callback (resp : Response)
deriving DecidableEq

namespace ReqEffect

def isCallback : ReqEffect → Bool
  | callback _ => true
  | _ => false

/-- Work for the request: a connection is opened, or it is handed to a session. -/
def isWork : ReqEffect → Bool
  | opened => true
  | submit => true
  | _ => false

end ReqEffect

/-- The fields that `H2Request` and `QuicRequest` share. `timerArmed` is the deadline timer, `released` is
    the recycled arena. -/
structure ReqState where
  responded : Bool := false
  closing : Bool := false
  submitted : Bool := false
  retrying : Bool := false
  retriedNoEarly : Bool := false
  onChunk : Bool := false
  timerArmed : Bool := false
  released : Bool := false
  log : List ReqEffect := []
deriving DecidableEq

/-- Record an effect. -/
def ReqState.emit (r : ReqState) (e : ReqEffect) : ReqState := { r with log := r.log ++ [e] }

/-- `client_deliver_error` behind the `responded` latch: `h2req_deliver_error`, `quicreq_deliver_error`. -/
def ReqState.deliverError (r : ReqState) (err : Str8) : ReqState :=
  if r.responded then r
  else { r with responded := true }.emit (.callback { ok := false, error := err })

/-- `response_decode_encoding`. `decode` is `decode_content` on a coding and a body. -/
def responseDecodeEncoding (decode : Str8 → Str8 → Option Str8) (resp : Response) : Response :=
  match (headerListGetCi resp.headers (lit "content-encoding")).filter (fun ce => !ce.isEmpty) with
  | none => resp
  | some ce =>
    match decode ce resp.body with
    | none => resp
    | some body =>
      { resp with
        body := body
        headers := resp.headers.filter (fun h =>
          !str8MatchCi h.name (lit "content-encoding") && !str8MatchCi h.name (lit "content-length")) }

/-- The part of `tcp_deliver` and `quicreq_on_response` between the latch and the finish: decode the body,
    hand it to the sink if there is one, run the callback. -/
def ReqState.deliverResponse (decode : Str8 → Str8 → Option Str8) (r : ReqState) (resp : Response) :
    ReqState :=
  let resp := responseDecodeEncoding decode resp
  let r := { r with responded := true }
  if r.onChunk && !resp.body.isEmpty then
    (r.emit (.chunk resp.body)).emit (.callback { resp with body := [] })
  else r.emit (.callback resp)

/-! ## The TCP connection -/

/-- `ConnState`; the states before the 0-RTT window or the end of the handshake are one. -/
inductive ConnState
  | opening
  | earlyData
  | established
  | closing
  | failed
deriving DecidableEq

/-- What decides about a `Connection`'s callbacks. `handshaken` is `pump.established`, `closeCalled` is
    `uv_is_closing`. -/
structure Connection where
  state : ConnState := .opening
  readyFired : Bool := false
  earlyFired : Bool := false
  earlyRejected : Bool := false
  wantEarlyData : Bool := false
  handshaken : Bool := false
  closeCalled : Bool := false
deriving DecidableEq

/-- `conn_close`. -/
def connClose (c : Connection) : Connection := { c with state := .closing, closeCalled := true }

/-! ## `H2Request` -/

inductive Session
  | h2
  | h1
deriving DecidableEq

/-- `H2Request`. `earlyOk`: the client may offer 0-RTT for it (resumption and early data are on, the method
    is GET or HEAD, there is no body, and a session is cached). -/
structure H2Request extends ReqState where
  conn : Connection := {}
  session : Option Session := none
  earlyOk : Bool := false
deriving DecidableEq

/-- What can happen inside a submit: the connection fails in a send, or a response is reported (of a stream
    that was refused at once). -/
inductive SubmitEvent
  | failed (err : Str8)
  | response (resp : Response)

def SubmitEvent.isFailure : SubmitEvent → Bool
  | failed _ => true
  | response _ => false

/-- What the session answers while `h2req_send_request` runs: the negotiated protocol, whether the session
    could be allocated, whether a write of `h2_session_start` was refused and whether it succeeded, what
    happened inside the submit and whether that succeeded. -/
structure SendOutcome where
  alpnH2 : Bool := true
  allocated : Bool := true
  startErr : Option Str8 := none
  started : Bool := true
  during : List SubmitEvent := []
  submitOk : Bool := true

/-- One round of `h2req_drain`: the responses reported by `h2_session_recv` or `h1_session_recv`, and
    whether it succeeded. -/
structure Recv where
  responses : List Response := []
  ok : Bool := true

section H2

variable (decode : Str8 → Str8 → Option Str8)

/-- `h2req_finish`. -/
def h2reqFinish (req : H2Request) : H2Request :=
  if req.closing then req else { req with closing := true, conn := connClose req.conn }

/-- `h2req_deliver_error`. -/
def h2reqDeliverError (req : H2Request) (err : Str8) : H2Request :=
  { req with toReqState := req.deliverError err }

/-- `h2req_deliver_error` and `h2req_finish`, which always come together. -/
def h2reqFail (req : H2Request) (err : Str8) : H2Request := h2reqFinish (h2reqDeliverError req err)

/-- `tcp_deliver` (`h2req_on_response`, `h1req_on_response`). -/
def tcpDeliver (req : H2Request) (resp : Response) : H2Request :=
  if req.responded then req
  else h2reqFinish { req with toReqState := req.deliverResponse decode resp }

/-- `h2req_on_ready` with `ok = 0`. -/
def h2reqOnReadyFailed (req : H2Request) (err : Option Str8) : H2Request :=
  if req.conn.earlyRejected && !req.retriedNoEarly then
    { req with retriedNoEarly := true, retrying := true, conn := connClose req.conn }
  else h2reqFail req (err.getD (lit "connect failed"))

/-- `conn_fail`: `on_ready` reports it, unless it has fired before. -/
def h2reqConnFail (req : H2Request) (err : Str8) : H2Request :=
  if req.conn.readyFired then { req with conn := { req.conn with state := .failed } }
  else h2reqOnReadyFailed { req with conn := { req.conn with state := .failed, readyFired := true } } (some err)

/-- One thing that happens inside a submit. -/
def h2reqInner (req : H2Request) : SubmitEvent → H2Request
  | .failed err => h2reqConnFail req err
  | .response resp => tcpDeliver decode req resp

/-- The first half of `h2req_send_request`: the session is allocated and, for HTTP/2, started. In the 0-RTT
    window a write that is refused here is reported before the submit. -/
def h2reqStartSession (req : H2Request) (o : SendOutcome) : H2Request :=
  let req := { req with
    session := if o.allocated then some (if o.alpnH2 then .h2 else .h1) else none }
  if o.alpnH2 && o.allocated then o.startErr.elim req (h2reqConnFail req) else req

/-- `h2req_send_request`, and whether it succeeded. -/
def h2reqSendRequest (req : H2Request) (o : SendOutcome) : H2Request × Bool :=
  let req := h2reqStartSession req o
  if !o.allocated || (o.alpnH2 && !o.started) then
    (h2reqFail req (if o.alpnH2 then lit "h2 session init failed" else lit "h1 session init failed"), false)
  else
    let req := o.during.foldl (h2reqInner decode) { req with toReqState := req.emit .submit }
    if !o.submitOk then (h2reqFail req (lit "submit failed"), false)
    else ({ req with submitted := true }, true)

/-- The loop of `h2req_drain`. -/
def h2reqDrainLoop (req : H2Request) : List Recv → H2Request
  | [] => req
  | rd :: rds =>
    match req.session with
    | none => req
    | some s =>
      let req := rd.responses.foldl (tcpDeliver decode) req
      if !rd.ok then
        h2reqFail req (if s = .h2 then lit "h2 protocol error" else lit "h1 parse error")
      else if req.closing then req
      else h2reqDrainLoop req rds

/-- `h2req_drain`. -/
def h2reqDrain (req : H2Request) (rds : List Recv) : H2Request :=
  if req.closing then req else h2reqDrainLoop decode req rds

/-- `h2req_on_ready` with `ok = 1`. -/
def h2reqOnReady (req : H2Request) (o : SendOutcome) (rds : List Recv) : H2Request :=
  if req.submitted then h2reqDrain decode req rds
  else
    let sent := h2reqSendRequest decode req o
    if sent.2 then h2reqDrain decode sent.1 rds else sent.1

/-- `h2req_on_timeout`. -/
def h2reqOnTimeout (req : H2Request) : H2Request := h2reqFail req (lit "timeout")

/-- `h2req_on_closed`; `eof` is what `h1_session_eof` delivers. -/
def h2reqOnClosed (req : H2Request) (err : Option Str8) (eof : List Response) : H2Request :=
  let req := if req.session = some .h1 && !req.responded then eof.foldl (tcpDeliver decode) req else req
  if req.responded then req else h2reqFail req (err.getD (lit "connection closed"))

/-- `h2req_connect`. -/
def h2reqConnect (req : H2Request) (allowEarly : Bool) : H2Request :=
  { req with toReqState := req.emit .opened
             conn := { wantEarlyData := allowEarly && req.earlyOk } }

/-- `h2req_on_fully_closed`. -/
def h2reqOnFullyClosed (req : H2Request) : H2Request :=
  let req := { req with session := none }
  if req.retrying then
    h2reqConnect { req with retrying := false, closing := false, submitted := false } false
  else { req with timerArmed := false, released := true }

/-- `h2req_start` on a URL it accepts. -/
def h2reqStart (onChunk timeout earlyOk : Bool) : H2Request :=
  h2reqConnect { onChunk := onChunk, timerArmed := timeout, earlyOk := earlyOk } true

/-- The callbacks of a TCP request. -/
inductive TcpEvent
  | earlyReady (o : SendOutcome)
  | handshakeDone (o : SendOutcome) (rds : List Recv)
  | earlyRejected
  | failed (err : Str8)
  | readable (rds : List Recv)
  | peerClosed (err : Option Str8) (eof : List Response)
  | timeout
  | fullyClosed

/-- Which callbacks can come. Once `conn_close` was called reading has stopped, and only a resolver or a
    connect that was still under way can report its failure, before the handle is closed. And the 0-RTT
    window may open: `conn_drive_handshake` flushes before it looks at the status of the handshake, so when
    that write is refused, `on_ready` reports the failure, its handler closes the connection, and
    `on_early_ready` comes all the same. -/
def tcpEnabled (req : H2Request) : TcpEvent → Bool
  | .earlyReady _ =>
    req.conn.wantEarlyData && !req.conn.earlyFired && !req.conn.handshaken &&
      (req.conn.readyFired || !req.conn.closeCalled)
  | .handshakeDone _ _ => !req.conn.readyFired && !req.conn.closeCalled
  | .earlyRejected => req.conn.earlyFired && !req.conn.readyFired && !req.conn.closeCalled
  | .failed _ => true
  | .readable _ => req.conn.handshaken && !req.conn.closeCalled
  | .peerClosed _ _ => req.conn.state = .established && !req.conn.closeCalled
  | .timeout => req.timerArmed
  | .fullyClosed => req.conn.closeCalled

/-- What a callback does. -/
def tcpHandle (req : H2Request) : TcpEvent → H2Request
  | .earlyReady o =>
    (h2reqSendRequest decode { req with conn := { req.conn with state := .earlyData, earlyFired := true } }
      o).1
  | .handshakeDone o rds =>
    h2reqOnReady decode
      { req with conn := { req.conn with state := .established, handshaken := true, readyFired := true } }
      o rds
  | .earlyRejected =>
    h2reqConnFail { req with conn := { req.conn with earlyRejected := true } } (lit "early data rejected")
  | .failed err => h2reqConnFail req err
  | .readable rds => h2reqDrain decode req rds
  | .peerClosed err eof =>
    h2reqOnClosed decode { req with conn := { req.conn with state := .closing } } err eof
  | .timeout => h2reqOnTimeout { req with timerArmed := false }
  | .fullyClosed => h2reqOnFullyClosed req

/-- One step of a TCP request. Nothing happens to a request that was released. -/
def tcpStep (req : H2Request) (e : TcpEvent) : Option H2Request :=
  if !req.released && tcpEnabled req e then some (tcpHandle decode req e) else none

end H2

/-! ## The QUIC connection -/

/-- What decides about a `QuicConnection`'s callbacks. `handshaken`: the handshake has completed once;
    `closePending`: `quic_conn_close` has closed the handles and their callbacks are still to come. -/
structure QuicConnection where
  state : ConnState := .opening
  readyFired : Bool := false
  earlyFired : Bool := false
  earlyRejected : Bool := false
  wantEarlyData : Bool := false
  proxied : Bool := false
  handshaken : Bool := false
  closePending : Bool := false
deriving DecidableEq

/-- `QuicRequest`. `earlyOk` as for TCP, with cached transport parameters; `viaSocks`: a SOCKS5 proxy is
    used. -/
structure QuicRequest extends ReqState where
  conn : QuicConnection := {}
  h3 : Bool := false
  earlyOk : Bool := false
  viaSocks : Bool := false
deriving DecidableEq

section Quic

variable (decode : Str8 → Str8 → Option Str8)

end Quic

end HolyTls

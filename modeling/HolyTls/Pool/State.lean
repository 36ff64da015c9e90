import HolyTls.Core.Request
import HolyTls.Core.Url
import HolyTls.H1.Session
import HolyTls.Lib.Prog

/-!
# `Pool.State` — the connection pool's data (`src/core/pool.h`)

Requests and connections are named by numbers, handed out in order; a pointer to one is its number. The
intrusive lists of a connection are lists of requests. The waiting list keeps its tail pointer, which
`pool_waiting_push` goes by.

The code runs as programs (`Lib.Prog`) over the pool. What it asks of its environment is an `Ans`: what the
user's callback does, and how the libraries underneath answer a connect, a submit or a close, including
what they report **before the call returns**. What it does is a `PoolEvent`.
-/

namespace HolyTls

abbrev ReqId := Nat
abbrev ConnId := Nat

/-- `PoolProto`. -/
inductive PoolProto
  | h2
  | h3
  | h1
deriving DecidableEq, Repr

/-- `PoolConnState`. -/
inductive PoolConnState
  | handshaking
  | ready
  | closing
deriving DecidableEq, Repr

def poolMaxConns : Nat := 256
def poolMaxRetries : Nat := 2
def poolDefaultIdleMs : Nat := 5000
def poolH3MaxConcurrent : Nat := 16
def h3MaxStreams : Nat := 16

/-- `PoolReq`. `timerArmed` is the deadline timer, `released` says that `pool_req_done` has run, `legacy`
    that the request was handed to the per-request path. -/
structure PoolReq where
  proto : PoolProto := .h2
  method : Method := .get
  url : Str8 := []
  host : Str8 := []
  port : Nat := 0
  origin : Str8 := []
  pc : Option ConnId := none
  retriesLeft : Nat := poolMaxRetries
  responded : Bool := false
  h1 : Option H1Session := none
  h3StreamId : Nat := 0
  h3Fin : Bool := false
  timerArmed : Bool := false
  released : Bool := false
  legacy : Bool := false

/-- The request still waits for its answer. -/
def PoolReq.unanswered (r : PoolReq) : Bool := !r.responded && !r.legacy

/-! ## The waiting list -/

/-- The nodes reached from `waiting_head`, and `waiting_tail`. -/
structure Waiting where
  nodes : List ReqId := []
  tail : Option ReqId := none
deriving DecidableEq, Repr

namespace Waiting

/-- `t->queue_next = r`, seen from the head of the list. -/
def linkAfter (t r : ReqId) : List ReqId → List ReqId
  | [] => []
  | x :: xs => if x = t then [x, r] else x :: linkAfter t r xs

/-- `pool_waiting_push`. -/
def push (w : Waiting) (r : ReqId) : Waiting :=
  match w.tail with
  | some t => { nodes := linkAfter t r w.nodes, tail := some r }
  | none => { nodes := [r], tail := some r }

/-- `pool_waiting_pop`. -/
def pop (w : Waiting) : Option (ReqId × Waiting) :=
  match w.nodes with
  | [] => none
  | r :: rs => some (r, { nodes := rs, tail := if rs = [] then none else w.tail })

/-- `pool_waiting_remove`. -/
def remove (w : Waiting) (r : ReqId) : Waiting :=
  if r ∈ w.nodes then
    { nodes := w.nodes.erase r
      tail := if w.tail = some r then (w.nodes.takeWhile (· != r)).getLast? else w.tail }
  else w

end Waiting

/-! ## Connections -/

/-- What the pool asks an `H2Session`. -/
structure H2Session where
  goawayReceived : Bool := false
  maxConcurrentStreams : Nat := 100
deriving DecidableEq, Repr

/-- `PoolConn`. `host` and `port` are what the connect was called with, `inRecv` is `h3_conn.in_recv`, and
    `streams` with `nextStream` is the part of `H3Conn` that routes answers. Four fields record what the
    source leaves implicit: `drained`, that the waiting list has been taken over to find its requests
    another connection; `written` and `readBytes`, the requests written to an HTTP/1.1 connection and the
    bytes read from it; `ended`, that nothing more is read from it. -/
structure PoolConn where
  proto : PoolProto := .h2
  origin : Str8 := []
  host : Str8 := []
  port : Nat := 0
  state : PoolConnState := .handshaking
  broken : Bool := false
  inDrain : Bool := false
  inRecv : Bool := false
  idle : Bool := false
  inflight : Nat := 0
  idleSinceMs : Nat := 0
  h2 : Option H2Session := none
  h3c : Bool := false
  controlOpened : Bool := false
  streams : List ReqId := []
  nextStream : Nat := 0
  waiting : Waiting := {}
  active : List ReqId := []
  drained : Bool := false
  written : List ReqId := []
  readBytes : Str8 := []
  ended : Bool := false

/-- `pool_conn_has_capacity`. -/
def poolConnHasCapacity (pc : PoolConn) : Bool :=
  if pc.state ≠ .ready || pc.broken then false
  else
    match pc.proto with
    | .h1 => pc.inflight < 1
    | .h2 =>
      match pc.h2 with
      | none => false
      | some h => if h.goawayReceived then false else pc.inflight < h.maxConcurrentStreams
    | .h3 => pc.h3c && pc.inflight < poolH3MaxConcurrent

/-- `str8_cstring` of `pc->origin`. -/
def PoolConn.originKey (pc : PoolConn) : Str8 := fmtS pc.origin

/-- The pool: requests and connections by number, `conns[]`, and the loop's clock. -/
structure Pool where
  reqs : ReqId → PoolReq
  nreq : Nat
  conn : ConnId → PoolConn
  nconn : Nat
  conns : List ConnId
  now : Nat

/-- `pool_alloc`. -/
def Pool.empty : Pool :=
  { reqs := fun _ => {}, nreq := 0, conn := fun _ => {}, nconn := 0, conns := [], now := 0 }

namespace Pool

/-- Change one request. -/
def updReq (s : Pool) (r : ReqId) (f : PoolReq → PoolReq) : Pool :=
  { s with reqs := Function.update s.reqs r (f (s.reqs r)) }

/-- Change one connection. -/
def updConn (s : Pool) (c : ConnId) (f : PoolConn → PoolConn) : Pool :=
  { s with conn := Function.update s.conn c (f (s.conn c)) }

section

variable (s : Pool) (r : ReqId) (c : ConnId) (f : PoolReq → PoolReq) (g : PoolConn → PoolConn)

@[simp, grind =] theorem updReq_reqs (x : ReqId) :
    (s.updReq r f).reqs x = if x = r then f (s.reqs r) else s.reqs x := by
  simp only [updReq, Function.update_apply]

theorem updReq_self : (s.updReq r f).reqs r = f (s.reqs r) := by rw [updReq_reqs, if_pos rfl]

@[simp, grind =] theorem updReq_conn (x : ConnId) : (s.updReq r f).conn x = s.conn x := rfl

@[simp, grind =] theorem updConn_conn (x : ConnId) :
    (s.updConn c g).conn x = if x = c then g (s.conn c) else s.conn x := by
  simp only [updConn, Function.update_apply]

theorem updConn_part {α : Type} {g : PoolConn → PoolConn} {s : Pool} {c : ConnId} (p : PoolConn → α)
    (h : p (g (s.conn c)) = p (s.conn c)) (x : ConnId) : p ((s.updConn c g).conn x) = p (s.conn x) := by
  rw [updConn_conn]
  split
  · next hx => rw [hx, h]
  · rfl

theorem updConn_updConn (g' : PoolConn → PoolConn) :
    (s.updConn c g).updConn c g' = s.updConn c (fun pc => g' (g pc)) := by
  simp only [updConn, Function.update_self, Function.update_idem]

theorem updConn_congr {g' : PoolConn → PoolConn} (h : g (s.conn c) = g' (s.conn c)) :
    s.updConn c g = s.updConn c g' := by
  unfold updConn
  rw [h]

theorem updConn_eq_self (h : g (s.conn c) = s.conn c) : s.updConn c g = s := by
  unfold updConn
  rw [h, Function.update_eq_self]

@[simp, grind =] theorem updConn_reqs (x : ReqId) : (s.updConn c g).reqs x = s.reqs x := rfl

end

end Pool

/-! ## Answers and events -/

/-- What the user asks for: a request through the pool, or the eviction a runtime proxy switch makes. -/
inductive ClientCall
  | dispatch (proto : PoolProto) (method : Method) (url : Str8) (deadline : Bool)
  | evictAll

/-- `H2Response`, with whether the peer refused the stream, that is, did not process the request. -/
structure H2Response where
  status : Nat := 0
  headers : HeaderList := []
  body : Str8 := []
  ok : Bool := true
  refused : Bool := false

/-- The frames received on an HTTP/3 request stream, decoded. -/
structure H3Response where
  status : Nat := 0
  headers : HeaderList := []
  body : Str8 := []

/-- How ngtcp2 and QPACK answer inside `pool_h3_submit`: whether the streams open, whether a send on the
    control streams or on the request stream fails the connection, whether the encoding succeeds. -/
structure H3Submit where
  bidi : Bool := true
  uni : Bool := true
  ctrlFail : Option Str8 := none
  encode : Bool := true
  sendFail : Option Str8 := none

/-- The environment's answers.
    - `calls`: what the user does inside a response callback.
    - `connect`: the failure that `conn_connect` or `quic_conn_connect` reports before it returns, if any.
    - `quicClose`: `quic_conn_close` finds no handle open and reports the connection closed at once.
    - `h2Submit`: whether nghttp2 takes the request, and the streams it closes before the call returns.
    - `h1Alloc`: whether a session can be allocated.
    - `h3Submit`: see there.
    - `h2Cancel`: the streams that close when a `RST_STREAM` is flushed.
    - `quicReset`: the failure of the connection when a stream reset is flushed, if any. -/
inductive Ans
  | calls (cs : List ClientCall)
  | connect (err : Option Str8)
  | quicClose (now : Bool)
  | h2Submit (ok : Bool) (closes : List (ReqId × H2Response))
  | h1Alloc (ok : Bool)
  | h3Submit (a : H3Submit)
  | h2Cancel (closes : List (ReqId × H2Response))
  | quicReset (err : Option Str8)

namespace Ans

def calls? : Ans → Option (List ClientCall)
  | calls cs => some cs
  | _ => none

def connect? : Ans → Option (Option Str8)
  | connect err => some err
  | _ => none

def quicClose? : Ans → Option Bool
  | quicClose now => some now
  | _ => none

def h2Submit? : Ans → Option (Bool × List (ReqId × H2Response))
  | h2Submit ok closes => some (ok, closes)
  | _ => none

def h1Alloc? : Ans → Option Bool
  | h1Alloc ok => some ok
  | _ => none

def h3Submit? : Ans → Option H3Submit
  | h3Submit a => some a
  | _ => none

def h2Cancel? : Ans → Option (List (ReqId × H2Response))
  | h2Cancel closes => some closes
  | _ => none

def quicReset? : Ans → Option (Option Str8)
  | quicReset err => some err
  | _ => none

end Ans

/-- What the pool does.
    - `rejected`: a dispatch whose URL is not an https URL; its callback runs at once.
    - `queuedOnFailed`: a request is queued on the connection opened for it, whose failure was reported
      before the connect returned.
    - `queuedOnDrained`: a request is queued on a connection whose waiting list has been taken over.
    - `lateSubmit`: a request joins the active list of a connection that was closed during the submit.
    - `strayClose`: a stream is closed before its request has joined an active list.
    - `refused`: the peer says that it did not process the request.
    - `retried`: a request that got no answer is sent on its way again.
    - `failed`: `pool_conn_fail_all`, with whether the connection has entries in `streams[]` and whether one
      of its requests is answered already.
    - `evicted`: `pool_evict_all`, with the number of connections opened so far.
    - `idleClose`: an eviction or a sweep closes a connection without active requests, with whether an
      unanswered request is waiting on it.
    - `streamClosed`: a request stream of an HTTP/3 connection is closed, with whether its request has
      `h3_fin` set already.
    - `h1Read`, `h1Closed`: bytes read from an HTTP/1.1 connection, or its end, with the requests written
      to it and the bytes read from it before.
    - `h1Expired`: the deadline of a request passes that is active on a usable HTTP/1.1 connection. -/
inductive PoolEvent
  | dispatched (r : ReqId)
  | rejected (url : Str8)
  | opened (c : ConnId) (r : ReqId)
  | queuedOnFailed (r : ReqId) (c : ConnId)
  | queuedOnDrained (r : ReqId) (c : ConnId)
  | write (r : ReqId) (c : ConnId)
  | lateSubmit (r : ReqId) (c : ConnId)
  | strayClose (r : ReqId)
  | refused (r : ReqId)
  | retried (r : ReqId)
  | callback (r : ReqId) (resp : Response)
  | released (r : ReqId)
  | legacy (r : ReqId)
  | failed (c : ConnId) (tabled answered : Bool)
  | evicted (n : Nat)
  | idleClose (c : ConnId) (strands : Bool)
  | streamClosed (c : ConnId) (sid : Nat) (ignored : Bool)
  | h1Read (c : ConnId) (written : List ReqId) (before data : Str8)
  | h1Closed (c : ConnId) (written : List ReqId) (before : Str8)
  | h1Expired (r : ReqId) (c : ConnId)
deriving DecidableEq

abbrev PoolProg := Prog Pool Ans PoolEvent

end HolyTls

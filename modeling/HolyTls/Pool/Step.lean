import HolyTls.Lib.Runs
import HolyTls.H1.Phr
import HolyTls.Pool.Handlers

/-!
# `Pool.Step` — the events the pool handles (`src/core/pool.c`)

The transport callbacks, the deadline timer, the sweep timer and the calls of the user. `poolInput` says
which code an event runs, `poolEnabled` when it can happen: a connection that is not in `conns[]` is gone,
`on_ready` fires once, a TCP connection reports data and its end only between `on_ready` and `conn_close`, a
QUIC connection receives until it is closed. `poolStep` runs one event to its end, on whatever the
environment answers, and appends what was done to the log.
-/

namespace HolyTls

open Prog

/-- What nghttp2 reports while it reads. -/
inductive H2Frame
  | close (r : ReqId) (resp : H2Response)
  | goaway
  | maxConcurrent (n : Nat)

/-- One `h2_session_recv`: what is reported during it, and whether it succeeds. -/
structure H2Recv where
  frames : List H2Frame := []
  ok : Bool := true

/-- What ngtcp2 reports while it reads a packet. -/
inductive QuicFrame
  | ready (alpn : Str8) (qpack : Bool)
  | streamFin (sid : Nat) (resp : H3Response)
  | streamClose (sid : Nat) (resp : H3Response)

section

variable (cfg : PoolCfg) (self : Entry → PoolProg Unit)

/-- `pool_update_idle`. -/
def poolUpdateIdle (c : ConnId) : PoolProg Unit := do
  let s ← get
  let pc := s.conn c
  if pc.state = .closing then pure ()
  else if pc.broken then do
    modify (·.detachWaiting c)
    forEach (fun r => do
      modify (·.clearPc r)
      self (.acquire pc.proto r)) pc.waiting.nodes
    let s ← get
    when ((s.conn c).inflight == 0) (poolCloseConn c)
  else
    when (decide (pc.inflight = 0 ∧ pc.state = .ready ∧ pc.idle = false))
      (modify (·.updConn c (fun pc => { pc with idle := true, idleSinceMs := s.now })))

/-! ## HTTP/2 -/

/-- `pool_conn_fallback_legacy`. The callback of a request may run before `h2req_start` returns. -/
def poolConnFallbackLegacy (c : ConnId) : PoolProg Unit := do
  let s ← get
  modify (·.detachWaiting c)
  forEach (fun r => do
    modify (·.updReq r (fun q => { q with legacy := true }))
    report (.legacy r)
    runCallback self
    poolReqDone r) (s.conn c).waiting.nodes
  modify (·.markBroken c)
  poolCloseConn c

/-- What nghttp2 reports, on its way to the pool. -/
def h2OnFrame (c : ConnId) : H2Frame → PoolProg Unit
  | .close r resp => do
      let s ← get
      when (decide (r ∈ (s.conn c).active)) (poolH2OnResponse cfg self r resp)
  | .goaway => modify (·.updConn c (fun pc =>
    { pc with h2 := pc.h2.map (fun h => { h with goawayReceived := true }) }))
  | .maxConcurrent n => modify (·.updConn c (fun pc =>
    { pc with h2 := pc.h2.map (fun h => { h with maxConcurrentStreams := n }) }))

/-- The loop of `pool_h2_drain`; it tells whether the session failed. -/
def poolH2DrainLoop (c : ConnId) : List H2Recv → PoolProg Bool
  | [] => pure false
  | rd :: rest => do
      let s ← get
      if (s.conn c).h2 = none then pure false
      else do
        forEach (h2OnFrame cfg self c) rd.frames
        if rd.ok = false then pure true
        else do
          let s ← get
          if (s.conn c).state = .closing ∨ (s.conn c).broken = true then pure false
          else poolH2DrainLoop c rest

def setInDrain (c : ConnId) (b : Bool) : PoolProg Unit :=
  modify (·.updConn c (fun pc => { pc with inDrain := b }))

/-- `pool_h2_drain`. -/
def poolH2Drain (c : ConnId) (reads : List H2Recv) : PoolProg Unit := do
  let s ← get
  if (s.conn c).state = .closing then pure ()
  else do
    setInDrain c true
    let failed ← poolH2DrainLoop cfg self c reads
    setInDrain c false
    if failed then poolConnFailAll self c (lit "h2 protocol error")
    else do
      let s ← get
      when (((s.conn c).h2.map (·.goawayReceived)).getD false) (modify (·.markBroken c))
      self (.flush c)
      poolUpdateIdle self c

/-- `pool_h2_on_ready`: `res` is the error, or the negotiated protocol. -/
def poolH2OnReady (c : ConnId) (res : Except Str8 Str8) (session : Bool) (reads : List H2Recv) :
    PoolProg Unit :=
  match res with
  | .error e => poolConnFailAll self c e
  | .ok alpn =>
    if str8Match alpn (lit "h2") = false then poolConnFallbackLegacy self c
    else if session = false then poolConnFailAll self c (lit "h2 session init failed")
    else do
      modify (·.updConn c (fun pc => { pc with h2 := some {}, state := .ready }))
      self (.flush c)
      poolH2Drain cfg self c reads

/-- `pool_h2_on_closed`. -/
def poolH2OnClosed (c : ConnId) (e : Option Str8) : PoolProg Unit :=
  poolConnFailAll self c (e.getD (lit "connection closed"))

/-! ## HTTP/1.1 -/

/-- `pool_h1_on_response`. -/
def poolH1OnResponse (r : ReqId) (hr : H1Response) : PoolProg Unit :=
  poolOnResponse cfg self r hr.response false (lit "h1 request failed") (fun c => do
      let s ← get
      when (!(hr.keepAlive && hr.ok && !(s.conn c).broken)) (modify (·.markBroken c)))

/-- `pool_h1_on_ready`. -/
def poolH1OnReady (c : ConnId) (res : Except Str8 Str8) : PoolProg Unit :=
  match res with
  | .error e => poolConnFailAll self c e
  | .ok alpn =>
    if alpn ≠ [] ∧ str8Match alpn (lit "http/1.1") = false then
      poolConnFailAll self c (lit "pool: server did not negotiate http/1.1")
    else do
      modify (·.updConn c (fun pc => { pc with state := .ready }))
      self (.flush c)

/-- A call on the session of `r` that reports through `pool_h1_on_response`. -/
def h1Call (r : ReqId) (call : H1Call) : PoolProg Unit := do
  modify (·.updReq r (fun q => { q with h1 := some call.sess }))
  whenSome call.resp (poolH1OnResponse cfg self r)

/-- The loop of `pool_h1_drain`; it tells whether the session failed. -/
def poolH1DrainLoop (c : ConnId) : List Str8 → PoolProg Bool
  | [] => pure false
  | data :: rest => do
      let s ← get
      report (.h1Read c (s.conn c).written (s.conn c).readBytes data)
      match (s.conn c).active.head?.bind (fun r => ((s.reqs r).h1.map (fun h => (r, h)))) with
      | none => do
          modify (·.readH1 c data true)
          pure false
      | some (r, h) => do
          modify (·.readH1 c data (h1SessionRecv cfg.phr h data).ok)
          h1Call cfg self r (h1SessionRecv cfg.phr h data)
          if (h1SessionRecv cfg.phr h data).ok = false then pure true
          else do
            let s ← get
            if (s.conn c).state = .closing ∨ (s.conn c).broken = true then pure false
            else poolH1DrainLoop c rest

/-- `pool_h1_drain`. -/
def poolH1Drain (c : ConnId) (reads : List Str8) : PoolProg Unit := do
  let s ← get
  if (s.conn c).state = .closing then pure ()
  else do
    setInDrain c true
    let failed ← poolH1DrainLoop cfg self c reads
    setInDrain c false
    if failed then poolConnFailAll self c (lit "h1 parse error")
    else do
      self (.flush c)
      poolUpdateIdle self c

/-- `pool_h1_on_closed`. -/
def poolH1OnClosed (c : ConnId) (e : Option Str8) : PoolProg Unit := do
  let s ← get
  if (s.conn c).state = .closing then pure ()
  else do
    report (.h1Closed c (s.conn c).written (s.conn c).readBytes)
    modify (·.endH1 c)
    whenSome ((s.conn c).active.head?.bind (fun r => ((s.reqs r).h1.map (fun h => (r, h)))))
      (fun x => h1Call cfg self x.1 (h1SessionEof x.2))
    poolConnFailAll self c (e.getD (lit "connection closed"))

/-! ## HTTP/3 -/

/-- `pool_h3_on_ready`. -/
def poolH3OnReady (c : ConnId) (res : Except Str8 Str8) (qpack : Bool) : PoolProg Unit :=
  match res with
  | .error e => poolConnFailAll self c e
  | .ok alpn =>
    if str8Match alpn (lit "h3") = false then
      poolConnFailAll self c (lit "pool: server did not negotiate h3")
    else if qpack = false then poolConnFailAll self c (lit "h3 qpack init failed")
    else do
      modify (·.updConn c (fun pc => { pc with h3c := true, state := .ready }))
      let s ← get
      when (!(s.conn c).inRecv) (self (.flush c))

/-- `pool_h3_finish`. -/
def poolH3Finish (c : ConnId) (r : ReqId) (resp : H3Response) : PoolProg Unit := do
  let s ← get
  if (s.reqs r).responded then pure ()
  else do
    modify (fun s => (s.removeStream (s.reqs r).h3StreamId c).activeRemove r c)
    poolSettle cfg self r
      { ok := resp.status ≠ 0, status := resp.status, headers := resp.headers, body := resp.body
        error := if resp.status ≠ 0 then [] else lit "no response headers" }
      (lit "h3 stream reset") (pure ())

/-- `pool_h3_find_stream`. -/
def poolH3FindStream (s : Pool) (c : ConnId) (sid : Nat) : Option ReqId :=
  (s.conn c).streams.find? (fun r => (s.reqs r).h3StreamId == sid)

/-- The request of a stream has `h3_fin` set. -/
def h3FinSet (s : Pool) (c : ConnId) (sid : Nat) : Bool :=
  ((poolH3FindStream s c sid).map (fun r => (s.reqs r).h3Fin)).getD false

def setH3Fin (r : ReqId) : PoolProg Unit := modify (·.updReq r (fun q => { q with h3Fin := true }))

/-- What ngtcp2 reports, on its way to the pool. -/
def quicOnFrame (c : ConnId) : QuicFrame → PoolProg Unit
  | .ready alpn qpack => do
      let s ← get
      when (decide ((s.conn c).state = .handshaking)) (poolH3OnReady self c (.ok alpn) qpack)
  -- `pool_h3_on_stream_data` with the last bytes of the stream
  | .streamFin sid resp => do
      let s ← get
      when (s.conn c).h3c (whenSome (poolH3FindStream s c sid) (fun r => do
        setH3Fin r
        poolH3Finish cfg self c r resp))
  -- `pool_h3_on_stream_close`
  | .streamClose sid resp => do
      let s ← get
      when (decide (sid < 4 * (s.conn c).nextStream)) (report (.streamClosed c sid (h3FinSet s c sid)))
      when (s.conn c).h3c (whenSome (poolH3FindStream s c sid) (fun r =>
        when (!(s.reqs r).h3Fin) (do
          setH3Fin r
          poolH3Finish cfg self c r resp)))

/-- `quic_fail`. -/
def quicFail (c : ConnId) (e : Str8) : PoolProg Unit := do
  let s ← get
  if (s.conn c).state = .handshaking then poolH3OnReady self c (.error e) true
  else poolH3OnClosed self c (some e)

def setInRecv (c : ConnId) (b : Bool) : PoolProg Unit :=
  modify (·.updConn c (fun pc => { pc with inRecv := b }))

/-- `pool_h3_recv_done`. -/
def poolH3RecvDone (c : ConnId) : PoolProg Unit := do
  self (.flush c)
  poolUpdateIdle self c

/-- `quic_recv_cb`: a packet is read, which may fail, and what is due is sent, which may fail too. -/
def quicRecvCb (c : ConnId) (frames : List QuicFrame) (readFail sendFail : Option Str8) :
    PoolProg Unit := do
  setInRecv c true
  forEach (quicOnFrame cfg self c) frames
  setInRecv c false
  match readFail with
  | some e => quicFail self c e
  | none => do
      whenSome sendFail (quicFail self c)
      poolH3RecvDone self c

/-! ## Timers -/

/-- The stream of an active request is cancelled in `pool_req_timeout`. For HTTP/1.1 the branch for QUIC is
    taken, which finds neither a QUIC connection nor streams. -/
def poolCancelStream (proto : PoolProto) (c : ConnId) (r : ReqId) : PoolProg Unit := do
  let s ← get
  match proto with
  | .h2 =>
    when (s.conn c).h2.isSome do
      let closes ← await Ans.h2Cancel?
      h2Closes cfg self c closes
  | .h1 => when (!(s.conn c).broken) (report (.h1Expired r c))
  | .h3 => do
      let err ← await Ans.quicReset?
      whenSome err (fun e => poolH3OnClosed self c (some e))
      let s ← get
      when (s.conn c).h3c (modify (fun s => s.removeStream (s.reqs r).h3StreamId c))

/-- `pool_req_timeout`. -/
def poolReqTimeout (r : ReqId) : PoolProg Unit := do
  modify (·.updReq r (fun q => { q with timerArmed := false }))
  let s ← get
  if (s.reqs r).responded then pure ()
  else do
    poolReqDeliverError self r (lit "timeout")
    whenSome (s.reqs r).pc (fun c => do
      let s' ← get
      if r ∈ (s'.conn c).active then do
        poolCancelStream cfg self (s.reqs r).proto c r
        modify (·.activeRemove r c)
      else modify (fun s => s.setWaiting c ((s.conn c).waiting.remove r)))
    poolReqDone r
    whenSome (s.reqs r).pc (fun c => do
      let s' ← get
      when (decide ((s'.conn c).state ≠ .closing)) do
        self (.flush c)
        poolUpdateIdle self c)

/-- `pool_sweep_cb`. -/
def poolSweepCb : PoolProg Unit := do
  let s ← get
  let idleTo := if cfg.idleTimeoutMs = 0 then poolDefaultIdleMs else cfg.idleTimeoutMs
  forEach (fun i => do
    let s ← get
    whenSome s.conns[i]? (fun c =>
      let pc := s.conn c
      when (decide (pc.state ≠ .closing ∧ pc.inflight = 0 ∧
        (pc.broken = true ∨ pc.state = .ready ∧ s.now - pc.idleSinceMs ≥ idleTo))) (poolIdleClose c)))
    (List.range s.conns.length)

end

/-! ## Events -/

/-- One event: a callback of a transport or a timer, a call of the user, or time passing. -/
inductive PoolInput
  | call (k : ClientCall)
  | h2Ready (c : ConnId) (res : Except Str8 Str8) (session : Bool) (reads : List H2Recv)
  | h2Readable (c : ConnId) (reads : List H2Recv)
  | h2Closed (c : ConnId) (err : Option Str8)
  | h1Ready (c : ConnId) (res : Except Str8 Str8)
  | h1Readable (c : ConnId) (reads : List Str8)
  | h1Closed (c : ConnId) (err : Option Str8)
  | quicRecv (c : ConnId) (frames : List QuicFrame) (readFail sendFail : Option Str8)
  | quicFailed (c : ConnId) (err : Str8)
  | fullyClosed (c : ConnId)
  | timeout (r : ReqId)
  | sweep
  | tick (ms : Nat)

/-- When an event can happen. -/
def poolEnabled (s : Pool) : PoolInput → Bool
  | .call _ => true
  | .h2Ready c .. => c ∈ s.conns && (s.conn c).proto = .h2 && (s.conn c).state = .handshaking
  | .h2Readable c .. => c ∈ s.conns && (s.conn c).proto = .h2 && (s.conn c).state = .ready
  | .h2Closed c .. => c ∈ s.conns && (s.conn c).proto = .h2 && (s.conn c).state = .ready
  | .h1Ready c .. => c ∈ s.conns && (s.conn c).proto = .h1 && (s.conn c).state = .handshaking
  | .h1Readable c reads =>
    c ∈ s.conns && (s.conn c).proto = .h1 && (s.conn c).state = .ready &&
      reads.all (fun d => 0 < d.length && d.length ≤ 16384)
  | .h1Closed c .. => c ∈ s.conns && (s.conn c).proto = .h1 && (s.conn c).state = .ready
  | .quicRecv c .. => c ∈ s.conns && (s.conn c).proto = .h3 && (s.conn c).state ≠ .closing
  | .quicFailed c _ => c ∈ s.conns && (s.conn c).proto = .h3 && (s.conn c).state ≠ .closing
  | .fullyClosed c => c ∈ s.conns && (s.conn c).state = .closing
  | .timeout r => r < s.nreq && (s.reqs r).timerArmed
  | .sweep => true
  | .tick _ => true

/-- What an event runs. -/
def poolInput (cfg : PoolCfg) (self : Entry → PoolProg Unit) : PoolInput → PoolProg Unit
  | .call k => self (.call k)
  | .h2Ready c res session reads => poolH2OnReady cfg self c res session reads
  | .h2Readable c reads => poolH2Drain cfg self c reads
  | .h2Closed c err => poolH2OnClosed self c err
  | .h1Ready c res => poolH1OnReady self c res
  | .h1Readable c reads => poolH1Drain cfg self c reads
  | .h1Closed c err => poolH1OnClosed cfg self c err
  | .quicRecv c frames readFail sendFail => quicRecvCb cfg self c frames readFail sendFail
  | .quicFailed c err => quicFail self c err
  | .fullyClosed c => modify (·.removeConn c)
  | .timeout r => poolReqTimeout cfg self r
  | .sweep => poolSweepCb cfg
  | .tick ms => modify (fun s => { s with now := s.now + ms })

/-- The pool and what it has done. -/
structure PoolRun where
  pool : Pool
  log : List PoolEvent

/-- An event with how deep the pool enters itself during it and what the environment answers. -/
structure PoolTurn where
  input : PoolInput
  depth : Nat
  answers : List Ans

/-- One event, run to its end. -/
def poolStep (cfg : PoolCfg) (w : PoolRun) (t : PoolTurn) : Option PoolRun :=
  if poolEnabled w.pool t.input then
    (run (poolInput cfg (poolRec cfg t.depth) t.input) w.pool t.answers).map
      (fun res => { pool := res.state, log := w.log ++ res.out })
  else none

/-- The states that a run of the pool passes through. -/
def PoolReach (cfg : PoolCfg) : PoolRun → Prop :=
  Runs.Reach (· = { pool := .empty, log := [] }) (poolStep cfg) (fun _ _ => True)

/-- A given run. -/
def poolPlay (cfg : PoolCfg) (ts : List PoolTurn) : Option PoolRun :=
  ts.foldlM (poolStep cfg) { pool := .empty, log := [] }

theorem PoolReach.of_play {cfg : PoolCfg} {w : PoolRun} {ts : List PoolTurn} (h : poolPlay cfg ts = some w) :
    PoolReach cfg w := Runs.Reach.foldlM (.start rfl) h

/-- A client that knows no content encodings. -/
def plainCfg : PoolCfg := { decode := fun _ body => some body, phr := plainPhr }

end HolyTls

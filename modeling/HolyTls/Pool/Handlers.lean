import HolyTls.Pool.Ops

/-!
# `Pool.Handlers` — the pool's code (`src/core/pool.c`)

Every function of the source is a program under its name. The code enters itself again at three points,
which are the cases of `Entry`: a request looks for a connection (`pool_acquire`, from a retry deep inside a
submit), a connection submits what waits on it (`pool_flush_waiting`, a loop), and a user callback calls
into the pool. The functions take the entry points as a parameter `self`; `poolRec` ties the knot.

Left out are what a request consists of on the wire (headers, hooks, body), the alt-svc and statistics
side effects and the loop references of idle connections.
-/

namespace HolyTls

open Prog

/-- What the pool reads of its client: `max_conns_per_origin`, `pool_idle_timeout_ms`, whether the profile
    sends a PRIORITY_UPDATE, and the libraries that decode a body and parse a response. -/
structure PoolCfg where
  maxConnsPerOrigin : Nat := 1
  idleTimeoutMs : Nat := 0
  sendPriorityUpdate : Bool := true
  decode : Str8 → Str8 → Option Str8
  phr : Phr

/-- Where the pool is entered again. -/
inductive Entry
  | acquire (proto : PoolProto) (r : ReqId)
  | flush (c : ConnId)
  | call (k : ClientCall)

section

variable (cfg : PoolCfg) (self : Entry → PoolProg Unit)

/-! ## Delivery -/

/-- What the user's callback does. -/
def runCallback : PoolProg Unit := do
  let cs ← await Ans.calls?
  forEach (fun k => self (.call k)) cs

/-- `pool_req_done`. -/
def poolReqDone (r : ReqId) : PoolProg Unit := do
  modify (·.release r)
  report (.released r)

/-- `pool_req_deliver_error`. -/
def poolReqDeliverError (r : ReqId) (err : Str8) : PoolProg Unit := do
  let s ← get
  if (s.reqs r).responded then pure ()
  else do
    modify (·.respond r)
    report (.callback r { ok := false, error := err })
    runCallback self

/-- `pool_req_fail`. -/
def poolReqFail (r : ReqId) (err : Str8) : PoolProg Unit := do
  poolReqDeliverError self r err
  poolReqDone r

/-- `pool_req_retry_or_fail`. -/
def poolReqRetryOrFail (r : ReqId) (err : Str8) : PoolProg Unit := do
  let s ← get
  if 0 < (s.reqs r).retriesLeft ∧ (s.reqs r).responded = false then do
    report (.retried r)
    modify (·.resetForRetry r)
    self (.acquire (s.reqs r).proto r)
  else poolReqFail self r err

/-- `pool_deliver`. -/
def poolDeliver (r : ReqId) (resp : Response) : PoolProg Unit := do
  report (.callback r (responseDecodeEncoding cfg.decode resp))
  runCallback self

/-- What the three response handlers do once the request is off its connection: an exchange without a
    status is retried, any other is delivered and the request released. `after` ends the handler. -/
def poolSettle (r : ReqId) (resp : Response) (err : Str8) (after : PoolProg Unit) : PoolProg Unit := do
  let s ← get
  if resp.ok = false ∧ resp.status = 0 ∧ 0 < (s.reqs r).retriesLeft then poolReqRetryOrFail self r err
  else do
    modify (·.respond r)
    poolDeliver cfg self r resp
    poolReqDone r
    after

/-! ## Closing -/

/-- `pool_close_conn`. Only a QUIC connection that is still resolving has no handle to close, and reports
    at once that it is closed. -/
def poolCloseConn (c : ConnId) : PoolProg Unit := do
  let s ← get
  if (s.conn c).state = .closing then pure ()
  else do
    modify (·.close c)
    when (decide ((s.conn c).proto = .h3 ∧ (s.conn c).state = .handshaking)) do
      let now ← await Ans.quicClose?
      when now (modify (·.removeConn c))

/-- `pool_conn_fail_all`. -/
def poolConnFailAll (c : ConnId) (err : Str8) : PoolProg Unit := do
  let s ← get
  if (s.conn c).state = .closing then pure ()
  else do
    report (.failed c (!(s.conn c).streams.isEmpty) (s.answers c))
    modify (·.detachAll c)
    poolCloseConn c
    forEach (fun r => poolReqRetryOrFail self r err) (s.conn c).active
    forEach (fun r => poolReqRetryOrFail self r err) (s.conn c).waiting.nodes

/-! ## Submitting -/

/-- `pool_after_submit`, reported when the connection did not survive the submit. -/
def poolAfterSubmit (c : ConnId) (r : ReqId) : PoolProg Unit := do
  let s ← get
  when (decide ((s.conn c).state ≠ .ready)) (report (.lateSubmit r c))
  modify (·.afterSubmit r c)

/-- `pool_h2_on_response` and `pool_h1_on_response`: the request leaves its connection, the slot is free. -/
def poolOnResponse (r : ReqId) (resp : Response) (refused : Bool) (err : Str8)
    (after : ConnId → PoolProg Unit) : PoolProg Unit := do
  let s ← get
  if (s.reqs r).responded then pure ()
  else
    match (s.reqs r).pc with
    | none => stuck
    | some c => do
        modify (·.activeRemove r c)
        when refused (report (.refused r))
        poolSettle cfg self r resp err (after c)

/-- `pool_h2_on_response`. -/
def poolH2OnResponse (r : ReqId) (hr : H2Response) : PoolProg Unit :=
  poolOnResponse cfg self r { ok := hr.ok, status := hr.status, headers := hr.headers, body := hr.body }
    hr.refused (lit "h2 stream reset") (fun _ => pure ())

/-- nghttp2 closes streams of `c`. -/
def h2Closes (c : ConnId) : List (ReqId × H2Response) → PoolProg Unit :=
  forEach (fun x => do
    let s ← get
    when (decide (x.1 ∈ (s.conn c).active)) (poolH2OnResponse cfg self x.1 x.2))

/-- `pool_h2_submit`. The request's own stream may be among those closed before the call returns. -/
def poolH2Submit (c : ConnId) (r : ReqId) : PoolProg Unit := do
  let (ok, closes) ← await Ans.h2Submit?
  if ok then do
    report (.write r c)
    forEach (fun x => do
      let s ← get
      if x.1 ∈ (s.conn c).active then poolH2OnResponse cfg self x.1 x.2
      else when (decide (x.1 = r) && !(s.reqs r).responded) do
        report (.strayClose r)
        poolH2OnResponse cfg self r x.2) closes
    poolAfterSubmit c r
  else poolReqFail self r (lit "h2 submit failed")

/-- `pool_h1_submit`. -/
def poolH1Submit (c : ConnId) (r : ReqId) : PoolProg Unit := do
  let ok ← await Ans.h1Alloc?
  if ok then do
    modify (·.startH1 r c)
    report (.write r c)
    poolAfterSubmit c r
  else poolReqFail self r (lit "h1 session init failed")

/-- `pool_h3_on_closed`. -/
def poolH3OnClosed (c : ConnId) (e : Option Str8) : PoolProg Unit :=
  poolConnFailAll self c (e.getD (lit "connection closed"))

/-- The second half of `pool_h3_submit`: encode the headers, send the request, keep the books. -/
def poolH3Send (a : H3Submit) (c : ConnId) (r : ReqId) : PoolProg Unit := do
  if a.encode = false then poolReqRetryOrFail self r (lit "h3 qpack encode failed")
  else do
    report (.write r c)
    whenSome a.sendFail (fun e => poolH3OnClosed self c (some e))
    modify (·.pushStream r c)
    poolAfterSubmit c r

/-- `pool_h3_submit`. A send that fails the connection comes back through `pool_h3_on_closed`. -/
def poolH3Submit (c : ConnId) (r : ReqId) : PoolProg Unit := do
  let a ← await Ans.h3Submit?
  let s ← get
  if a.bidi = false then poolReqRetryOrFail self r (lit "h3 open stream failed")
  else do
    modify (·.openStream r c)
    if (s.conn c).controlOpened = false ∧ a.uni = false then
      poolReqRetryOrFail self r (lit "h3 open uni failed")
    else do
      when (!(s.conn c).controlOpened || cfg.sendPriorityUpdate) do
        whenSome a.ctrlFail (fun e => poolH3OnClosed self c (some e))
        modify (·.updConn c (fun pc => { pc with controlOpened := true }))
      poolH3Send self a c r

/-- Queue a request on a connection, reported when the waiting list has been taken over. -/
def poolPark (c : ConnId) (r : ReqId) : PoolProg Unit := do
  let s ← get
  when (s.conn c).drained (report (.queuedOnDrained r c))
  modify (·.waitingPush r c)

/-- `pool_submit`. -/
def poolSubmit (c : ConnId) (r : ReqId) : PoolProg Unit := do
  modify (·.setPc r c)
  let s ← get
  let pc := s.conn c
  if (if pc.proto = .h3 then pc.inRecv else pc.inDrain) then poolPark c r
  else if pc.proto = .h3 ∧ poolConnHasCapacity pc = false then poolPark c r
  else
    match pc.proto with
    | .h2 => poolH2Submit cfg self c r
    | .h1 => poolH1Submit self c r
    | .h3 => poolH3Submit cfg self c r

/-- `pool_flush_waiting`: one round of its loop. -/
def poolFlushWaiting (c : ConnId) : PoolProg Unit := do
  let s ← get
  match (s.conn c).waiting.pop with
  | none => pure ()
  | some (r, w) =>
    if poolConnHasCapacity (s.conn c) then do
      modify (·.setWaiting c w)
      poolSubmit cfg self c r
      self (.flush c)
    else pure ()

/-! ## Acquiring a connection -/

/-- `pool_conn_open`. -/
def poolConnOpen (proto : PoolProto) (r : ReqId) : PoolProg (Option ConnId) := do
  let s ← get
  if s.conns.length ≥ poolMaxConns then pure none
  else do
    modify (fun s => s.addConn proto (s.reqs r))
    report (.opened s.nconn r)
    let err ← await Ans.connect?
    whenSome err (fun e => poolConnFailAll self s.nconn e)
    pure (some s.nconn)

/-- The connections that `pool_acquire` looks at. -/
def poolCandidates (s : Pool) (proto : PoolProto) (origin : Str8) : List ConnId :=
  s.conns.filter (fun c =>
    (s.conn c).proto = proto && !(s.conn c).broken && (s.conn c).state ≠ .closing
      && str8Match origin (s.conn c).originKey)

/-- `pool_acquire`. -/
def poolAcquire (proto : PoolProto) (r : ReqId) : PoolProg Unit := do
  let s ← get
  let cands := poolCandidates s proto (s.reqs r).origin
  let handshaking := cands.find? (fun c => (s.conn c).state = .handshaking)
  let reusableAny := cands.find? (fun c => (s.conn c).state = .ready)
  let reusable := cands.find? (fun c => (s.conn c).state = .ready && poolConnHasCapacity (s.conn c))
  match reusable, (if proto = .h1 then none else handshaking) with
  | some c, _ => poolSubmit cfg self c r
  | none, some c => do
      modify (·.setPc r c)
      poolPark c r
  | none, none =>
    if cands.length < cfg.maxConnsPerOrigin ∧ s.conns.length < poolMaxConns then do
      match ← poolConnOpen self proto r with
      | none => poolReqFail self r (lit "pool: connection alloc failed")
      | some c => do
          let s ← get
          when (decide ((s.conn c).state = .closing)) (report (.queuedOnFailed r c))
          modify (·.setPc r c)
          modify (·.waitingPush r c)
    else
      -- at the cap: a multiplexing connection takes it, an HTTP/1.1 connection queues it
      match (if proto = .h1 then handshaking.or reusableAny else reusableAny) with
      | none => poolReqFail self r (lit "pool: no connection available")
      | some c =>
        if proto = .h1 then do
          modify (·.setPc r c)
          poolPark c r
        else poolSubmit cfg self c r

/-- `pool_dispatch`. -/
def poolDispatch (proto : PoolProto) (method : Method) (url : Str8) (deadline : Bool) : PoolProg Unit := do
  let s ← get
  if (urlParse url).ok = false ∨ (urlParse url).https = false then do
    report (.rejected url)
    runCallback self
  else do
    modify (·.addReq (.ofUrl proto method url deadline))
    report (.dispatched s.nreq)
    self (.acquire proto s.nreq)

/-- Close a connection that has no active requests, reported with whether that strands a request. -/
def poolIdleClose (c : ConnId) : PoolProg Unit := do
  let s ← get
  when (decide ((s.conn c).state ≠ .closing)) (report (.idleClose c (s.strands c)))
  poolCloseConn c

/-- `pool_evict_all`. -/
def poolEvictAll : PoolProg Unit := do
  let s ← get
  modify (·.markAllBroken)
  report (.evicted s.nconn)
  forEach (fun i => do
    let s ← get
    whenSome s.conns[i]? (fun c =>
      when ((s.conn c).broken && (s.conn c).inflight == 0) (poolIdleClose c)))
    (List.range s.conns.length).reverse

/-- One more level of the pool's entry points. -/
def poolBody : Entry → PoolProg Unit
  | .acquire proto r => poolAcquire cfg self proto r
  | .flush c => poolFlushWaiting cfg self c
  | .call (.dispatch proto method url deadline) => poolDispatch self proto method url deadline
  | .call .evictAll => poolEvictAll

end

/-- The pool's entry points, entered at most `n` deep. -/
def poolRec (cfg : PoolCfg) (n : Nat) : Entry → PoolProg Unit := fix (poolBody cfg) n

end HolyTls

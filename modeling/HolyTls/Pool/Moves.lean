import HolyTls.Pool.Step

/-!
# `Pool.Moves` — what the pool's code can do

Between two events every request is on a list of a connection, or done with. While the code runs, it also
has requests **in hand**: taken off one list and not yet on another, across calls that enter the pool again.
A `Move` is one change of state with what happens to the requests in hand, under the conditions that the
code checks right there. The hand is a stack: code that is entered again works on top of what its callers
hold.

`Move` lists what code can do that may be entered again from a callback, `Act` adds what only the handlers
of events do, `Turn` the beginning and the end of a QUIC read and what is read from HTTP/1.1 connections.
`Pool.Sweep` and `Pool.Events` show that every event is a sequence of them, so a statement about all runs of the
pool has to be checked once per move.
-/

namespace HolyTls

/-- A request in hand: looking for a connection, with one just opened for it, on its way onto one, with an
    HTTP/3 stream opened for it, written, taken off one with the response the transport reported, or being
    answered. The last two are about a deadline: the request has been told and is still on its list; its
    stream is being cancelled. -/
inductive Held
  | free (r : ReqId) (p : PoolProto)
  | opened (r : ReqId) (c : ConnId)
  | sub (r : ReqId) (c : ConnId)
  | streamed (r : ReqId) (c : ConnId)
  | sent (r : ReqId) (c : ConnId)
  | off (r : ReqId) (got : Option Response)
  | answered (r : ReqId)
  | expiring (r : ReqId) (pc : Option ConnId)
  | cancelling (r : ReqId) (c : ConnId)

def Held.req : Held → ReqId
  | free r _ => r
  | opened r _ => r
  | sub r _ => r
  | streamed r _ => r
  | sent r _ => r
  | off r _ => r
  | answered r => r
  | expiring r _ => r
  | cancelling r _ => r

/-- The request is in hand because of its deadline. -/
def Held.expires : Held → Bool
  | expiring _ _ => true
  | cancelling _ _ => true
  | _ => false

/-- No deadline is being handled. -/
def Calm (H : List Held) : Prop := ∀ h ∈ H, h.expires = false

theorem Calm.nil : Calm [] := fun _ h => (by cases h)

/-- The requests in hand, and the pool. -/
abbrev PoolWorld := List Held × Pool

/-- Everything that decides where requests are and go is the same, except that the connection may have
    become `broken`. -/
structure Mild (pc pc' : PoolConn) : Prop where
  proto : pc'.proto = pc.proto
  origin : pc'.origin = pc.origin
  host : pc'.host = pc.host
  port : pc'.port = pc.port
  state : pc'.state = pc.state
  broken : pc.broken = true → pc'.broken = true
  inRecv : pc'.inRecv = pc.inRecv
  inflight : pc'.inflight = pc.inflight
  h2 : pc'.h2.isSome = pc.h2.isSome
  h3c : pc'.h3c = pc.h3c
  streams : pc'.streams = pc.streams
  next : pc'.nextStream = pc.nextStream
  waiting : pc'.waiting = pc.waiting
  active : pc'.active = pc.active
  drained : pc'.drained = pc.drained
  written : pc'.written = pc.written
  readBytes : pc'.readBytes = pc.readBytes
  ended : pc'.ended = pc.ended

/-- Nothing stands against queueing a request on the connection. -/
structure Queueable (pc : PoolConn) : Prop where
  live : pc.state ≠ .closing
  sound : pc.broken = false
  kept : pc.drained = false

/-- The connection can take an active request now. -/
structure Submittable (pc : PoolConn) : Prop where
  ready : pc.state = .ready
  capacity : pc.proto ≠ .h2 → poolConnHasCapacity pc = true

section

variable (cfg : PoolCfg)

/-- What the pool's code does, step by step. -/
inductive Move : PoolWorld → List PoolEvent → PoolWorld → Prop
  -- a request is dispatched, or refused
  | dispatch {H s} (proto : PoolProto) (method : Method) (url : Str8) (deadline : Bool)
      (hok : (urlParse url).ok = true) :
      Move (H, s) [.dispatched s.nreq]
        (.free s.nreq proto :: H, s.addReq (.ofUrl proto method url deadline))
  | reject {H s} (url : Str8) : Move (H, s) [.rejected url] (H, s)
  -- it is given a connection, and queued there or made active
  | open {H s r p} (hroom : s.conns.length < poolMaxConns) :
      Move (.free r p :: H, s) [.opened s.nconn r] (.opened r s.nconn :: H, s.addConn p (s.reqs r))
  | assign {H s r p c} (hc : c ∈ poolCandidates s p (s.reqs r).origin) :
      Move (.free r p :: H, s) [] (.sub r c :: H, s.setPc r c)
  | reassign {H s r c} : Move (.sub r c :: H, s) [] (.sub r c :: H, s.setPc r c)
  | park {H s r c} (ev : List PoolEvent)
      (hev : ev = [.queuedOnDrained r c] ∨ ev = [] ∧ Queueable (s.conn c)) :
      Move (.sub r c :: H, s) ev (H, s.waitingPush r c)
  | parkNew {H s r c} (ev : List PoolEvent)
      (hev : ev = [.queuedOnFailed r c] ∨ ev = [] ∧ Queueable (s.conn c)) :
      Move (.opened r c :: H, s) ev (H, (s.setPc r c).waitingPush r c)
  | pop {H s r c w} (hcalm : Calm H) (hpop : (s.conn c).waiting.pop = some (r, w))
      (hcap : poolConnHasCapacity (s.conn c) = true) :
      Move (H, s) [] (.sub r c :: H, s.setWaiting c w)
  | write {H s r c} (hproto : (s.conn c).proto = .h2) :
      Move (.sub r c :: H, s) [.write r c] (.sent r c :: H, s)
  | writeH1 {H s r c} (hproto : (s.conn c).proto = .h1) (hcap : poolConnHasCapacity (s.conn c) = true) :
      Move (.sub r c :: H, s) [.write r c] (H, (s.startH1 r c).afterSubmit r c)
  | openStream {H s r c} (hproto : (s.conn c).proto = .h3) :
      Move (.sub r c :: H, s) [] (.streamed r c :: H, s.openStream r c)
  | writeH3 {H s r c} (hproto : (s.conn c).proto = .h3) :
      Move (.streamed r c :: H, s) [.write r c] (.sent r c :: H, s)
  | activate {H s r c} (ev : List PoolEvent) (hproto : (s.conn c).proto = .h2)
      (hev : ev = [.lateSubmit r c] ∧ (s.conn c).state = .closing ∨ ev = [] ∧ Submittable (s.conn c)) :
      Move (.sent r c :: H, s) ev (H, s.afterSubmit r c)
  | activateH3 {H s r c} (ev : List PoolEvent) (hproto : (s.conn c).proto = .h3)
      (hrecv : (s.conn c).inRecv = false) (hh3c : (s.conn c).h3c = true)
      (hev : ev = [.lateSubmit r c] ∧ (s.conn c).state = .closing ∨ ev = [] ∧ Submittable (s.conn c)) :
      Move (.sent r c :: H, s) ev (H, (s.pushStream r c).afterSubmit r c)
  -- it is given up, taken off its connection, retried, answered
  | giveUp {H s r p} : Move (.free r p :: H, s) [] (.off r none :: H, s)
  | withdraw {H s r c} : Move (.sub r c :: H, s) [] (.off r none :: H, s)
  | abandon {H s r c} : Move (.streamed r c :: H, s) [] (.off r none :: H, s)
  | take {H s r c₀ c} (got : Option Response) (hact : r ∈ (s.conn c₀).active)
      (hh2 : (s.conn c₀).proto = .h2 ∨ (s.conn c₀).h2.isSome = true) (hpc : (s.reqs r).pc = some c)
      (hresp : (s.reqs r).responded = false) :
      Move (H, s) [] (.off r got :: H, s.activeRemove r c)
  | takeH1 {H s r c₀ c h} (hact : r ∈ (s.conn c₀).active) (hproto : (s.conn c₀).proto = .h1)
      (hpc : (s.reqs r).pc = some c) (hresp : (s.reqs r).responded = false)
      (hh1 : (s.reqs r).h1 = some h) (hdel : h.delivered = true) :
      Move (H, s) [] (.off r (some h.answer) :: H, s.activeRemove r c)
  | takeStray {H s r c₀ c} (got : Option Response) (hproto : (s.conn c₀).proto = .h2)
      (hpc : (s.reqs r).pc = some c) (hresp : (s.reqs r).responded = false) :
      Move (.sent r c₀ :: H, s) [.strayClose r] (.off r got :: .sent r c₀ :: H, s.activeRemove r c)
  | refuse {H s r got} : Move (.off r got :: H, s) [.refused r] (.off r got :: H, s)
  | retry {H s r got} (hleft : 0 < (s.reqs r).retriesLeft) (hresp : (s.reqs r).responded = false) :
      Move (.off r got :: H, s) [.retried r] (.free r (s.reqs r).proto :: H, s.resetForRetry r)
  | answer {H s r got resp} (hopen : (s.reqs r).responded = false) (hresp : resp.ok = false ∨
      ∃ g, got = some g ∧ resp = responseDecodeEncoding cfg.decode g) :
      Move (.off r got :: H, s) [.callback r resp] (.answered r :: H, s.respond r)
  | release {H s r} : Move (.answered r :: H, s) [.released r] (H, s.release r)
  | releaseOff {H s r got} (hresp : (s.reqs r).responded = true) :
      Move (.off r got :: H, s) [.released r] (H, s.release r)
  -- a connection fails, or is emptied and closed
  | failAll {H s c} (hc : c < s.nconn) (hlive : (s.conn c).state ≠ .closing)
      (hrecv : (s.conn c).inRecv = false ∨ (s.conn c).state = .handshaking) :
      Move (H, s) [.failed c (!(s.conn c).streams.isEmpty) (s.answers c)]
        ((s.conn c).active.map (.off · none) ++ (s.conn c).waiting.nodes.map (.off · none) ++ H,
          (s.detachAll c).close c)
  | rehome {H s c} (hcalm : Calm H) (hbroken : (s.conn c).broken = true) :
      Move (H, s) [] ((s.conn c).waiting.nodes.map (.free · (s.conn c).proto) ++ H, s.detachWaiting c)
  | unassign {H s r p} : Move (.free r p :: H, s) [] (.free r p :: H, s.clearPc r)
  | closeDrained {H s c} (hdrained : (s.conn c).drained = true)
      (hempty : (s.conn c).inflight = 0 ∨ (s.conn c).state = .handshaking) :
      Move (H, s) [] (H, s.close c)
  | idleClose {H s c} (hc : c < s.nconn) (hempty : (s.conn c).inflight = 0) :
      Move (H, s) [.idleClose c (s.strands c)] (H, s.close c)
  | remove {H s c} (hclosing : (s.conn c).state = .closing) : Move (H, s) [] (H, s.removeConn c)
  | evict {H s} : Move (H, s) [.evicted s.nconn] (H, s.markAllBroken)
  -- nothing that decides about requests
  | touch {H s c pc'} (hc : c < s.nconn) (hmild : Mild (s.conn c) pc') :
      Move (H, s) [] (H, s.updConn c (fun _ => pc'))

/-- What only the handlers of events do. -/
inductive Act : PoolWorld → List PoolEvent → PoolWorld → Prop
  | move {w o w'} (h : Move cfg w o w') : Act w o w'
  | ready {H s c} (h2 : Option H2Session) (h3c : Bool) (hc : c < s.nconn) (hstate : (s.conn c).state = .handshaking)
      (hh2 : h2 = (s.conn c).h2 ∨ (s.conn c).proto = .h2) (hh3 : (s.conn c).proto = .h3 → h3c = true) :
      Act (H, s) [] (H, s.updConn c (fun pc => { pc with h2 := h2, h3c := h3c, state := .ready }))
  | h3Fin {H s r} : Act (H, s) [] (H, s.updReq r (fun q => { q with h3Fin := true }))
  -- a connection that negotiated HTTP/1.1 hands its requests to the legacy path
  | fallback {s c} (hc : c < s.nconn) (hstate : (s.conn c).state = .handshaking) :
      Act ([], s) [] ((s.conn c).waiting.nodes.map (.off · none) ++ [], s.detachWaiting c)
  | legacy {H s r got} :
      Act (.off r got :: H, s) [.legacy r]
        (.answered r :: H, s.updReq r (fun q => { q with legacy := true }))
  -- a stream ends: its request is taken off the connection, unless nothing is to be done
  | takeStream {s r c sid} (ev : List PoolEvent) (got : Option Response)
      (hfind : poolH3FindStream s c sid = some r) (hrecv : (s.conn c).inRecv = true)
      (hresp : (s.reqs r).responded = false)
      (hev : ev = [] ∨ ev = [.streamClosed c sid false] ∧ sid < 4 * (s.conn c).nextStream) :
      Act ([], s) ev ([.off r got], ((s.updReq r (fun q => { q with h3Fin := true })).removeStream
        (s.reqs r).h3StreamId c).activeRemove r c)
  | streamClosed {s c sid} (hsid : sid < 4 * (s.conn c).nextStream)
      (hnone : ∀ r, (s.conn c).h3c = true → poolH3FindStream s c sid = some r →
        (s.reqs r).h3Fin = true ∨ (s.reqs r).responded = true) :
      Act ([], s) [.streamClosed c sid (h3FinSet s c sid)] ([], s)
  -- a deadline passes
  | disarm {H s r} : Act (H, s) [] (H, s.updReq r (fun q => { q with timerArmed := false }))
  | expire {s r} (hlt : r < s.nreq) (harmed : (s.reqs r).timerArmed = true)
      (hresp : (s.reqs r).responded = false) :
      Act ([], s) [.callback r { ok := false, error := lit "timeout" }] ([.expiring r (s.reqs r).pc],
        (s.updReq r (fun q => { q with timerArmed := false })).respond r)
  | cancel {s r c} (hact : r ∈ (s.conn c).active) :
      Act ([.expiring r (some c)], s) [] ([.cancelling r c], s)
  | dropActive {s r c} (ev : List PoolEvent) (hproto : (s.reqs r).proto ≠ .h3)
      (hact : r ∈ (s.conn c).active ∨ (s.conn c).state = .closing)
      (hev : ev = [.h1Expired r c] ∨ ev = [] ∧ ((s.reqs r).proto ≠ .h1 ∨ (s.conn c).broken = true)) :
      Act ([.cancelling r c], s) ev ([.answered r], s.activeRemove r c)
  | dropStream {s r c} (hproto : (s.reqs r).proto = .h3)
      (hact : r ∈ (s.conn c).active ∨ (s.conn c).state = .closing) :
      Act ([.cancelling r c], s) [] ([.answered r], (s.dropStream r c).activeRemove r c)
  | dropWaiting {s r c} (hact : r ∉ (s.conn c).active) :
      Act ([.expiring r (some c)], s) [] ([.answered r], s.setWaiting c ((s.conn c).waiting.remove r))
  | dropNone {s r} : Act ([.expiring r none], s) [] ([.answered r], s)
  | tick {H s} (ms : Nat) : Act (H, s) [] (H, { s with now := s.now + ms })

/-- What an event does: acts, the begin and end of a QUIC read, and reading from HTTP/1.1 connections. -/
inductive Turn : PoolWorld → List PoolEvent → PoolWorld → Prop
  | act {w o w'} (h : Act cfg w o w') : Turn w o w'
  | setInRecv {H s c} (b : Bool) (hc : c < s.nconn) (hb : b = true → (s.conn c).state ≠ .closing) :
      Turn (H, s) [] (H, s.updConn c (fun pc => { pc with inRecv := b }))
  | h1Ignore {H s c} (data : Str8) (hc : c < s.nconn)
      (hnone : (s.conn c).active.head?.bind (fun r => ((s.reqs r).h1.map (fun h => (r, h)))) = none) :
      Turn (H, s) [.h1Read c (s.conn c).written (s.conn c).readBytes data] (H, s.readH1 c data true)
  | h1Feed {H s c r h} (data : Str8) (hproto : (s.conn c).proto = .h1) (hopen : (s.conn c).ended = false)
      (hhead : (s.conn c).active.head? = some r) (hh1 : (s.reqs r).h1 = some h) :
      Turn (H, s) [.h1Read c (s.conn c).written (s.conn c).readBytes data]
        (H, (s.readH1 c data (h1SessionRecv cfg.phr h data).ok).updReq r
          (fun q => { q with h1 := some (h1SessionRecv cfg.phr h data).sess }))
  | h1Closed {H s c} (hc : c < s.nconn) (hproto : (s.conn c).proto = .h1) :
      Turn (H, s) [.h1Closed c (s.conn c).written (s.conn c).readBytes] (H, s.endH1 c)
  | h1Eof {H s c r h} (hproto : (s.conn c).proto = .h1) (hopen : (s.conn c).ended = false)
      (hhead : (s.conn c).active.head? = some r) (hh1 : (s.reqs r).h1 = some h) :
      Turn (H, s) [.h1Closed c (s.conn c).written (s.conn c).readBytes]
        (H, (s.endH1 c).updReq r (fun q => { q with h1 := some (h1SessionEof h).sess }))

abbrev Moves := Runs.Trace (Move cfg)
abbrev Acts := Runs.Trace (Act cfg)
abbrev Turns := Runs.Trace (Turn cfg)

end

end HolyTls

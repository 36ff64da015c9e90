import HolyTls.Lib.Slots
import HolyTls.Pool.State

/-!
# `Pool.Ops` — the changes of state that the pool's code is made of

Each is one or a few assignments of `src/core/pool.c` that belong together: a request joins or leaves a
list, a connection is opened, marked or closed. The lemmas say what each leaves of the pool; for the
intrusive lists they say which requests are on them afterwards.
-/

namespace HolyTls

open Slots

/-- `origin_of`. -/
def originOf (pu : ParsedUrl) : Str8 := fmtS pu.host ++ lit ":" ++ decimal pu.port

/-- The `PoolReq` that a dispatch fills in. -/
def PoolReq.ofUrl (proto : PoolProto) (method : Method) (url : Str8) (deadline : Bool) : PoolReq :=
  { proto := proto, method := method, url := url, host := (urlParse url).host, port := (urlParse url).port
    origin := originOf (urlParse url), timerArmed := deadline }

namespace Pool

/-! ## Changes of state -/

/-- The new request of a dispatch. -/
def addReq (s : Pool) (q : PoolReq) : Pool :=
  { s with reqs := Function.update s.reqs s.nreq q, nreq := s.nreq + 1 }

/-- The new connection of `pool_conn_open`; its key is cut to fit `char origin[256]`. -/
def addConn (s : Pool) (proto : PoolProto) (q : PoolReq) : Pool :=
  { s with
    conn := Function.update s.conn s.nconn
      { proto := proto, origin := q.origin.take 255, host := q.host, port := q.port }
    nconn := s.nconn + 1
    conns := s.conns ++ [s.nconn] }

/-- `pool_remove_conn`. -/
def removeConn (s : Pool) (c : ConnId) : Pool := { s with conns := swapRemove (· == c) s.conns }

/-- `r->pc = pc`. -/
def setPc (s : Pool) (r : ReqId) (c : ConnId) : Pool := s.updReq r (fun q => { q with pc := some c })

def clearPc (s : Pool) (r : ReqId) : Pool := s.updReq r (fun q => { q with pc := none })

/-- `pool_waiting_push`. -/
def waitingPush (s : Pool) (r : ReqId) (c : ConnId) : Pool :=
  s.updConn c (fun pc => { pc with waiting := pc.waiting.push r })

/-- The waiting list after `pool_waiting_pop` or `pool_waiting_remove`. -/
def setWaiting (s : Pool) (c : ConnId) (w : Waiting) : Pool :=
  s.updConn c (fun pc => { pc with waiting := w })

/-- `pool_after_submit`. -/
def afterSubmit (s : Pool) (r : ReqId) (c : ConnId) : Pool :=
  s.updConn c (fun pc => { pc with
    idle := if pc.inflight = 0 then false else pc.idle
    inflight := pc.inflight + 1, idleSinceMs := 0, active := r :: pc.active })

/-- `pool_active_remove` and the count that goes with it. -/
def activeRemove (s : Pool) (r : ReqId) (c : ConnId) : Pool :=
  s.updConn c (fun pc => { pc with active := pc.active.erase r, inflight := pc.inflight - 1 })

/-- The request joins `streams[]`, if there is room. -/
def pushStream (s : Pool) (r : ReqId) (c : ConnId) : Pool :=
  s.updConn c (fun pc =>
    { pc with streams := if pc.streams.length < h3MaxStreams then pc.streams ++ [r] else pc.streams })

/-- `quic_open_bidi_stream`: client-initiated bidirectional streams are numbered `0, 4, 8, ...`. -/
def openStream (s : Pool) (r : ReqId) (c : ConnId) : Pool :=
  (s.updConn c (fun pc => { pc with nextStream := pc.nextStream + 1 })).updReq r
    (fun q => { q with h3StreamId := 4 * (s.conn c).nextStream })

/-- `pool_h3_remove_stream`. -/
def removeStream (s : Pool) (sid : Nat) (c : ConnId) : Pool :=
  s.updConn c (fun pc =>
    { pc with streams := swapRemove (fun r => (s.reqs r).h3StreamId == sid) pc.streams })

/-- The stream of a request is removed, if the connection has an HTTP/3 session. -/
def dropStream (s : Pool) (r : ReqId) (c : ConnId) : Pool :=
  s.updConn c (fun pc => { pc with
    streams := if pc.h3c then swapRemove (fun x => (s.reqs x).h3StreamId == (s.reqs r).h3StreamId) pc.streams
      else pc.streams })

/-- `h1_session_alloc` and `h1_session_submit_request`. -/
def startH1 (s : Pool) (r : ReqId) (c : ConnId) : Pool :=
  (s.updReq r (fun q => { q with h1 := some (h1SessionStart (q.method = .head)) })).updConn c
    (fun pc => { pc with written := pc.written ++ [r] })

/-- Bytes are read from an HTTP/1.1 connection; unless the session accepts them, they are the last. -/
def readH1 (s : Pool) (c : ConnId) (data : Str8) (ok : Bool) : Pool :=
  s.updConn c (fun pc => { pc with readBytes := pc.readBytes ++ data, ended := pc.ended || !ok })

/-- The peer closes an HTTP/1.1 connection. -/
def endH1 (s : Pool) (c : ConnId) : Pool := s.updConn c (fun pc => { pc with ended := true })

/-- All requests leave a connection that failed. -/
def detachAll (s : Pool) (c : ConnId) : Pool :=
  s.updConn c (fun pc => { pc with broken := true, inflight := 0, active := [], waiting := {} })

/-- The waiting requests leave a connection. -/
def detachWaiting (s : Pool) (c : ConnId) : Pool :=
  s.updConn c (fun pc => { pc with waiting := {}, drained := true })

def close (s : Pool) (c : ConnId) : Pool := s.updConn c (fun pc => { pc with state := .closing })

def markBroken (s : Pool) (c : ConnId) : Pool := s.updConn c (fun pc => { pc with broken := true })

/-- The first pass of `pool_evict_all`. -/
def markAllBroken (s : Pool) : Pool :=
  { s with
    conn := fun c =>
      if c ∈ s.conns ∧ (s.conn c).state ≠ .closing then { s.conn c with broken := true } else s.conn c }

def respond (s : Pool) (r : ReqId) : Pool := s.updReq r (fun q => { q with responded := true })

/-- What `pool_req_retry_or_fail` resets before the retry. -/
def resetForRetry (s : Pool) (r : ReqId) : Pool :=
  s.updReq r (fun q => { q with retriesLeft := q.retriesLeft - 1, pc := none, h1 := none })

/-- What `pool_req_done` releases. -/
def release (s : Pool) (r : ReqId) : Pool :=
  s.updReq r (fun q => { q with h1 := none, timerArmed := false, released := true })

/-- A request on one of the lists of a connection is answered already. -/
def answers (s : Pool) (c : ConnId) : Bool :=
  ((s.conn c).active ++ (s.conn c).waiting.nodes).any (fun r => (s.reqs r).responded)

/-- A request waits on a connection that nobody has answered. -/
def strands (s : Pool) (c : ConnId) : Bool := (s.conn c).waiting.nodes.any (fun r => (s.reqs r).unanswered)

section

variable (s : Pool) (q : PoolReq) (p : PoolProto) (c x : ConnId) (r : ReqId)

@[simp, grind =] theorem addReq_reqs : (s.addReq q).reqs r = if r = s.nreq then q else s.reqs r := by
  simp only [addReq, Function.update_apply]

@[simp, grind =] theorem addConn_conn : (s.addConn p q).conn x =
    if x = s.nconn then { proto := p, origin := q.origin.take 255, host := q.host, port := q.port }
    else s.conn x := by
  simp only [addConn, Function.update_apply]

@[simp, grind =] theorem addConn_reqs : (s.addConn p q).reqs r = s.reqs r := rfl
@[simp, grind =] theorem addConn_conns : (s.addConn p q).conns = s.conns ++ [s.nconn] := rfl

@[simp, grind =] theorem removeConn_conns : (s.removeConn c).conns = swapRemove (· == c) s.conns := rfl

@[simp, grind =] theorem markAllBroken_conn : s.markAllBroken.conn x =
    if x ∈ s.conns ∧ (s.conn x).state ≠ .closing then { s.conn x with broken := true }
    else s.conn x := rfl

theorem dropStream_of_h3c (h : (s.conn c).h3c = true) :
    s.dropStream r c = s.removeStream (s.reqs r).h3StreamId c := by
  apply updConn_congr
  rw [if_pos h]

theorem dropStream_of_no_h3c (h : (s.conn c).h3c = false) : s.dropStream r c = s := by
  apply updConn_eq_self
  rw [if_neg (by rw [h]; decide)]

end

attribute [grind =] setPc clearPc waitingPush setWaiting afterSubmit activeRemove pushStream openStream removeStream
  startH1 detachAll detachWaiting close markBroken respond resetForRetry release

end Pool

/-! ## The lists -/

namespace Waiting

variable {w w' : Waiting} {t r x : ReqId} {l : List ReqId}

theorem mem_linkAfter (h : x ∈ linkAfter t r l) : x ∈ l ∨ x = r := by
  induction l with
  | nil => cases h
  | cons y l ih =>
    unfold linkAfter at h
    grind

@[grind →]
theorem mem_push (h : x ∈ (w.push r).nodes) : x ∈ w.nodes ∨ x = r := by
  unfold push at h
  split at h
  · exact mem_linkAfter h
  · exact Or.inr (List.mem_singleton.mp h)

@[grind →]
theorem nodes_of_pop (h : w.pop = some (r, w')) : w.nodes = r :: w'.nodes := by
  unfold pop at h
  split at h
  · cases h
  · next hn =>
      cases h
      exact hn

theorem remove_sublist (w : Waiting) (r : ReqId) : (w.remove r).nodes.Sublist w.nodes := by
  unfold remove
  split
  · exact List.erase_sublist
  · exact List.Sublist.refl _

@[grind →]
theorem mem_of_mem_remove (h : x ∈ (w.remove r).nodes) : x ∈ w.nodes := (remove_sublist w r).subset h

end Waiting

theorem count_swapRemove_le (p : ReqId → Bool) (l : List ReqId) (r : ReqId) :
    (swapRemove p l).count r ≤ l.count r := by
  rw [(swapRemove_perm p l).count_eq]
  exact List.eraseP_sublist.count_le r

/-- The element that `swapRemove` looks for by a number that no other has is the one it gives up. -/
theorem swapRemove_perm_erase {f : ReqId → Nat} {l : List ReqId} {r : ReqId} (hinj : ∀ x ∈ l, f x = f r → x = r) :
    (swapRemove (fun x => f x == f r) l).Perm (l.erase r) := by
  have heq : l.eraseP (fun x => f x == f r) = l.erase r := by
    induction l with
    | nil => rfl
    | cons y l ih =>
      by_cases hy : y = r
      · rw [hy, List.erase_cons_head, List.eraseP_cons_of_pos (by simp)]
      · have hne : f y ≠ f r := fun h => hy (hinj y List.mem_cons_self h)
        rw [List.erase_cons_tail (by simpa using hy), List.eraseP_cons_of_neg (by simpa using hne),
          ih (fun x hx => hinj x (List.mem_cons_of_mem y hx))]
  exact heq ▸ swapRemove_perm _ l

end HolyTls

import HolyTls.Lib.LinkedQueue
import HolyTls.Lib.Runs

/-!
# `Capi.Async` — the asynchronous C API

`holytls_async_client`: any number of threads submit requests, one loop thread takes them off the submit
queue and dispatches them, and one foreign thread drains the responses. Two intrusive queues are shared: the
submit queue (`qhead`, `qtail`, under `qlock`) and the completion FIFO (`chead`, `ctail`, under `clock`).

The model is one step function over the events of all threads. A section under a mutex is one event, and so
is a read or a write of the completion pipe; what a thread does on memory that only it can reach is merged
with the section next to it. The completion queue is enabled and its pipe exists, as the header asks for
before the loop thread starts. A node is named by a number that is never used again, so a freed node keeps
its name.

Fields named as history do not exist in the source: they record what the calls returned and what was
dispatched, delivered and drained.
-/

namespace HolyTls

open LinkedQueue

abbrev SubmitId := Nat
abbrev CtxId := Nat
abbrev ThreadId := Nat

/-- `AsyncSubmit`: the deep copy `req` of a request (with the session it runs on, if any) and the id its
    response is echoed with. -/
structure AsyncSubmit (κ : Type) where
  req : κ
  reqId : UInt64
deriving Inhabited

/-- `AsyncCtx`: what is kept of a request while it is in flight; `resp` is its response afterwards, `none` for
    the null pointer. -/
structure AsyncCtx (ρ : Type) where
  reqId : UInt64 := 0
  resp : Option ρ := none

/-- `holytls_completion` -/
structure Completion (ρ : Type) where
  reqId : UInt64
  resp : Option ρ
deriving DecidableEq

/-- What becomes of a submit that the loop thread took off the queue. An error response that cannot be
    allocated is not delivered: then `told` is false and the callback does not run. -/
inductive Outcome where
  | dispatched
  | closing (told : Bool)
  | outOfMemory (told : Bool)
deriving DecidableEq

/-- Where a thread is in `holytls_async_submit`, `_submit_many`, `_session_submit` or `holytls_async_stop`. -/
inductive CallerPc where
  | idle
  /-- has the copies in the local list `sub`; the history `ids` names them -/
  | copied (sub : Ends SubmitId) (ids : List SubmitId)
  /-- has left the section under `qlock` and is to call `uv_async_send` -/
  | sending
deriving Inhabited

/-- Where the loop thread is in `on_async`. -/
inductive LoopPc where
  | idle
  /-- in the loop over the detached batch, at `s`; `stopping` as it was read with the batch -/
  | batch (s : Option SubmitId) (stopping : Bool)

/-- Where the draining thread is: it waits, reads the pipe until it is empty, and then drains until a call
    returns fewer than it asked for. -/
inductive DrainerPc where
  | waiting
  | emptying
  | draining
deriving DecidableEq

/-- The submitting half of the client. -/
structure SubmitSide (κ : Type) where
  node : SubmitId → AsyncSubmit κ
  next : SubmitId → Option SubmitId := fun _ => none
  fresh : SubmitId := 0
  queue : Ends SubmitId := {}
  stopping : Bool := false
  /-- a `uv_async_send` the loop thread has not run `on_async` for -/
  wake : Bool := false
  caller : ThreadId → CallerPc := fun _ => .idle
  loop : LoopPc := .idle
  /-- `uv_stop` was called -/
  stopped : Bool := false
  /-- history: the thread that made the copy -/
  owner : SubmitId → ThreadId := fun _ => 0
  /-- history: for each thread, in program order, the submits of each call and whether it returned 1 -/
  results : ThreadId → List (List SubmitId × Bool) := fun _ => []
  /-- history: the submits put on the queue, in that order -/
  accepted : List SubmitId := []
  /-- history: the submits that were queued when `on_async` read `stopping` as set -/
  atStop : List SubmitId := []
  /-- history: the submits taken off the batch, and what became of them -/
  handled : List (SubmitId × Outcome) := []

/-- The completing half of the client. -/
structure CompletionSide (ρ : Type) where
  ctx : CtxId → AsyncCtx ρ := fun _ => {}
  cnext : CtxId → Option CtxId := fun _ => none
  fresh : CtxId := 0
  inflight : List CtxId := []
  fifo : Ends CtxId := {}
  /-- the loop thread has found the FIFO empty and is to write its byte -/
  signal : Bool := false
  /-- bytes in the pipe -/
  pipe : Nat := 0
  drainer : DrainerPc := .waiting
  /-- history: what `on_async_response` has put on the FIFO -/
  delivered : List (Completion ρ) := []
  /-- history: what the calls of `holytls_async_drain` have written to `out` -/
  drained : List (Completion ρ) := []

structure AsyncClient (κ ρ : Type) where
  sub : SubmitSide κ
  comp : CompletionSide ρ

/-! ## Submitting -/

section

variable {κ ρ : Type}

/-- `async_submit_copy`, and the new node appended to the local list. -/
def asyncSubmitCopy (t : ThreadId) (c : SubmitSide κ × Ends SubmitId × List SubmitId) (r : AsyncSubmit κ) :
    SubmitSide κ × Ends SubmitId × List SubmitId :=
  let a := c.1
  let s := a.fresh
  let linked := push a.next c.2.1 s
  ({ a with
      node := Function.update a.node s r
      next := linked.1
      fresh := s + 1
      owner := Function.update a.owner s t }, linked.2, c.2.2 ++ [s])

/-- The call of thread `t` returns. -/
def SubmitSide.returns (a : SubmitSide κ) (t : ThreadId) (ids : List SubmitId) (ok : Bool) (pc : CallerPc) :
    SubmitSide κ :=
  { a with
    results := Function.update a.results t (a.results t ++ [(ids, ok)])
    caller := Function.update a.caller t pc }

/-- A submit call up to its lock: an empty `submit_many` returns 1 at once, and a missing url or a copy that
    fails (`ok` false) returns 0 with the copies freed. The single calls are the case of one request. -/
def asyncSubmitMany (a : SubmitSide κ) (t : ThreadId) (reqs : List (AsyncSubmit κ)) (ok : Bool) :
    Option (SubmitSide κ) :=
  match a.caller t with
  | .idle =>
    if reqs.isEmpty then some (a.returns t [] true .idle)
    else if ok then
      let c := reqs.foldl (asyncSubmitCopy t) (a, {}, [])
      some { c.1 with caller := Function.update c.1.caller t (.copied c.2.1 c.2.2) }
    else some (a.returns t [] false .idle)
  | _ => none

/-- The section of a submit call under `qlock`: rejected once `stopping` is set, else spliced. -/
def asyncSubmitLocked (a : SubmitSide κ) (t : ThreadId) : Option (SubmitSide κ) :=
  match a.caller t with
  | .copied sub ids =>
    if a.stopping then some (a.returns t ids false .idle)
    else
      let linked := link a.next a.queue sub
      some { (a.returns t ids true .sending) with
        next := linked.1
        queue := linked.2
        accepted := a.accepted ++ ids }
  | _ => none

/-- The section of `holytls_async_stop` under `qlock`. -/
def asyncStop (a : SubmitSide κ) (t : ThreadId) : Option (SubmitSide κ) :=
  match a.caller t with
  | .idle => some { a with stopping := true, caller := Function.update a.caller t .sending }
  | _ => none

/-- `uv_async_send`: sends coalesce. -/
def uvAsyncSend (a : SubmitSide κ) (t : ThreadId) : Option (SubmitSide κ) :=
  match a.caller t with
  | .sending => some { a with wake := true, caller := Function.update a.caller t .idle }
  | _ => none

/-! ## The loop thread -/

/-- The section of `on_async` under `qlock`: detach the whole queue. -/
def onAsyncDetach (a : SubmitSide κ) : Option (SubmitSide κ) :=
  match a.loop with
  | .idle =>
    if a.wake then
      some { a with
        loop := .batch a.queue.head a.stopping
        queue := {}
        wake := false
        atStop := if a.stopping then a.atStop ++ follow a.next a.fresh a.queue.head else a.atStop }
    else none
  | .batch _ _ => none

/-- A new context for the submit `r`, linked into the in-flight list. -/
def CompletionSide.track (c : CompletionSide ρ) (r : AsyncSubmit κ) : CompletionSide ρ :=
  { c with
    ctx := Function.update c.ctx c.fresh { reqId := r.reqId }
    fresh := c.fresh + 1
    inflight := c.fresh :: c.inflight }

/-- One round of the loop of `on_async`. `alloc` says whether the context could be allocated, `told` whether
    the error response could. -/
def onAsyncItem (a : AsyncClient κ ρ) (alloc told : Bool) : Option (AsyncClient κ ρ) :=
  match a.sub.loop with
  | .batch (some s) stopping =>
    let outcome : Outcome :=
      if stopping then .closing told else if alloc then .dispatched else .outOfMemory told
    some {
      sub := { a.sub with
        loop := .batch (a.sub.next s) stopping
        handled := a.sub.handled ++ [(s, outcome)] }
      comp := if outcome = .dispatched then a.comp.track (a.sub.node s) else a.comp }
  | _ => none

/-- The end of `on_async`: `uv_stop` if it saw `stopping`. -/
def onAsyncEnd (a : SubmitSide κ) : Option (SubmitSide κ) :=
  match a.loop with
  | .batch none stopping => some { a with loop := .idle, stopped := a.stopped || stopping }
  | _ => none

/-- `on_async_response`: unlink the context from the in-flight list and push it on the FIFO. -/
def onAsyncResponse (c : CompletionSide ρ) (cx : CtxId) (resp : Option ρ) : Option (CompletionSide ρ) :=
  if cx ∈ c.inflight then
    let linked := push c.cnext c.fifo cx
    some { c with
      inflight := c.inflight.erase cx
      ctx := Function.update c.ctx cx { c.ctx cx with resp := resp }
      cnext := linked.1
      fifo := linked.2
      signal := c.fifo.head.isNone
      delivered := c.delivered ++ [{ reqId := (c.ctx cx).reqId, resp := resp }] }
  else none

/-- `async_completion_signal`: a write to a full pipe is dropped. -/
def asyncCompletionSignal (capacity : Nat) (c : CompletionSide ρ) : Option (CompletionSide ρ) :=
  if c.signal then some { c with signal := false, pipe := if c.pipe < capacity then c.pipe + 1 else c.pipe }
  else none

/-! ## The draining thread -/

def CompletionSide.completion (c : CompletionSide ρ) (cx : CtxId) : Completion ρ :=
  { reqId := (c.ctx cx).reqId, resp := (c.ctx cx).resp }

/-- `holytls_async_drain`: detach up to `max` nodes under `clock`, then copy them out. -/
def asyncDrain (c : CompletionSide ρ) (max : Nat) : Option (CompletionSide ρ) :=
  if c.drainer = .draining ∧ 0 < max then
    let taken := takeUpTo c.cnext c.fifo max
    let out := (follow taken.1 taken.2.2 c.fifo.head).map c.completion
    some { c with
      cnext := taken.1
      fifo := taken.2.1
      drainer := if out.length < max then .waiting else .draining
      drained := c.drained ++ out }
  else none

/-- The draining thread starts a round: because the pipe has become readable, or on its own. -/
def drainerWakes (c : CompletionSide ρ) : Option (CompletionSide ρ) :=
  if c.drainer = .waiting then some { c with drainer := .emptying } else none

/-- A `read` of up to `k` bytes from the pipe; a read that finds it empty ends the emptying. -/
def drainerReads (c : CompletionSide ρ) (k : Nat) : Option (CompletionSide ρ) :=
  if c.drainer = .emptying ∧ 0 < k then
    some { c with pipe := c.pipe - k, drainer := if c.pipe = 0 then .draining else .emptying }
  else none

/-! ## Steps of the client -/

inductive AsyncEvent (κ ρ : Type) where
  | copy (t : ThreadId) (reqs : List (AsyncSubmit κ)) (ok : Bool)
  | enqueue (t : ThreadId)
  | stop (t : ThreadId)
  | send (t : ThreadId)
  | detach
  | item (alloc told : Bool)
  | finish
  | respond (cx : CtxId) (resp : Option ρ)
  | write
  | wakes
  | reads (k : Nat)
  | drain (max : Nat)

/-- One step of one thread. While it is between the FIFO's lock and the write, the loop thread does nothing
    else. -/
def asyncStep (capacity : Nat) (a : AsyncClient κ ρ) : AsyncEvent κ ρ → Option (AsyncClient κ ρ)
  | .copy t reqs ok => (asyncSubmitMany a.sub t reqs ok).map ({ a with sub := · })
  | .enqueue t => (asyncSubmitLocked a.sub t).map ({ a with sub := · })
  | .stop t => (asyncStop a.sub t).map ({ a with sub := · })
  | .send t => (uvAsyncSend a.sub t).map ({ a with sub := · })
  | .detach => if a.comp.signal then none else (onAsyncDetach a.sub).map ({ a with sub := · })
  | .item alloc told => if a.comp.signal then none else onAsyncItem a alloc told
  | .finish => if a.comp.signal then none else (onAsyncEnd a.sub).map ({ a with sub := · })
  | .respond cx resp =>
    if a.comp.signal then none else (onAsyncResponse a.comp cx resp).map ({ a with comp := · })
  | .write => (asyncCompletionSignal capacity a.comp).map ({ a with comp := · })
  | .wakes => (drainerWakes a.comp).map ({ a with comp := · })
  | .reads k => (drainerReads a.comp k).map ({ a with comp := · })
  | .drain max => (asyncDrain a.comp max).map ({ a with comp := · })

/-- A client as `holytls_async_client_new_named` makes it. -/
def asyncInit [Inhabited κ] : AsyncClient κ ρ := { sub := { node := fun _ => default }, comp := {} }

/-- The states that interleavings of the threads lead to. -/
def AsyncReachable [Inhabited κ] (capacity : Nat) : AsyncClient κ ρ → Prop :=
  Runs.Reach (· = asyncInit) (asyncStep capacity) (fun _ _ => True)

end

end HolyTls

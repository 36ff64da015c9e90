import HolyTls.Core.RequestOnce
import HolyTls.H1.Session

/-!
# `Core.H1Request` — a request on a connection of its own, down to the bytes (`src/core/client.c`)

`Core.Request` takes what a protocol session reports as given. Here the HTTP/1.1 session is the one of
`H1.Session`: the driver feeds it what it reads from the connection, and tells it when the connection ends.
Every step is a step of `Core.Request` (`wireStep_refines`), so what holds of requests there holds here.

A body that ends with the connection is complete only when the connection ends well. `h2req_on_closed` ends
the body whatever the reason it is given, so a connection that is reset in the middle of such a body counts
as the end of it (`wireClosed_iff`).
-/

namespace HolyTls

open Runs

/-- `H2Request` with its HTTP/1.1 session, which is in use while `session` says that HTTP/1.1 is spoken.
    `isHead`: the method is HEAD. -/
structure WireRequest extends H2Request where
  isHead : Bool := false
  h1 : H1Session := { isHead := false }

/-- One round of `h2req_drain`: the bytes read, and what `h2_session_recv` makes of them where HTTP/2 is
    spoken. -/
structure WireRead where
  data : Str8
  h2 : Recv := {}

/-- The callbacks of a TCP request, with the bytes that are read. -/
inductive WireEvent
  | earlyReady (o : SendOutcome)
  | handshakeDone (o : SendOutcome) (reads : List WireRead)
  | earlyRejected
  | failed (err : Str8)
  | readable (reads : List WireRead)
  | peerClosed (err : Option Str8)
  | timeout
  | fullyClosed

section

variable (phr : Phr) (decode : Str8 → Str8 → Option Str8)

/-- What a call on the HTTP/1.1 session comes to: `h1req_on_response` for the response it reports. -/
def h1reqCall (q : WireRequest) (call : H1Call) : WireRequest :=
  { q with
    h1 := call.sess
    toH2Request := (call.resp.toList.map H1Response.response).foldl (tcpDeliver decode) q.toH2Request }

/-- An HTTP/1.1 session reports nothing during a submit, but a write may be refused. -/
def SendOutcome.onWire (o : SendOutcome) : SendOutcome :=
  { o with during := if o.alpnH2 then o.during else o.during.filter SubmitEvent.isFailure }

/-- `h2req_send_request`, and whether it succeeded. -/
def wireSendRequest (q : WireRequest) (o : SendOutcome) : WireRequest × Bool :=
  let sent := h2reqSendRequest decode q.toH2Request o.onWire
  ({ q with toH2Request := sent.1, h1 := h1SessionStart q.isHead }, sent.2)

/-- What the session makes of a round of `h2req_drain`, and whether it succeeds. -/
def wireRecv (q : WireRequest) (rd : WireRead) : Session → WireRequest × Bool
  | .h2 => ({ q with toH2Request := rd.h2.responses.foldl (tcpDeliver decode) q.toH2Request }, rd.h2.ok)
  | .h1 =>
    let call := h1SessionRecv phr q.h1 rd.data
    (h1reqCall decode q call, call.ok)

/-- The loop of `h2req_drain`. -/
def wireDrainLoop (q : WireRequest) : List WireRead → WireRequest
  | [] => q
  | rd :: reads =>
    match q.session with
    | none => q
    | some s =>
      let res := wireRecv phr decode q rd s
      if !res.2 then
        let err := if s = .h2 then lit "h2 protocol error" else lit "h1 parse error"
        { res.1 with toH2Request := h2reqFail res.1.toH2Request err }
      else if res.1.closing then res.1
      else wireDrainLoop res.1 reads

/-- `h2req_drain`. -/
def wireDrain (q : WireRequest) (reads : List WireRead) : WireRequest :=
  if q.closing then q else wireDrainLoop phr decode q reads

/-- `h2req_on_ready` with `ok = 1`. -/
def wireOnReady (q : WireRequest) (o : SendOutcome) (reads : List WireRead) : WireRequest :=
  if q.submitted then wireDrain phr decode q reads
  else
    let sent := wireSendRequest decode q o
    if sent.2 then wireDrain phr decode sent.1 reads else sent.1

/-- `h2req_on_closed`. -/
def wireOnClosed (q : WireRequest) (err : Option Str8) : WireRequest :=
  -- a clean EOF finalizes a close-delimited HTTP/1.1 body; nothing asks whether it is one
  let q := if q.session = some .h1 && !q.responded then h1reqCall decode q (h1SessionEof q.h1) else q
  if q.responded then q
  else { q with toH2Request := h2reqFail q.toH2Request (err.getD (lit "connection closed")) }

/-- `h2req_start` on a URL it accepts. -/
def wireStart (isHead onChunk timeout earlyOk : Bool) : WireRequest :=
  { toH2Request := h2reqStart onChunk timeout earlyOk, isHead := isHead }

/-- The callback, without the bytes. -/
def WireEvent.shape : WireEvent → TcpEvent
  | earlyReady o => .earlyReady o
  | handshakeDone o _ => .handshakeDone o []
  | earlyRejected => .earlyRejected
  | failed err => .failed err
  | readable _ => .readable []
  | peerClosed err => .peerClosed err []
  | timeout => .timeout
  | fullyClosed => .fullyClosed

/-- What a callback does. -/
def wireHandle (q : WireRequest) : WireEvent → WireRequest
  | .earlyReady o =>
    (wireSendRequest decode { q with conn := { q.conn with state := .earlyData, earlyFired := true } } o).1
  | .handshakeDone o reads =>
    wireOnReady phr decode
      { q with conn := { q.conn with state := .established, handshaken := true, readyFired := true } } o reads
  | .readable reads => wireDrain phr decode q reads
  | .peerClosed err => wireOnClosed decode { q with conn := { q.conn with state := .closing } } err
  -- the other callbacks do not touch the session
  | e => { q with toH2Request := tcpHandle decode q.toH2Request e.shape }

/-- One step of a TCP request. -/
def wireStep (q : WireRequest) (e : WireEvent) : Option WireRequest :=
  if !q.released && tcpEnabled q.toH2Request e.shape then some (wireHandle phr decode q e) else none

end

/-! ## Every step is a step of `Core.Request` -/

section

variable (phr : Phr) (decode : Str8 → Str8 → Option Str8) (q : WireRequest)

theorem wireRecv_refines (rd : WireRead) (s : Session) : ∃ rd' : Recv,
    (wireRecv phr decode q rd s).1.toH2Request = rd'.responses.foldl (tcpDeliver decode) q.toH2Request ∧
      (wireRecv phr decode q rd s).2 = rd'.ok := by
  cases s with
  | h2 => exact ⟨rd.h2, rfl, rfl⟩
  | h1 => exact ⟨⟨_, (h1SessionRecv phr q.h1 rd.data).ok⟩, rfl, rfl⟩

theorem wireDrainLoop_refines (reads : List WireRead) : ∃ rds,
    (wireDrainLoop phr decode q reads).toH2Request = h2reqDrainLoop decode q.toH2Request rds := by
  induction reads generalizing q with
  | nil => exact ⟨[], rfl⟩
  | cons rd reads ih =>
    cases hs : q.session with
    | none =>
      refine ⟨[], ?_⟩
      unfold wireDrainLoop
      rw [hs]
      rfl
    | some s =>
      obtain ⟨rd', hreq, hok⟩ := wireRecv_refines phr decode q rd s
      obtain ⟨rds, hrest⟩ := ih (wireRecv phr decode q rd s).1
      refine ⟨rd' :: rds, ?_⟩
      unfold wireDrainLoop h2reqDrainLoop
      rw [hs]
      dsimp only
      rw [hok, ← hreq]
      split
      · rfl
      · split
        · rfl
        · exact hrest

theorem wireDrain_refines (reads : List WireRead) : ∃ rds,
    (wireDrain phr decode q reads).toH2Request = h2reqDrain decode q.toH2Request rds := by
  obtain ⟨rds, h⟩ := wireDrainLoop_refines phr decode q reads
  refine ⟨rds, ?_⟩
  unfold wireDrain h2reqDrain
  split
  · rfl
  · exact h

theorem wireOnReady_refines (o : SendOutcome) (reads : List WireRead) : ∃ o' rds,
    (wireOnReady phr decode q o reads).toH2Request = h2reqOnReady decode q.toH2Request o' rds := by
  unfold wireOnReady h2reqOnReady
  split
  · obtain ⟨rds, h⟩ := wireDrain_refines phr decode q reads
    exact ⟨o, rds, h⟩
  · obtain ⟨rds, h⟩ := wireDrain_refines phr decode (wireSendRequest decode q o).1 reads
    refine ⟨o.onWire, rds, ?_⟩
    dsimp only [wireSendRequest] at h ⊢
    split
    · exact h
    · rfl

theorem wireOnClosed_refines (err : Option Str8) : ∃ eof,
    (wireOnClosed decode q err).toH2Request = h2reqOnClosed decode q.toH2Request err eof := by
  refine ⟨(h1SessionEof q.h1).resp.toList.map H1Response.response, ?_⟩
  unfold wireOnClosed h2reqOnClosed
  split
  · dsimp only [h1reqCall]
    split <;> rfl
  · dsimp only
    split <;> rfl

end

variable {phr : Phr} {decode : Str8 → Str8 → Option Str8} {q q' : WireRequest} {r r' r'' : ReqState}

/-- **The driver refines the request**: each of its steps is a step of the request with some answers of the
    session. -/
theorem wireStep_refines {e : WireEvent} (h : wireStep phr decode q e = some q') :
    ∃ e', tcpStep decode q.toH2Request e' = some q'.toH2Request := by
  unfold wireStep at h
  split at h
  · next hen =>
      cases h
      simp only [Bool.and_eq_true] at hen
      obtain ⟨hrel, hen⟩ := hen
      -- the request takes a step of the same shape, which is enabled as well
      suffices hs : ∃ e', tcpEnabled q.toH2Request e' = true ∧
          tcpHandle decode q.toH2Request e' = (wireHandle phr decode q e).toH2Request by
        obtain ⟨e', hen', heq⟩ := hs
        refine ⟨e', ?_⟩
        unfold tcpStep
        rw [hrel, hen', heq]
        rfl
      cases e with
      | earlyReady o => exact ⟨.earlyReady o.onWire, hen, rfl⟩
      | handshakeDone o reads =>
        obtain ⟨o', rds, heq⟩ := wireOnReady_refines phr decode { q with
          conn := { q.conn with state := .established, handshaken := true, readyFired := true } } o reads
        exact ⟨.handshakeDone o' rds, hen, heq.symm⟩
      | earlyRejected => exact ⟨.earlyRejected, hen, rfl⟩
      | failed err => exact ⟨.failed err, hen, rfl⟩
      | readable reads =>
        obtain ⟨rds, heq⟩ := wireDrain_refines phr decode q reads
        exact ⟨.readable rds, hen, heq.symm⟩
      | peerClosed err =>
        obtain ⟨eof, heq⟩ := wireOnClosed_refines decode
          { q with conn := { q.conn with state := .closing } } err
        exact ⟨.peerClosed err eof, hen, heq.symm⟩
      | timeout => exact ⟨.timeout, hen, rfl⟩
      | fullyClosed => exact ⟨.fullyClosed, hen, rfl⟩
  · cases h

/-! ## An answered request hears nothing more -/

/-- An answered request stays answered, and its callback does not run again. -/
def Hushed (r r' : ReqState) : Prop :=
  r.responded = true → r'.responded = true ∧
    ∃ more, r'.log = r.log ++ more ∧ ∀ e ∈ more, e.isCallback = false

theorem Hushed.refl (r : ReqState) : Hushed r r :=
  fun h => ⟨h, [], (List.append_nil _).symm, fun _ he => (by cases he)⟩

theorem Hushed.trans (h : Hushed r r') (h' : Hushed r' r'') : Hushed r r'' := by
  intro hr
  obtain ⟨hr', more, hlog, hmore⟩ := h hr
  obtain ⟨hr'', more', hlog', hmore'⟩ := h' hr'
  refine ⟨hr'', more ++ more', by rw [hlog', hlog, List.append_assoc], ?_⟩
  intro e he
  exact (List.mem_append.mp he).elim (hmore e) (hmore' e)

/-- Nothing of it changes. -/
theorem Hushed.of_eq (hresp : r'.responded = r.responded) (hlog : r'.log = r.log) : Hushed r r' :=
  fun h => ⟨hresp.trans h, [], hlog.trans (List.append_nil _).symm, fun _ he => (by cases he)⟩

theorem Hushed.emit {e : ReqEffect} (he : e.isCallback = false) : Hushed r (r.emit e) := by
  intro h
  refine ⟨h, [e], rfl, ?_⟩
  intro x hx
  rw [List.mem_singleton.mp hx]
  exact he

section

variable {req : H2Request}

theorem h2reqFinish_hushed : Hushed req.toReqState (h2reqFinish req).toReqState := by
  unfold h2reqFinish
  split
  · exact .refl _
  · exact .of_eq rfl rfl

theorem h2reqFail_hushed (err : Str8) : Hushed req.toReqState (h2reqFail req err).toReqState := by
  refine Hushed.trans ?_ h2reqFinish_hushed
  intro h
  unfold h2reqDeliverError ReqState.deliverError
  rw [if_pos h]
  exact Hushed.refl _ h

theorem tcpDeliver_hushed (resp : Response) : Hushed req.toReqState (tcpDeliver decode req resp).toReqState := by
  intro h
  unfold tcpDeliver
  rw [if_pos h]
  exact Hushed.refl _ h

theorem h2reqConnFail_hushed (err : Str8) : Hushed req.toReqState (h2reqConnFail req err).toReqState := by
  unfold h2reqConnFail
  split
  · exact .of_eq rfl rfl
  · unfold h2reqOnReadyFailed
    split
    · exact .of_eq rfl rfl
    · refine Hushed.trans ?_ (h2reqFail_hushed _)
      exact .refl _

theorem foldl_h2reqInner_hushed (inner : List SubmitEvent) : ∀ req : H2Request,
    Hushed req.toReqState (inner.foldl (h2reqInner decode) req).toReqState := by
  induction inner with
  | nil => exact fun req => .refl _
  | cons x inner ih =>
    intro req
    cases x with
    | failed err => exact (h2reqConnFail_hushed err).trans (ih _)
    | response resp => exact (tcpDeliver_hushed resp).trans (ih _)

theorem h2reqStartSession_hushed (o : SendOutcome) :
    Hushed req.toReqState (h2reqStartSession req o).toReqState := by
  unfold h2reqStartSession
  dsimp only
  split
  · cases o.startErr with
    | none => exact .refl _
    | some err =>
      refine Hushed.trans ?_ (h2reqConnFail_hushed err)
      exact .refl _
  · exact .refl _

theorem h2reqSendRequest_hushed (o : SendOutcome) :
    Hushed req.toReqState (h2reqSendRequest decode req o).1.toReqState := by
  have hstart : Hushed req.toReqState (h2reqStartSession req o).toReqState := h2reqStartSession_hushed o
  unfold h2reqSendRequest
  dsimp only
  split
  · exact hstart.trans (h2reqFail_hushed _)
  · have hsub : Hushed req.toReqState (o.during.foldl (h2reqInner decode) { h2reqStartSession req o with
        toReqState := (h2reqStartSession req o).emit .submit }).toReqState := by
      refine (hstart.trans ?_).trans (foldl_h2reqInner_hushed _ _)
      exact .emit rfl
    split
    · exact hsub.trans (h2reqFail_hushed _)
    · exact hsub.trans (.of_eq rfl rfl)

theorem h2reqDrainLoop_hushed (rds : List Recv) : ∀ req : H2Request,
    Hushed req.toReqState (h2reqDrainLoop decode req rds).toReqState := by
  induction rds with
  | nil => exact fun req => .refl _
  | cons rd rds ih =>
    intro req
    have hround : Hushed req.toReqState (rd.responses.foldl (tcpDeliver decode) req).toReqState := by
      have h : Hushed req.toReqState
          ((rd.responses.map .response).foldl (h2reqInner decode) req).toReqState :=
        foldl_h2reqInner_hushed _ _
      rwa [List.foldl_map] at h
    unfold h2reqDrainLoop
    split
    · exact .refl _
    · dsimp only
      split
      · exact hround.trans (h2reqFail_hushed _)
      · split
        · exact hround
        · exact hround.trans (ih _)

theorem h2reqDrain_hushed (rds : List Recv) :
    Hushed req.toReqState (h2reqDrain decode req rds).toReqState := by
  unfold h2reqDrain
  split
  · exact .refl _
  · exact h2reqDrainLoop_hushed rds req

theorem h2reqOnReady_hushed (o : SendOutcome) (rds : List Recv) :
    Hushed req.toReqState (h2reqOnReady decode req o rds).toReqState := by
  unfold h2reqOnReady
  split
  · exact h2reqDrain_hushed rds
  · dsimp only
    split
    · exact (h2reqSendRequest_hushed o).trans (h2reqDrain_hushed rds)
    · exact h2reqSendRequest_hushed o

theorem h2reqOnClosed_hushed (err : Option Str8) (eof : List Response) :
    Hushed req.toReqState (h2reqOnClosed decode req err eof).toReqState := by
  intro h
  unfold h2reqOnClosed
  rw [h]
  simp only [Bool.not_true, Bool.and_false, Bool.false_eq_true, if_false, h, if_true]
  exact ⟨trivial, (Hushed.refl _ h).2⟩

theorem h2reqOnFullyClosed_hushed : Hushed req.toReqState (h2reqOnFullyClosed req).toReqState := by
  unfold h2reqOnFullyClosed
  dsimp only
  split
  · exact (Hushed.of_eq rfl rfl).trans (.emit rfl)
  · exact .of_eq rfl rfl

/-- **An answered request hears nothing more**, whatever callback comes. -/
theorem tcpStep_hushed {req' : H2Request} {e : TcpEvent} (h : tcpStep decode req e = some req') :
    Hushed req.toReqState req'.toReqState := by
  unfold tcpStep at h
  split at h
  · cases h
    cases e with
    | failed err => exact h2reqConnFail_hushed err
    | readable rds => exact h2reqDrain_hushed rds
    | fullyClosed => exact h2reqOnFullyClosed_hushed
    -- the connection and the timer are no part of what was said
    | earlyReady o =>
      refine Hushed.trans ?_ (h2reqSendRequest_hushed o)
      exact .refl _
    | handshakeDone o rds =>
      refine Hushed.trans ?_ (h2reqOnReady_hushed o rds)
      exact .refl _
    | earlyRejected =>
      refine Hushed.trans ?_ (h2reqConnFail_hushed _)
      exact .refl _
    | peerClosed err eof =>
      refine Hushed.trans ?_ (h2reqOnClosed_hushed err eof)
      exact .refl _
    | timeout =>
      refine Hushed.trans ?_ (h2reqFail_hushed _)
      exact .of_eq rfl rfl
  · cases h

end

/-! ## The end of the connection -/

/-- The session is inside a body that ends with the connection, of a response that has a status. -/
def H1Session.openEnded (h : H1Session) : Bool := !h.delivered && h.state = .bodyClose && h.status ≠ 0

theorem h1SessionEof_resp (h : H1Session) :
    (∃ hr, (h1SessionEof h).resp = some hr ∧ hr.response.ok = h.openEnded) ∨
      (h1SessionEof h).resp = none ∧ h.openEnded = false := by
  unfold h1SessionEof H1Session.openEnded
  cases hdel : h.delivered with
  | true => exact .inr ⟨rfl, rfl⟩
  | false =>
    by_cases hstate : h.state = .bodyClose
    · left
      simp [hstate, h1Deliver, hdel, H1Response.response]
    · right
      simp [hstate]

theorem responseDecodeEncoding_ok (decode : Str8 → Str8 → Option Str8) (g : Response) :
    (responseDecodeEncoding decode g).ok = g.ok := by
  unfold responseDecodeEncoding
  split
  · rfl
  · split <;> rfl

/-- The callback is given the response, decoded, with or without its body. -/
theorem deliverResponse_log (decode : Str8 → Str8 → Option Str8) (r : ReqState) (resp : Response) :
    (r.deliverResponse decode resp).responded = true ∧
    ∃ more, (r.deliverResponse decode resp).log = r.log ++ more ∧ (∃ x, .callback x ∈ more) ∧
      ∀ x, .callback x ∈ more → x.ok = resp.ok := by
  have hok := responseDecodeEncoding_ok decode resp
  unfold ReqState.deliverResponse
  dsimp only
  split
  · refine ⟨rfl, [.chunk _, .callback _], List.append_assoc _ [_] [_],
      ⟨_, List.mem_cons_of_mem _ (List.mem_singleton.mpr rfl)⟩, ?_⟩
    intro x hx
    simp only [List.mem_cons, reduceCtorEq, ReqEffect.callback.injEq, List.not_mem_nil, or_false, false_or] at hx
    rw [hx]
    exact hok
  · refine ⟨rfl, [.callback _], rfl, ⟨_, List.mem_singleton.mpr rfl⟩, ?_⟩
    intro x hx
    simp only [List.mem_singleton, ReqEffect.callback.injEq] at hx
    rw [hx]
    exact hok

/-- **What a request is told when its connection ends**: a success exactly when its HTTP/1.1 session is
    inside a body that ends with the connection. -/
theorem wireOnClosed_told (decode : Str8 → Str8 → Option Str8) (hh1 : q.session = some .h1)
    (hresp : q.responded = false) (err : Option Str8) :
    (wireOnClosed decode q err).responded = true ∧
    ∃ more, (wireOnClosed decode q err).log = q.log ++ more ∧ (∃ x, .callback x ∈ more) ∧
      ∀ x, .callback x ∈ more → x.ok = q.h1.openEnded := by
  have hcond : (q.session = some .h1 && !q.responded) = true := by simp [hh1, hresp]
  unfold wireOnClosed
  rw [if_pos hcond]
  dsimp only [h1reqCall]
  rcases h1SessionEof_resp q.h1 with ⟨hr, heof, hok⟩ | ⟨heof, hno⟩
  · -- the session delivers what it has
    obtain ⟨hansw, more, hlog, hsome, hall⟩ := deliverResponse_log decode q.toReqState hr.response
    have hdel : (tcpDeliver decode q.toH2Request hr.response).toReqState =
        { q.deliverResponse decode hr.response with
          closing := (tcpDeliver decode q.toH2Request hr.response).closing } := by
      unfold tcpDeliver h2reqFinish
      rw [hresp, if_neg Bool.false_ne_true]
      split <;> rfl
    simp only [heof, Option.toList_some, List.map_cons, List.map_nil, List.foldl_cons, List.foldl_nil]
    rw [if_pos (by rw [hdel]; exact hansw), hdel]
    refine ⟨hansw, more, hlog, hsome, ?_⟩
    intro x hx
    rw [← hok]
    exact hall x hx
  · -- nothing to deliver, and the request fails
    simp only [heof, Option.toList_none, List.map_nil, List.foldl_nil]
    rw [if_neg (by rw [hresp]; exact Bool.false_ne_true)]
    have hfail : (h2reqFail q.toH2Request (err.getD (lit "connection closed"))).toReqState =
        { q.deliverError (err.getD (lit "connection closed")) with
          closing := (h2reqFail q.toH2Request (err.getD (lit "connection closed"))).closing } := by
      unfold h2reqFail h2reqFinish h2reqDeliverError
      split <;> rfl
    rw [hfail]
    unfold ReqState.deliverError
    rw [if_neg (by rw [hresp]; exact Bool.false_ne_true)]
    refine ⟨rfl, [.callback _], rfl, ⟨_, List.mem_singleton.mpr rfl⟩, ?_⟩
    intro x hx
    simp only [List.mem_singleton, ReqEffect.callback.injEq] at hx
    rw [hx, hno]

section

variable (phr decode)

/-- Steps in a row. -/
def WireLater : WireRequest → WireRequest → Prop :=
  Relation.ReflTransGen (fun q q' => ∃ e, wireStep phr decode q e = some q')

/-- The step from `q` to `q'` leaves the request answered, and neither in it nor later is the request
    delivered with `ok` set. -/
structure FailedAtClose (q q' : WireRequest) : Prop where
  answered : q'.responded = true
  never : ∀ q'', WireLater phr decode q' q'' →
    ∃ more, q''.log = q.log ++ more ∧ ∀ resp, .callback resp ∈ more → resp.ok = false

end

theorem WireLater.hushed (h : WireLater phr decode q q') : Hushed q.toReqState q'.toReqState := by
  induction h with
  | refl => exact .refl _
  | tail _ hs ih =>
    obtain ⟨e, hs⟩ := hs
    obtain ⟨e', hs'⟩ := wireStep_refines hs
    exact ih.trans (tcpStep_hushed hs')

/-- Nothing is said after an answer that was not a success. -/
theorem FailedAtClose.of_told {more : List ReqEffect} (hansw : q'.responded = true) (hlog : q'.log = q.log ++ more)
    (hno : ∀ resp, .callback resp ∈ more → resp.ok = false) : FailedAtClose phr decode q q' := by
  refine ⟨hansw, ?_⟩
  intro q'' hlater
  obtain ⟨-, more', hlog', hquiet⟩ := hlater.hushed hansw
  refine ⟨more ++ more', by rw [hlog', hlog, List.append_assoc], ?_⟩
  intro resp hmem
  rcases List.mem_append.mp hmem with hmem | hmem
  · exact hno resp hmem
  · cases hquiet _ hmem

/-- **When the end of the connection is taken for the end of the body.** Whatever the reason the connection
    ends for, the request fails unless it is unanswered and inside a body that ends with the connection. -/
theorem wireClosed_iff {err : Option Str8} (hs : wireStep phr decode q (.peerClosed err) = some q')
    (hh1 : q.session = some .h1) :
    FailedAtClose phr decode q q' ↔ ¬ (q.responded = false ∧ q.h1.openEnded = true) := by
  unfold wireStep at hs
  split at hs
  · cases hs
    dsimp only [wireHandle]
    cases hresp : q.responded with
    | true =>
      -- nothing happens to an answered request
      have hq : wireOnClosed decode { q with conn := { q.conn with state := .closing } } err =
          { q with conn := { q.conn with state := .closing } } := by
        unfold wireOnClosed
        simp [hresp]
      rw [hq]
      refine ⟨fun _ h => (by cases h.1), fun _ => ?_⟩
      refine .of_told hresp (List.append_nil _).symm ?_
      exact fun _ h => (by cases h)
    | false =>
      obtain ⟨hansw, more, hlog, ⟨x, hx⟩, hall⟩ := wireOnClosed_told decode
        (q := { q with conn := { q.conn with state := .closing } }) hh1 hresp err
      constructor
      · rintro ⟨-, hnever⟩ ⟨-, hopen⟩
        obtain ⟨more', hlog', hno⟩ := hnever _ .refl
        have hsame : more = more' := List.append_cancel_left (hlog.symm.trans hlog')
        have hok : x.ok = true := (hall x hx).trans hopen
        rw [hno x (hsame ▸ hx)] at hok
        cases hok
      · intro hcond
        refine .of_told hansw hlog ?_
        intro resp hmem
        rw [hall resp hmem]
        exact Bool.eq_false_iff.mpr (fun hopen => hcond ⟨rfl, hopen⟩)
  · cases hs

end HolyTls

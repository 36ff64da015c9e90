import HolyTls.Core.Header

/-!
# `H1.Session` — one HTTP/1.1 exchange (`src/h1/h1.c`)

A session parses one response from the bytes it is given. The header block is parsed by picohttpparser and
a chunked body decoded by it; the library is the parameter `Phr`, by its documented contract a function of
the bytes seen so far, however they were cut (`last_len` only saves work, and the state of the chunk decoder
is the bytes it has been fed).

A session reports its response through a callback as the last thing a call does, so here a call returns the
response it reports, if any, beside the session and whether it succeeded.
-/

namespace HolyTls

/-- `phr_parse_response` on the bytes so far. -/
inductive PhrResult
  | incomplete
  | malformed
  | complete (minor status consumed : Nat) (headers : List (Str8 × Str8))
deriving DecidableEq, Repr

/-- `phr_decode_chunked` on the bytes so far. -/
inductive ChunkStatus
  | incomplete
  | malformed
  | complete
deriving DecidableEq, Repr

/-- picohttpparser: the response head, and the payload of a chunked body with the decoder's status. -/
structure Phr where
  parseResponse : Str8 → PhrResult
  decodeChunked : Str8 → Str8 × ChunkStatus

/-- `H1State`. -/
inductive H1State
  | headers
  | bodyLength
  | bodyChunked
  | bodyClose
  | done
  | error
deriving DecidableEq, Repr

/-- `H1_MAX_HEADER_REGION`. -/
def h1MaxHeaderRegion : Nat := 64 * 1024

/-- `H1Session`; `encoded` are the bytes the chunk decoder was fed. -/
structure H1Session where
  isHead : Bool
  state : H1State := .headers
  inBuf : Str8 := []
  status : Nat := 0
  httpMinor : Nat := 0
  headers : HeaderList := []
  contentLength : Nat := 0
  body : Str8 := []
  encoded : Str8 := []
  delivered : Bool := false
deriving DecidableEq, Repr

/-- `H1Response`. -/
structure H1Response where
  status : Nat
  headers : HeaderList
  body : Str8
  ok : Bool
  keepAlive : Bool
deriving DecidableEq, Repr

/-- What a call on a session comes to: the session, the response it reported, and whether it succeeded. -/
structure H1Call where
  sess : H1Session
  resp : Option H1Response := none
  ok : Bool := true
deriving DecidableEq, Repr

/-- `h1_session_alloc` and the part of `h1_session_submit_request` that the response depends on. -/
def h1SessionStart (isHead : Bool) : H1Session := { isHead := isHead }

/-- `h1_compute_keep_alive`. -/
def h1ComputeKeepAlive (s : H1Session) : Bool :=
  if s.state = .bodyClose then false
  else
    let cn := headerListGetCi s.headers (lit "connection")
    if (cn.map (fun v => str8ContainsCi v (lit "close"))).getD false then false
    else if s.httpMinor ≥ 1 then true
    else (cn.map (fun v => str8ContainsCi v (lit "keep-alive"))).getD false

/-- `h1_deliver`. -/
def h1Deliver (s : H1Session) : H1Call :=
  if s.delivered then { sess := s }
  else
    { sess := { s with delivered := true, state := .done }
      resp := some { status := s.status, headers := s.headers, body := s.body, ok := s.status ≠ 0
                     keepAlive := h1ComputeKeepAlive s } }

section

variable (phr : Phr)

/-- `h1_feed_chunked`. -/
def h1FeedChunked (s : H1Session) (data : Str8) : H1Call :=
  if data = [] then { sess := s }
  else
    let encoded := s.encoded ++ data
    let s := { s with encoded := encoded, body := (phr.decodeChunked encoded).1 }
    match (phr.decodeChunked encoded).2 with
    | .malformed => { sess := s, ok := false }
    | .complete => h1Deliver s
    | .incomplete => { sess := s }

/-- `h1_feed_body`. -/
def h1FeedBody (s : H1Session) (data : Str8) : H1Call :=
  match s.state with
  | .bodyLength =>
    let s := { s with body := s.body ++ data.take (s.contentLength - s.body.length) }
    if s.body.length ≥ s.contentLength then h1Deliver s else { sess := s }
  | .bodyChunked =>
    let call := h1FeedChunked phr s data
    if call.ok then call else { call with sess := { call.sess with state := .error } }
  | .bodyClose => { sess := { s with body := s.body ++ data } }
  | _ => { sess := s }

/-- `h1_begin_body`: how the body ends is decided by the request method, the status and the headers. -/
def h1BeginBody (s : H1Session) : H1Call :=
  if s.isHead || s.status = 204 || s.status = 304 || (100 ≤ s.status && s.status < 200) then h1Deliver s
  else if ((headerListGetCi s.headers (lit "transfer-encoding")).map
      (fun v => str8ContainsCi v (lit "chunked"))).getD false then
    { sess := { s with state := .bodyChunked } }
  else
    match headerListGetCi s.headers (lit "content-length") with
    | some cl =>
      let s := { s with contentLength := str8ToU64 cl, state := .bodyLength }
      if s.contentLength = 0 then h1Deliver s else { sess := s }
    | none => { sess := { s with state := .bodyClose } }

/-- The header block is complete: copy it out and decide about the body. -/
def h1HeadersDone (s : H1Session) (minor status : Nat) (headers : List (Str8 × Str8)) : H1Session :=
  { s with
    status := status, httpMinor := minor
    headers := s.headers ++ ((headers.filter (fun h => !h.1.isEmpty)).map
      (fun h => { name := h.1, value := h.2 })) }

/-- `h1_session_recv`. -/
def h1SessionRecv (s : H1Session) (data : Str8) : H1Call :=
  match s.state with
  | .error => { sess := s, ok := false }
  | .done => { sess := s }
  | .headers =>
    let s := { s with inBuf := s.inBuf ++ data }
    if s.inBuf.length > h1MaxHeaderRegion then { sess := { s with state := .error }, ok := false }
    else
      match phr.parseResponse s.inBuf with
      | .incomplete => { sess := s }
      | .malformed => { sess := { s with state := .error }, ok := false }
      | .complete minor status consumed headers =>
        let call := h1BeginBody (h1HeadersDone s minor status headers)
        -- bytes behind the header block are body already
        if call.sess.state = .done || call.sess.state = .error || (s.inBuf.drop consumed).isEmpty then call
        else h1FeedBody phr call.sess (s.inBuf.drop consumed)
  | _ => h1FeedBody phr s data

end

/-- `h1_session_eof`. -/
def h1SessionEof (s : H1Session) : H1Call :=
  if s.delivered then { sess := s }
  else if s.state = .bodyClose then h1Deliver s
  else { sess := s }

/-! ## What is reported -/

/-- The response that a session reports, as the caller passes it on. -/
def H1Response.response (hr : H1Response) : Response :=
  { ok := hr.ok, status := hr.status, headers := hr.headers, body := hr.body }

/-- The response that a session stands for. -/
def H1Session.answer (h : H1Session) : Response :=
  { ok := h.status ≠ 0, status := h.status, headers := h.headers, body := h.body }

/-- What a call reports is the response of its session, which is then delivered. -/
def H1Call.Reports (call : H1Call) : Prop :=
  ∀ hr, call.resp = some hr → call.sess.delivered = true ∧ hr.response = call.sess.answer

theorem reports_of_none {call : H1Call} (h : call.resp = none) : call.Reports := by
  intro hr hr'
  rw [h] at hr'
  cases hr'

variable {phr : Phr} {s : H1Session} {data : Str8}

theorem h1Deliver_reports : (h1Deliver s).Reports := by
  unfold h1Deliver
  split
  · exact reports_of_none rfl
  · rintro hr ⟨⟩
    exact ⟨rfl, rfl⟩

theorem h1FeedChunked_reports : (h1FeedChunked phr s data).Reports := by
  unfold h1FeedChunked
  split
  · exact reports_of_none rfl
  · dsimp only
    split
    · exact reports_of_none rfl
    · exact h1Deliver_reports
    · exact reports_of_none rfl

theorem h1FeedBody_reports : (h1FeedBody phr s data).Reports := by
  unfold h1FeedBody
  split
  · dsimp only
    split
    · exact h1Deliver_reports
    · exact reports_of_none rfl
  · dsimp only
    split
    · exact h1FeedChunked_reports
    · exact h1FeedChunked_reports
  · exact reports_of_none rfl
  · exact reports_of_none rfl

theorem h1BeginBody_reports : (h1BeginBody s).Reports := by
  unfold h1BeginBody
  split
  · exact h1Deliver_reports
  · split
    · exact reports_of_none rfl
    · split
      · dsimp only
        split
        · exact h1Deliver_reports
        · exact reports_of_none rfl
      · exact reports_of_none rfl

theorem h1SessionRecv_reports : (h1SessionRecv phr s data).Reports := by
  unfold h1SessionRecv
  split
  · exact reports_of_none rfl
  · exact reports_of_none rfl
  · dsimp only
    split
    · exact reports_of_none rfl
    · split
      · exact reports_of_none rfl
      · exact reports_of_none rfl
      · split
        · exact h1BeginBody_reports
        · exact h1FeedBody_reports
  · exact h1FeedBody_reports

theorem h1SessionEof_reports : (h1SessionEof s).Reports := by
  unfold h1SessionEof
  split
  · exact reports_of_none rfl
  · split
    · exact h1Deliver_reports
    · exact reports_of_none rfl

end HolyTls

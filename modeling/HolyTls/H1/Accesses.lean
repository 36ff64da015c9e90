import HolyTls.H1.Session

/-!
# `H1.Accesses` — when the calls of an HTTP/1.1 session touch it

`H1.Session` gives what a call on a session comes to. Here the same functions are followed once more, for the
order in which they read or write the session (`touch`) and call the response callback (`reply`): a callback may
release the session, and what a function touches afterwards is then freed memory. Accesses between which
nothing else happens are one `touch`.

A call whose reply is its last act (`ReplyLast`) is safe. Every call is, except `h1_session_recv` when the head
it completes ends the response (`endsAtHead`): `h1_begin_body` then replies, and `h1_session_recv` goes on to
read `s->state`.
-/

namespace HolyTls

inductive H1Act where
  | touch
  | reply (hr : H1Response)
deriving DecidableEq

def H1Act.reply? : H1Act → Option H1Response
  | touch => none
  | reply hr => some hr

/-- `h1_deliver`. -/
def h1DeliverActs (s : H1Session) : List H1Act :=
  .touch :: (h1Deliver s).resp.toList.map .reply

section

variable (phr : Phr)

/-- `h1_feed_chunked`. -/
def h1FeedChunkedActs (s : H1Session) (data : Str8) : List H1Act :=
  if data = [] then []
  else
    let encoded := s.encoded ++ data
    let s := { s with encoded := encoded, body := (phr.decodeChunked encoded).1 }
    .touch :: match (phr.decodeChunked encoded).2 with
      | .malformed => []
      | .complete => h1DeliverActs s
      | .incomplete => []

/-- `h1_feed_body`. -/
def h1FeedBodyActs (s : H1Session) (data : Str8) : List H1Act :=
  .touch :: match s.state with
    | .bodyLength =>
      let s := { s with body := s.body ++ data.take (s.contentLength - s.body.length) }
      .touch :: if s.body.length ≥ s.contentLength then h1DeliverActs s else []
    | .bodyChunked =>
      -- `s->state = H1State_Error` after a failed decode
      h1FeedChunkedActs phr s data ++ if (h1FeedChunked phr s data).ok then [] else [.touch]
    | .bodyClose => [.touch]
    | _ => []

/-- `h1_begin_body`. -/
def h1BeginBodyActs (s : H1Session) : List H1Act :=
  .touch :: if s.isHead || s.status = 204 || s.status = 304 || (100 ≤ s.status && s.status < 200) then
    h1DeliverActs s
  else
    .touch :: if ((headerListGetCi s.headers (lit "transfer-encoding")).map
        (fun v => str8ContainsCi v (lit "chunked"))).getD false then
      [.touch]
    else
      match headerListGetCi s.headers (lit "content-length") with
      | some cl =>
        let s := { s with contentLength := str8ToU64 cl, state := .bodyLength }
        .touch :: if s.contentLength = 0 then h1DeliverActs s else []
      | none => [.touch]

/-- `h1_session_recv`. -/
def h1SessionRecvActs (s : H1Session) (data : Str8) : List H1Act :=
  .touch :: match s.state with
    | .error => []
    | .done => []
    | .headers =>
      let s := { s with inBuf := s.inBuf ++ data }
      .touch :: if s.inBuf.length > h1MaxHeaderRegion then [.touch]
      else
        match phr.parseResponse s.inBuf with
        | .incomplete => [.touch]
        | .malformed => [.touch]
        | .complete minor status consumed headers =>
          let s := h1HeadersDone s minor status headers
          let call := h1BeginBody s
          -- `s->state != H1State_Done && s->state != H1State_Error`, after `h1_begin_body` has returned
          .touch :: h1BeginBodyActs s ++ .touch ::
            if call.sess.state = .done || call.sess.state = .error then []
            else .touch :: if (s.inBuf.drop consumed).isEmpty then []
              else h1FeedBodyActs phr call.sess (s.inBuf.drop consumed)
    | _ => h1FeedBodyActs phr s data

end

/-- `h1_session_eof`. -/
def h1SessionEofActs (s : H1Session) : List H1Act :=
  .touch :: if s.delivered then [] else if s.state = .bodyClose then h1DeliverActs s else []

variable {phr : Phr} {s : H1Session} {data : Str8}

/-! ## The replies are those of the call -/

theorem h1DeliverActs_replies : (h1DeliverActs s).filterMap H1Act.reply? = (h1Deliver s).resp.toList := by
  rw [h1DeliverActs, List.filterMap_cons_none rfl, List.filterMap_map]
  exact List.filterMap_some

theorem h1FeedChunkedActs_replies :
    (h1FeedChunkedActs phr s data).filterMap H1Act.reply? = (h1FeedChunked phr s data).resp.toList := by
  unfold h1FeedChunkedActs h1FeedChunked
  split_ifs
  · rfl
  · dsimp only
    rw [List.filterMap_cons_none rfl]
    cases (phr.decodeChunked (s.encoded ++ data)).2 with
    | malformed | incomplete => rfl
    | complete => exact h1DeliverActs_replies

theorem h1FeedBodyActs_replies :
    (h1FeedBodyActs phr s data).filterMap H1Act.reply? = (h1FeedBody phr s data).resp.toList := by
  unfold h1FeedBodyActs h1FeedBody
  rw [List.filterMap_cons_none rfl]
  cases s.state with
  | bodyLength =>
    dsimp only
    rw [List.filterMap_cons_none rfl]
    split_ifs
    · exact h1DeliverActs_replies
    · rfl
  | bodyChunked =>
    dsimp only
    rw [List.filterMap_append, h1FeedChunkedActs_replies]
    split_ifs <;> simp [H1Act.reply?]
  | bodyClose | headers | done | error => rfl

theorem h1BeginBodyActs_replies :
    (h1BeginBodyActs s).filterMap H1Act.reply? = (h1BeginBody s).resp.toList := by
  unfold h1BeginBodyActs h1BeginBody
  rw [List.filterMap_cons_none rfl]
  split_ifs
  · exact h1DeliverActs_replies
  · rfl
  · rw [List.filterMap_cons_none rfl]
    cases headerListGetCi s.headers (lit "content-length") with
    | none => rfl
    | some cl =>
      dsimp only
      rw [List.filterMap_cons_none rfl]
      split_ifs
      · exact h1DeliverActs_replies
      · rfl

/-- A head that replies leaves the session done, and `h1_session_recv` stops there. -/
theorem h1Deliver_state (h : (h1Deliver s).resp ≠ none) : (h1Deliver s).sess.state = .done := by
  unfold h1Deliver at h ⊢
  split_ifs at h ⊢
  · exact absurd rfl h
  · rfl

theorem h1BeginBody_state (h : (h1BeginBody s).resp ≠ none) : (h1BeginBody s).sess.state = .done := by
  unfold h1BeginBody at h ⊢
  split_ifs at h ⊢
  · exact h1Deliver_state h
  · exact absurd rfl h
  · cases hcl : headerListGetCi s.headers (lit "content-length") with
    | none =>
      rw [hcl] at h
      exact absurd rfl h
    | some cl =>
      rw [hcl] at h
      dsimp only at h ⊢
      split_ifs at h ⊢
      · exact h1Deliver_state h
      · exact absurd rfl h

theorem h1SessionRecvActs_replies :
    (h1SessionRecvActs phr s data).filterMap H1Act.reply? = (h1SessionRecv phr s data).resp.toList := by
  unfold h1SessionRecvActs h1SessionRecv
  rw [List.filterMap_cons_none rfl]
  cases s.state with
  | bodyLength | bodyChunked | bodyClose => exact h1FeedBodyActs_replies
  | done | error => rfl
  | headers =>
    dsimp only
    rw [List.filterMap_cons_none rfl]
    split_ifs
    · rfl
    cases phr.parseResponse (s.inBuf ++ data) with
    | incomplete | malformed => rfl
    | complete minor status consumed headers =>
      dsimp only
      rw [List.filterMap_append, List.filterMap_cons_none rfl, List.filterMap_cons_none rfl,
        h1BeginBodyActs_replies]
      generalize hbegin : h1BeginBody _ = call
      by_cases hresp : call.resp = none
      · rw [hresp, Option.toList_none, List.nil_append]
        by_cases hstop : (call.sess.state = .done || call.sess.state = .error) = true
        · rw [if_pos hstop, if_pos (by rw [hstop]; rfl), hresp]
          rfl
        · rw [if_neg hstop, List.filterMap_cons_none rfl]
          rw [Bool.not_eq_true] at hstop
          rw [hstop, Bool.false_or]
          show List.filterMap _ (if (List.drop consumed (s.inBuf ++ data)).isEmpty = true then _ else _) = _
          split_ifs
          · rw [hresp]
            rfl
          · exact h1FeedBodyActs_replies
      · have hdone : call.sess.state = .done := by
          rw [← hbegin] at hresp ⊢
          exact h1BeginBody_state hresp
        simp [hdone]

theorem h1SessionEofActs_replies :
    (h1SessionEofActs s).filterMap H1Act.reply? = (h1SessionEof s).resp.toList := by
  unfold h1SessionEofActs h1SessionEof
  rw [List.filterMap_cons_none rfl]
  split_ifs
  · rfl
  · exact h1DeliverActs_replies
  · rfl

/-! ## The reply is the last act -/

/-- Nothing is touched after a reply. -/
def ReplyLast : List H1Act → Prop
  | [] => True
  | .touch :: l => ReplyLast l
  | .reply _ :: l => l = []

/-- The head by itself ends the response: the request was a HEAD, the status has no body, or the length is
    zero. -/
def H1Session.endsAtHead (s : H1Session) : Bool :=
  if s.isHead || s.status = 204 || s.status = 304 || (100 ≤ s.status && s.status < 200) then true
  else if ((headerListGetCi s.headers (lit "transfer-encoding")).map
      (fun v => str8ContainsCi v (lit "chunked"))).getD false then false
  else
    match headerListGetCi s.headers (lit "content-length") with
    | some cl => str8ToU64 cl = 0
    | none => false

/-- With `data` the head of the response is complete, and ends it. -/
def H1Session.endsWith (phr : Phr) (s : H1Session) (data : Str8) : Bool :=
  if s.state = .headers ∧ (s.inBuf ++ data).length ≤ h1MaxHeaderRegion then
    match phr.parseResponse (s.inBuf ++ data) with
    | .complete minor status _ headers =>
      (h1HeadersDone { s with inBuf := s.inBuf ++ data } minor status headers).endsAtHead
    | _ => false
  else false

theorem ReplyLast.append {l l' : List H1Act} (h : ∀ x ∈ l, x = .touch) (h' : ReplyLast l') : ReplyLast (l ++ l') := by
  induction l with
  | nil => exact h'
  | cons x l ih =>
    rw [h x List.mem_cons_self]
    exact ih (fun y hy => h y (List.mem_cons_of_mem x hy))

theorem h1DeliverActs_last : ReplyLast (h1DeliverActs s) := by
  rw [h1DeliverActs]
  cases (h1Deliver s).resp with
  | none => trivial
  | some hr => rfl

theorem h1FeedChunkedActs_last : ReplyLast (h1FeedChunkedActs phr s data) := by
  unfold h1FeedChunkedActs
  split_ifs
  · trivial
  · dsimp only
    cases (phr.decodeChunked (s.encoded ++ data)).2 with
    | malformed | incomplete => trivial
    | complete => exact h1DeliverActs_last

/-- A decode that fails has not replied. -/
theorem h1FeedChunkedActs_failed (h : (h1FeedChunked phr s data).ok = false) :
    ∀ x ∈ h1FeedChunkedActs phr s data, x = .touch := by
  unfold h1FeedChunked h1FeedChunkedActs at *
  split_ifs at h ⊢
  dsimp only at h ⊢
  cases hd : (phr.decodeChunked (s.encoded ++ data)).2 with
  | malformed => simp
  | incomplete =>
    rw [hd] at h
    cases h
  | complete =>
    rw [hd] at h
    dsimp only [h1Deliver] at h
    split_ifs at h

theorem h1FeedBodyActs_last : ReplyLast (h1FeedBodyActs phr s data) := by
  unfold h1FeedBodyActs
  cases s.state with
  | bodyLength =>
    dsimp only
    split_ifs
    · exact h1DeliverActs_last
    · trivial
  | bodyChunked =>
    dsimp only
    split_ifs with hok
    · rw [List.append_nil]
      exact h1FeedChunkedActs_last
    · exact ReplyLast.append (h1FeedChunkedActs_failed (by simpa using hok)) trivial
  | bodyClose | headers | done | error => trivial

theorem h1SessionEofActs_last : ReplyLast (h1SessionEofActs s) := by
  unfold h1SessionEofActs
  split_ifs
  · trivial
  · exact h1DeliverActs_last
  · trivial

/-- A head that does not end the response is not replied to. -/
theorem h1BeginBodyActs_silent (h : s.endsAtHead = false) : ∀ x ∈ h1BeginBodyActs s, x = .touch := by
  unfold H1Session.endsAtHead at h
  unfold h1BeginBodyActs
  split_ifs at h ⊢ with hnone hchunked
  · simp
  · cases hcl : headerListGetCi s.headers (lit "content-length") with
    | none => simp
    | some cl =>
      rw [hcl] at h
      have hlen : str8ToU64 cl ≠ 0 := by simpa using h
      simp [hlen]

theorem h1SessionRecvActs_last (h : s.endsWith phr data = false) : ReplyLast (h1SessionRecvActs phr s data) := by
  unfold H1Session.endsWith at h
  unfold h1SessionRecvActs
  cases hstate : s.state with
  | bodyLength | bodyChunked | bodyClose => exact h1FeedBodyActs_last
  | done | error => trivial
  | headers =>
    dsimp only
    split_ifs with hlong
    · trivial
    rw [if_pos ⟨hstate, Nat.le_of_not_lt hlong⟩] at h
    cases hparse : phr.parseResponse (s.inBuf ++ data) with
    | incomplete | malformed => trivial
    | complete minor status consumed headers =>
      rw [hparse, hstate] at h
      dsimp only at h ⊢
      refine ReplyLast.append (l := .touch :: h1BeginBodyActs _) ?_ ?_
      · intro x hx
        rcases List.mem_cons.mp hx with hx | hx
        · exact hx
        · exact h1BeginBodyActs_silent h x hx
      · show ReplyLast (if _ then _ else _)
        split_ifs
        · trivial
        · trivial
        · exact h1FeedBodyActs_last

end HolyTls

import HolyTls.H1.Phr

/-!
# `H1.Answer` — what a stream of response bytes stands for

`h1Outcome` reads a whole response at once: the header block first, then the body as its framing says. A
session reads it as it arrives, in pieces. The two agree however the bytes are cut (`h1Feed_outcome`), as
long as the header block fits the session's buffer and picohttpparser keeps its contract: its verdict on
the bytes so far is final unless it is "incomplete".

`BodyAt` is the state of a session that has read a header block and some bytes of the body. It names the
outcome of these bytes, so that a step lemma for one call is all that an induction over the calls needs.
-/

namespace HolyTls

/-! ## The reference -/

/-- How the end of a body is found. -/
inductive H1Framing
  | empty
  | chunked
  | length (n : Nat)
  | close
deriving DecidableEq, Repr

/-- What the framing of a body depends on: the request's method, and the header block of the response. -/
structure H1Head where
  isHead : Bool
  minor : Nat
  status : Nat
  headers : HeaderList

/-- The header block as picohttpparser reports it; continuation lines have no name and are dropped. -/
def H1Head.ofParsed (isHead : Bool) (minor status : Nat) (fields : List (Str8 × Str8)) : H1Head :=
  { isHead := isHead, minor := minor, status := status
    headers := (fields.filter (fun h => !h.1.isEmpty)).map (fun h => { name := h.1, value := h.2 }) }

namespace H1Head

def contains (hd : H1Head) (name value : Str8) : Bool :=
  ((headerListGetCi hd.headers name).map (fun v => str8ContainsCi v value)).getD false

/-- No body for HEAD, for 204 and 304 and for an interim status; else chunked, else by length, else up to
    the end of the connection. -/
def framing (hd : H1Head) : H1Framing :=
  if hd.isHead || hd.status = 204 || hd.status = 304 || (100 ≤ hd.status && hd.status < 200) then .empty
  else if hd.contains (lit "transfer-encoding") (lit "chunked") then .chunked
  else
    match headerListGetCi hd.headers (lit "content-length") with
    | some cl => .length (str8ToU64 cl)
    | none => .close

/-- Whether the connection can carry another exchange. -/
def keepAlive (hd : H1Head) : Bool :=
  if hd.framing = .close then false
  else if hd.contains (lit "connection") (lit "close") then false
  else if hd.minor ≥ 1 then true
  else hd.contains (lit "connection") (lit "keep-alive")

def response (hd : H1Head) (body : Str8) : H1Response :=
  { status := hd.status, headers := hd.headers, body := body, ok := hd.status ≠ 0, keepAlive := hd.keepAlive }

end H1Head

/-- What comes of a stream of bytes: a response, an error, or nothing yet. -/
structure H1Outcome where
  resp : Option H1Response := none
  failed : Bool := false
deriving DecidableEq, Repr

/-- What comes of the bytes behind a header block; `eof` says that the connection has ended. -/
def bodyOutcome (phr : Phr) (hd : H1Head) (body : Str8) (eof : Bool) : H1Outcome :=
  match hd.framing with
  | .empty => { resp := some (hd.response []) }
  | .chunked  =>
    match (phr.decodeChunked body).2 with
    | .complete => { resp := some (hd.response (phr.decodeChunked body).1) }
    | .malformed => { failed := true }
    | .incomplete => {}
  | .length n => if n ≤ body.length then { resp := some (hd.response (body.take n)) } else {}
  | .close => if eof then { resp := some (hd.response body) } else {}

/-- What comes of a stream of bytes. -/
def h1Outcome (phr : Phr) (isHead : Bool) (x : Str8) (eof : Bool) : H1Outcome :=
  match phr.parseResponse x with
  | .incomplete => {}
  | .malformed => { failed := true }
  | .complete minor status consumed fields =>
    bodyOutcome phr (.ofParsed isHead minor status fields) (x.drop consumed) eof

/-! ## Sessions -/

/-- A session that was fed, the responses it reported, and whether a call failed. -/
structure H1Fed where
  sess : H1Session
  resps : List H1Response := []
  failed : Bool := false

/-- Feed the pieces one after another. -/
def h1Feed (phr : Phr) (s : H1Session) : List Str8 → H1Fed
  | [] => { sess := s }
  | d :: ds =>
    let call := h1SessionRecv phr s d
    let rest := h1Feed phr call.sess ds
    { sess := rest.sess, resps := call.resp.toList ++ rest.resps, failed := !call.ok || rest.failed }

/-- One exchange: feed the pieces to a new session, then the end of the connection if there is one. -/
def h1Exchange (phr : Phr) (isHead : Bool) (chunks : List Str8) (eof : Bool) : H1Fed :=
  let fed := h1Feed phr (h1SessionStart isHead) chunks
  if eof then
    let call := h1SessionEof fed.sess
    { sess := call.sess, resps := fed.resps ++ call.resp.toList, failed := fed.failed }
  else fed

/-! ## The state of a session -/

/-- The session has reported `body`. -/
structure H1Session.Done (s : H1Session) (body : Str8) : Prop where
  state : s.state = .done
  delivered : s.delivered = true
  body : s.body = body

/-- The session has read the header block `hd` and then the bytes `y`. -/
structure BodyAt (phr : Phr) (hd : H1Head) (y : Str8) (s : H1Session) : Prop where
  status : s.status = hd.status
  minor : s.httpMinor = hd.minor
  headers : s.headers = hd.headers
  rest : match hd.framing with
    | .empty => s.Done []
    | .chunked  =>
      match (phr.decodeChunked y).2 with
      | .complete => s.Done (phr.decodeChunked y).1
      | .malformed => s.state = .error ∧ s.delivered = false
      | .incomplete => s.state = .bodyChunked ∧ s.encoded = y ∧ s.body = (phr.decodeChunked y).1 ∧
          s.delivered = false
    | .length n =>
      if n ≤ y.length then s.Done (y.take n)
      else s.state = .bodyLength ∧ s.contentLength = n ∧ s.body = y ∧ s.delivered = false
    | .close => s.state = .bodyClose ∧ s.body = y ∧ s.delivered = false

/-- What a call reports that was made between the outcomes `o` and `o'`. -/
def newResp (o o' : H1Outcome) : Option H1Response := if o.resp.isSome then none else o'.resp

/-- The call leads from the bytes `y` to the bytes `y'` and reports what came of them. -/
structure Advances (phr : Phr) (hd : H1Head) (y y' : Str8) (call : H1Call) : Prop where
  sess : BodyAt phr hd y' call.sess
  resp : call.resp = newResp (bodyOutcome phr hd y false) (bodyOutcome phr hd y' false)
  ok : call.ok = !(bodyOutcome phr hd y' false).failed

section

variable {phr : Phr} {hd : H1Head} {s : H1Session} {x y d : Str8}

theorem h1ComputeKeepAlive_eq (hminor : s.httpMinor = hd.minor) (hheaders : s.headers = hd.headers)
    (hstate : s.state = .bodyClose ↔ hd.framing = .close) : h1ComputeKeepAlive s = hd.keepAlive := by
  unfold h1ComputeKeepAlive H1Head.keepAlive H1Head.contains
  simp only [hstate, hheaders, hminor]

theorem h1Deliver_eq (hd : H1Head) (hstatus : s.status = hd.status) (hminor : s.httpMinor = hd.minor)
    (hheaders : s.headers = hd.headers) (hstate : s.state = .bodyClose ↔ hd.framing = .close)
    (hdel : s.delivered = false) :
    h1Deliver s =
      { sess := { s with delivered := true, state := .done }, resp := some (hd.response s.body) } := by
  unfold h1Deliver H1Head.response
  rw [if_neg (by rw [hdel]; decide), h1ComputeKeepAlive_eq hminor hheaders hstate, hstatus, hheaders]

@[simp] theorem h1Deliver_ok : (h1Deliver s).ok = true := by
  unfold h1Deliver
  split <;> rfl

/-! ### One call in a body -/

theorem recv_done (hdone : s.state = .done) : h1SessionRecv phr s d = { sess := s } := by
  unfold h1SessionRecv
  rw [hdone]

theorem recv_error (herr : s.state = .error) : h1SessionRecv phr s d = { sess := s, ok := false } := by
  unfold h1SessionRecv
  rw [herr]

/-- A session that has reported its response ignores what follows. -/
theorem recv_empty (hf : hd.framing = .empty) (h : BodyAt phr hd y s) :
    Advances phr hd y (y ++ d) (h1SessionRecv phr s d) := by
  have hrest := h.rest
  rw [hf] at hrest
  rw [recv_done hrest.state]
  refine ⟨⟨h.status, h.minor, h.headers, ?_⟩, ?_, ?_⟩
  · rw [hf]
    exact hrest
  · simp only [bodyOutcome, hf, newResp, Option.isSome_some, if_true]
  · simp only [bodyOutcome, hf, Bool.not_false]

theorem recv_close (hf : hd.framing = .close) (h : BodyAt phr hd y s) :
    Advances phr hd y (y ++ d) (h1SessionRecv phr s d) := by
  have hrest := h.rest
  rw [hf] at hrest
  obtain ⟨hstate, hbody, hdel⟩ := hrest
  have hcall : h1SessionRecv phr s d = { sess := { s with body := s.body ++ d } } := by
    simp only [h1SessionRecv, h1FeedBody, hstate]
  rw [hcall]
  refine ⟨⟨h.status, h.minor, h.headers, ?_⟩, ?_, ?_⟩
  · rw [hf]
    exact ⟨hstate, by rw [hbody], hdel⟩
  · simp [bodyOutcome, hf, newResp]
  · simp [bodyOutcome, hf]

theorem recv_length {n : Nat} (hf : hd.framing = .length n) (h : BodyAt phr hd y s) :
    Advances phr hd y (y ++ d) (h1SessionRecv phr s d) := by
  have hrest := h.rest
  rw [hf] at hrest
  have hclose : hd.framing ≠ .close := by rw [hf]; nofun
  by_cases hn : n ≤ y.length
  · -- all `n` bytes were there before
    simp only [if_pos hn] at hrest
    have hn' : n ≤ (y ++ d).length := hn.trans (by simp)
    rw [recv_done hrest.state]
    refine ⟨⟨h.status, h.minor, h.headers, ?_⟩, ?_, ?_⟩
    · rw [hf]
      simp only [if_pos hn', List.take_append_of_le_length hn]
      exact hrest
    · simp [bodyOutcome, hf, newResp, hn]
    · simp only [bodyOutcome, hf, if_pos hn', Bool.not_false]
  · simp only [if_neg hn] at hrest
    obtain ⟨hstate, hlen, hbody, hdel⟩ := hrest
    have htake : y ++ d.take (n - y.length) = (y ++ d).take n := by
      rw [List.take_append, List.take_of_length_le (Nat.le_of_not_le hn)]
    have hcall : h1SessionRecv phr s d =
        if n ≤ ((y ++ d).take n).length then h1Deliver { s with body := (y ++ d).take n }
        else { sess := { s with body := (y ++ d).take n } } := by
      simp only [h1SessionRecv, h1FeedBody, hstate, hbody, hlen, htake, ge_iff_le]
    by_cases hn' : n ≤ (y ++ d).length
    · have hfull : n ≤ ((y ++ d).take n).length := by rw [List.length_take]; omega
      rw [hcall, if_pos hfull]
      have hdeliver := h1Deliver_eq (s := { s with body := (y ++ d).take n }) hd h.status h.minor h.headers
        (by simp only [hstate, hf, reduceCtorEq]) hdel
      rw [hdeliver]
      refine ⟨⟨h.status, h.minor, h.headers, ?_⟩, ?_, ?_⟩
      · rw [hf]
        simp only [if_pos hn']
        exact ⟨rfl, rfl, rfl⟩
      · simp only [bodyOutcome, hf, newResp, if_neg hn, if_pos hn', Option.isSome_none, Bool.false_eq_true,
          if_false]
      · simp only [bodyOutcome, hf, if_pos hn', Bool.not_false]
    · have hall : (y ++ d).take n = y ++ d := List.take_of_length_le (Nat.le_of_not_le hn')
      rw [hcall, hall, if_neg hn']
      refine ⟨⟨h.status, h.minor, h.headers, ?_⟩, ?_, ?_⟩
      · rw [hf]
        simp only [if_neg hn']
        exact ⟨hstate, hlen, trivial, hdel⟩
      · simp only [bodyOutcome, hf, newResp, if_neg hn, if_neg hn', Option.isSome_none, Bool.false_eq_true,
          if_false]
      · simp only [bodyOutcome, hf, if_neg hn', Bool.not_false]

theorem recv_chunked (hc : phr.Contract) (hf : hd.framing = .chunked) (h : BodyAt phr hd y s) :
    Advances phr hd y (y ++ d) (h1SessionRecv phr s d) := by
  have hrest := h.rest
  rw [hf] at hrest
  cases hst : (phr.decodeChunked y).2 with
  | complete =>
    simp only [hst] at hrest
    have hfin := hc.chunkFinal y d hst
    rw [recv_done hrest.state]
    refine ⟨⟨h.status, h.minor, h.headers, ?_⟩, ?_, ?_⟩
    · rw [hf]
      simp only [hfin, hst]
      exact hrest
    · simp [bodyOutcome, hf, newResp, hst]
    · simp [bodyOutcome, hf, hfin, hst]
  | malformed =>
    simp only [hst] at hrest
    have hfin := hc.chunkMalformed y d hst
    rw [recv_error hrest.1]
    refine ⟨⟨h.status, h.minor, h.headers, ?_⟩, ?_, ?_⟩
    · rw [hf]
      simp only [hfin]
      exact hrest
    · simp [bodyOutcome, hf, newResp, hst, hfin]
    · simp [bodyOutcome, hf, hfin]
  | incomplete =>
    simp only [hst] at hrest
    obtain ⟨hstate, henc, hbody, hdel⟩ := hrest
    by_cases hd' : d = []
    · -- an empty piece leaves the decoder alone
      subst hd'
      have hcall : h1SessionRecv phr s [] = { sess := s } := by
        simp [h1SessionRecv, h1FeedBody, h1FeedChunked, hstate]
      rw [hcall, List.append_nil]
      refine ⟨h, ?_, ?_⟩
      · simp [bodyOutcome, hf, newResp, hst]
      · simp [bodyOutcome, hf, hst]
    · cases hst' : (phr.decodeChunked (y ++ d)).2 with
      | complete =>
        have hdeliver := h1Deliver_eq
          (s := { s with encoded := y ++ d, body := (phr.decodeChunked (y ++ d)).1 }) hd
          h.status h.minor h.headers (by simp only [hstate, hf, reduceCtorEq]) hdel
        have hcall : h1SessionRecv phr s d =
            h1Deliver { s with encoded := y ++ d, body := (phr.decodeChunked (y ++ d)).1 } := by
          simp [h1SessionRecv, h1FeedBody, h1FeedChunked, hstate, hd', henc, hst']
        rw [hcall, hdeliver]
        refine ⟨⟨h.status, h.minor, h.headers, ?_⟩, ?_, ?_⟩
        · rw [hf]
          simp only [hst']
          exact ⟨rfl, rfl, rfl⟩
        · simp [bodyOutcome, hf, newResp, hst, hst']
        · simp [bodyOutcome, hf, hst']
      | malformed =>
        have hcall : h1SessionRecv phr s d =
            { sess := { s with encoded := y ++ d, body := (phr.decodeChunked (y ++ d)).1, state := .error }
              ok := false } := by
          simp [h1SessionRecv, h1FeedBody, h1FeedChunked, hstate, hd', henc, hst']
        rw [hcall]
        refine ⟨⟨h.status, h.minor, h.headers, ?_⟩, ?_, ?_⟩
        · rw [hf]
          simp only [hst']
          exact ⟨trivial, hdel⟩
        · simp [bodyOutcome, hf, newResp, hst, hst']
        · simp [bodyOutcome, hf, hst']
      | incomplete =>
        have hcall : h1SessionRecv phr s d =
            { sess := { s with encoded := y ++ d, body := (phr.decodeChunked (y ++ d)).1 } } := by
          simp [h1SessionRecv, h1FeedBody, h1FeedChunked, hstate, hd', henc, hst']
        rw [hcall]
        refine ⟨⟨h.status, h.minor, h.headers, ?_⟩, ?_, ?_⟩
        · rw [hf]
          simp only [hst']
          exact ⟨hstate, trivial, trivial, hdel⟩
        · simp [bodyOutcome, hf, newResp, hst, hst']
        · simp [bodyOutcome, hf, hst']

theorem BodyAt.recv (hc : phr.Contract) (h : BodyAt phr hd y s) :
    Advances phr hd y (y ++ d) (h1SessionRecv phr s d) := by
  cases hf : hd.framing with
  | empty => exact recv_empty hf h
  | chunked => exact recv_chunked hc hf h
  | length n => exact recv_length hf h
  | close => exact recv_close hf h

/-! ### The header block -/

/-- A response that has come stays, and so does an error. -/
theorem bodyOutcome_final (hc : phr.Contract)
    (h : (bodyOutcome phr hd y false).resp.isSome = true ∨ (bodyOutcome phr hd y false).failed = true) :
    bodyOutcome phr hd (y ++ d) false = bodyOutcome phr hd y false := by
  unfold bodyOutcome at h ⊢
  cases hf : hd.framing with
  | empty | close => rfl
  | length n =>
    simp only [hf] at h ⊢
    split at h
    · next hn =>
        have hn' : n ≤ (y ++ d).length := hn.trans (by simp)
        rw [if_pos hn, if_pos hn', List.take_append_of_le_length hn]
    · rcases h with h | h <;> cases h
  | chunked =>
    simp only [hf] at h ⊢
    cases hst : (phr.decodeChunked y).2 with
    | complete => rw [hc.chunkFinal y d hst, hst]
    | malformed => rw [hc.chunkMalformed y d hst]
    | incomplete =>
      simp only [hst] at h
      rcases h with h | h <;> cases h

theorem h1BeginBody_eq (hstatus : s.status = hd.status) (hheaders : s.headers = hd.headers)
    (hhead : s.isHead = hd.isHead) :
    h1BeginBody s =
      match hd.framing with
      | .empty => h1Deliver s
      | .chunked => { sess := { s with state := .bodyChunked } }
      | .length n =>
        if n = 0 then h1Deliver { s with contentLength := n, state := .bodyLength }
        else { sess := { s with contentLength := n, state := .bodyLength } }
      | .close => { sess := { s with state := .bodyClose } } := by
  unfold h1BeginBody H1Head.framing H1Head.contains
  rw [← hstatus, ← hheaders, ← hhead]
  split
  · rfl
  · split
    · rfl
    · cases headerListGetCi s.headers (lit "content-length") with
      | none | some cl => rfl

theorem h1BeginBody_advances (hc : phr.Contract) (hstatus : s.status = hd.status) (hminor : s.httpMinor = hd.minor)
    (hheaders : s.headers = hd.headers) (hhead : s.isHead = hd.isHead) (hstate : s.state = .headers)
    (hbody : s.body = []) (henc : s.encoded = []) (hdel : s.delivered = false) :
    BodyAt phr hd [] (h1BeginBody s).sess ∧ (h1BeginBody s).resp = (bodyOutcome phr hd [] false).resp ∧
      (h1BeginBody s).ok = true := by
  rw [h1BeginBody_eq hstatus hheaders hhead]
  cases hf : hd.framing with
  | empty =>
    dsimp only
    rw [h1Deliver_eq hd hstatus hminor hheaders (by simp only [hstate, hf, reduceCtorEq]) hdel]
    refine ⟨⟨hstatus, hminor, hheaders, ?_⟩, ?_, rfl⟩
    · rw [hf]
      exact ⟨rfl, rfl, hbody⟩
    · simp only [bodyOutcome, hf, hbody]
  | chunked =>
    refine ⟨⟨hstatus, hminor, hheaders, ?_⟩, ?_, rfl⟩
    · rw [hf]
      simp only [hc.chunkNil]
      exact ⟨trivial, henc, hbody, hdel⟩
    · simp only [bodyOutcome, hf, hc.chunkNil]
  | length n =>
    dsimp only
    split
    · next hzero =>
        -- the session delivers at once, with its length already set
        rw [h1Deliver_eq (s := { s with contentLength := n, state := .bodyLength }) hd hstatus hminor
          hheaders (by simp only [hf, reduceCtorEq]) hdel]
        refine ⟨⟨hstatus, hminor, hheaders, ?_⟩, ?_, rfl⟩
        · rw [hf, hzero]
          exact ⟨rfl, rfl, hbody⟩
        · simp only [bodyOutcome, hf, hzero, hbody, List.length_nil, Nat.le_refl, if_true, List.take_nil]
    · next hpos =>
        have hn : ¬ n ≤ 0 := by omega
        refine ⟨⟨hstatus, hminor, hheaders, ?_⟩, ?_, rfl⟩
        · rw [hf]
          simp only [List.length_nil, if_neg hn]
          exact ⟨trivial, trivial, hbody, hdel⟩
        · simp only [bodyOutcome, hf, List.length_nil, if_neg hn]
  | close =>
    refine ⟨⟨hstatus, hminor, hheaders, ?_⟩, ?_, rfl⟩
    · rw [hf]
      exact ⟨rfl, hbody, hdel⟩
    · simp [bodyOutcome, hf]

/-- What `h1_session_recv` does once the header block is there, with the bytes behind it. -/
def h1AfterHead (phr : Phr) (s : H1Session) (extra : Str8) : H1Call :=
  if (h1BeginBody s).sess.state = .done || (h1BeginBody s).sess.state = .error || extra.isEmpty then h1BeginBody s
  else h1FeedBody phr (h1BeginBody s).sess extra

theorem BodyAt.done_of_nil (hc : phr.Contract) (h : BodyAt phr hd [] s) :
    s.state = .done ∧ (bodyOutcome phr hd [] false).resp.isSome = true ∨
      (s.state = .bodyLength ∨ s.state = .bodyChunked ∨ s.state = .bodyClose) ∧
        (bodyOutcome phr hd [] false).resp = none := by
  have hrest := h.rest
  unfold bodyOutcome
  cases hf : hd.framing with
  | empty =>
    rw [hf] at hrest
    exact .inl ⟨hrest.state, rfl⟩
  | close =>
    rw [hf] at hrest
    exact .inr ⟨.inr (.inr hrest.1), rfl⟩
  | chunked =>
    rw [hf] at hrest
    simp only [hc.chunkNil] at hrest ⊢
    exact .inr ⟨.inr (.inl hrest.1), trivial⟩
  | length n =>
    rw [hf] at hrest
    dsimp only at hrest ⊢
    split at hrest
    · next hn =>
        rw [if_pos hn]
        exact .inl ⟨hrest.state, rfl⟩
    · next hn =>
        rw [if_neg hn]
        exact .inr ⟨.inl hrest.1, rfl⟩

theorem h1AfterHead_advances (hc : phr.Contract) {extra : Str8} (hstatus : s.status = hd.status)
    (hminor : s.httpMinor = hd.minor) (hheaders : s.headers = hd.headers) (hhead : s.isHead = hd.isHead)
    (hstate : s.state = .headers) (hbody : s.body = []) (henc : s.encoded = []) (hdel : s.delivered = false) :
    BodyAt phr hd extra (h1AfterHead phr s extra).sess ∧
      (h1AfterHead phr s extra).resp = (bodyOutcome phr hd extra false).resp ∧
      (h1AfterHead phr s extra).ok = !(bodyOutcome phr hd extra false).failed := by
  obtain ⟨hat, hresp, hok⟩ := h1BeginBody_advances hc hstatus hminor hheaders hhead hstate hbody henc hdel
  have hadv := hat.recv (d := extra) hc
  rw [List.nil_append] at hadv
  unfold h1AfterHead
  rcases hat.done_of_nil hc with ⟨hdone, hsome⟩ | ⟨hopen, hnone⟩
  · -- delivered already: the outcome does not change any more
    have hfinal := bodyOutcome_final (d := extra) hc (.inl hsome)
    rw [List.nil_append] at hfinal
    have hsess := hadv.sess
    have hok' := hadv.ok
    rw [recv_done hdone] at hsess hok'
    rw [if_pos (by simp [hdone]), hfinal]
    rw [hfinal] at hok'
    exact ⟨hsess, hresp, hok.trans hok'⟩
  · by_cases hex : extra = []
    · subst hex
      have hok' := hadv.ok
      rw [if_pos (by simp)]
      refine ⟨hat, hresp, ?_⟩
      rw [hok]
      cases hf : hd.framing with
      | empty | close => simp [bodyOutcome, hf]
      | chunked => simp [bodyOutcome, hf, hc.chunkNil]
      | length n =>
        simp only [bodyOutcome, hf]
        split <;> rfl
    · have hrecv : h1SessionRecv phr (h1BeginBody s).sess extra = h1FeedBody phr (h1BeginBody s).sess extra := by
        unfold h1SessionRecv
        rcases hopen with h | h | h <;> simp only [h]
      have hcond : ¬ (((h1BeginBody s).sess.state = .done || (h1BeginBody s).sess.state = .error ||
          extra.isEmpty) = true) := by
        rcases hopen with h | h | h <;> simp [h, hex]
      rw [if_neg hcond, ← hrecv]
      refine ⟨hadv.sess, ?_, hadv.ok⟩
      rw [hadv.resp, newResp, hnone]
      rfl

/-! ### Whole streams -/

/-- The session has read the bytes `x`. -/
def SessionAt (phr : Phr) (isHead : Bool) (x : Str8) (s : H1Session) : Prop :=
  match phr.parseResponse x with
  | .incomplete => s = { isHead := isHead, inBuf := x }
  | .malformed => s.state = .error ∧ s.delivered = false
  | .complete minor status consumed fields =>
    BodyAt phr (.ofParsed isHead minor status fields) (x.drop consumed) s

variable {isHead : Bool}

theorem h1Outcome_final (hc : phr.Contract)
    (h : (h1Outcome phr isHead x false).resp.isSome = true ∨ (h1Outcome phr isHead x false).failed = true) :
    h1Outcome phr isHead (x ++ d) false = h1Outcome phr isHead x false := by
  unfold h1Outcome at h ⊢
  cases hp : phr.parseResponse x with
  | incomplete =>
    simp only [hp] at h
    rcases h with h | h <;> cases h
  | malformed => rw [hc.headFinal x d (by rw [hp]; nofun), hp]
  | complete minor status consumed fields =>
    rw [hc.headFinal x d (by rw [hp]; nofun), hp]
    simp only [hp] at h
    simp only
    rw [List.drop_append_of_le_length (hc.consumedLe x _ _ _ _ hp)]
    exact bodyOutcome_final hc h

/-- **One call.** The session goes on to the bytes `x ++ d`, and the call reports what came of them. -/
theorem SessionAt.recv (hc : phr.Contract) (h : SessionAt phr isHead x s)
    (hfits : phr.parseResponse x = .incomplete → (x ++ d).length ≤ h1MaxHeaderRegion) :
    SessionAt phr isHead (x ++ d) (h1SessionRecv phr s d).sess ∧
      (h1SessionRecv phr s d).resp = newResp (h1Outcome phr isHead x false) (h1Outcome phr isHead (x ++ d) false) ∧
      (h1SessionRecv phr s d).ok = !(h1Outcome phr isHead (x ++ d) false).failed := by
  unfold SessionAt at h ⊢
  unfold h1Outcome
  cases hp : phr.parseResponse x with
  | malformed =>
    rw [hp] at h
    rw [hc.headFinal x d (by rw [hp]; nofun), hp, recv_error h.1]
    exact ⟨h, rfl, rfl⟩
  | complete minor status consumed fields =>
    rw [hp] at h
    have hadv := BodyAt.recv (d := d) hc h
    rw [hc.headFinal x d (by rw [hp]; nofun), hp]
    simp only
    rw [List.drop_append_of_le_length (hc.consumedLe x _ _ _ _ hp)]
    exact ⟨hadv.sess, hadv.resp, hadv.ok⟩
  | incomplete =>
    rw [hp] at h
    subst h
    have hroom : ¬ (x ++ d).length > h1MaxHeaderRegion := Nat.not_lt.mpr (hfits hp)
    cases hp' : phr.parseResponse (x ++ d) with
    | incomplete =>
      have hcall : h1SessionRecv phr { isHead := isHead, inBuf := x } d =
          { sess := { isHead := isHead, inBuf := x ++ d } } := by
        simp only [h1SessionRecv, if_neg hroom, hp']
      rw [hcall]
      exact ⟨rfl, rfl, rfl⟩
    | malformed =>
      have hcall : h1SessionRecv phr { isHead := isHead, inBuf := x } d =
          { sess := { isHead := isHead, inBuf := x ++ d, state := .error }, ok := false } := by
        simp only [h1SessionRecv, if_neg hroom, hp']
      rw [hcall]
      exact ⟨⟨rfl, rfl⟩, rfl, rfl⟩
    | complete minor status consumed fields =>
      have hcall : h1SessionRecv phr { isHead := isHead, inBuf := x } d =
          h1AfterHead phr (h1HeadersDone { isHead := isHead, inBuf := x ++ d } minor status fields)
            ((x ++ d).drop consumed) := by
        simp only [h1SessionRecv, if_neg hroom, hp', h1AfterHead]
      rw [hcall]
      exact h1AfterHead_advances hc rfl rfl (by simp [h1HeadersDone, H1Head.ofParsed]) rfl rfl rfl rfl rfl

/-- Every piece that is read as part of the header block fits the session's buffer. -/
def HeadRoom (phr : Phr) : Str8 → List Str8 → Prop
  | _, [] => True
  | x, d :: ds =>
    (phr.parseResponse x = .incomplete → (x ++ d).length ≤ h1MaxHeaderRegion) ∧ HeadRoom phr (x ++ d) ds

theorem SessionAt.feed (hc : phr.Contract) {ds : List Str8} (h : SessionAt phr isHead x s)
    (hroom : HeadRoom phr x ds) :
    SessionAt phr isHead (x ++ ds.flatten) (h1Feed phr s ds).sess ∧
      (h1Feed phr s ds).resps =
        (newResp (h1Outcome phr isHead x false) (h1Outcome phr isHead (x ++ ds.flatten) false)).toList ∧
      ((h1Outcome phr isHead x false).failed || (h1Feed phr s ds).failed) =
        (h1Outcome phr isHead (x ++ ds.flatten) false).failed := by
  induction ds generalizing x s with
  | nil =>
    simp only [List.flatten_nil, List.append_nil, h1Feed, Bool.or_false, and_true]
    refine ⟨h, ?_⟩
    unfold newResp
    split
    · rfl
    · next hn => rw [Option.not_isSome_iff_eq_none.mp hn]; rfl
  | cons d ds ih =>
    obtain ⟨hfits, hroom⟩ := hroom
    obtain ⟨hsess, hresp, hok⟩ := h.recv hc hfits
    rw [List.flatten_cons, ← List.append_assoc]
    obtain ⟨hsess', hresps', hfailed'⟩ := ih hsess hroom
    refine ⟨hsess', ?_, ?_⟩
    · simp only [h1Feed, hresp, hresps']
      unfold newResp
      by_cases hsome : (h1Outcome phr isHead x false).resp.isSome = true
      · rw [h1Outcome_final hc (.inl hsome)]
        simp only [hsome, if_true, Option.toList_none, List.append_nil]
      · simp only [if_neg hsome]
        by_cases hsome' : (h1Outcome phr isHead (x ++ d) false).resp.isSome = true
        · rw [h1Outcome_final hc (.inl hsome')]
          simp only [hsome', if_true, Option.toList_none, List.append_nil]
        · simp only [Option.not_isSome_iff_eq_none.mp hsome', Option.toList_none, List.nil_append,
            Option.isSome_none, Bool.false_eq_true, if_false]
    · simp only [h1Feed, hok, Bool.not_not, hfailed']
      -- an error that was there before is still there
      cases hf : (h1Outcome phr isHead x false).failed with
      | false => rfl
      | true =>
        have h₁ := h1Outcome_final (d := d) hc (.inr hf)
        have hf₁ : (h1Outcome phr isHead (x ++ d) false).failed = true := by rw [h₁, hf]
        rw [h1Outcome_final hc (.inr hf₁), hf₁]
        rfl

/-! ### The end of the connection -/

theorem newResp_self (o : H1Outcome) : newResp o o = none := by
  unfold newResp
  split
  · rfl
  · next h => exact Option.not_isSome_iff_eq_none.mp h

theorem eof_other (h : s.delivered = true ∨ s.state ≠ .bodyClose) : h1SessionEof s = { sess := s } := by
  unfold h1SessionEof
  split
  · rfl
  · next hdel => rw [if_neg (h.resolve_left hdel)]

theorem bodyOutcome_eof (hf : hd.framing ≠ .close) : bodyOutcome phr hd y true = bodyOutcome phr hd y false := by
  unfold bodyOutcome
  split
  · rfl
  · rfl
  · rfl
  · next h => exact absurd h hf

theorem bodyOutcome_eof_of_some (h : (bodyOutcome phr hd y false).resp.isSome = true) :
    bodyOutcome phr hd y true = bodyOutcome phr hd y false := by
  apply bodyOutcome_eof
  intro hf
  simp [bodyOutcome, hf] at h

/-- Only a body that ends with the connection is still open at its end. -/
theorem BodyAt.not_close (h : BodyAt phr hd y s) (hf : hd.framing ≠ .close) :
    s.delivered = true ∨ s.state ≠ .bodyClose := by
  have hrest := h.rest
  cases hfr : hd.framing with
  | close => exact absurd hfr hf
  | empty =>
    rw [hfr] at hrest
    exact .inl hrest.delivered
  | length n =>
    rw [hfr] at hrest
    dsimp only at hrest
    split at hrest
    · exact .inl hrest.delivered
    · exact .inr (by rw [hrest.1]; nofun)
  | chunked =>
    rw [hfr] at hrest
    dsimp only at hrest
    split at hrest
    · exact .inl hrest.delivered
    · exact .inr (by rw [hrest.1]; nofun)
    · exact .inr (by rw [hrest.1]; nofun)

theorem BodyAt.eof (h : BodyAt phr hd y s) :
    (h1SessionEof s).resp = newResp (bodyOutcome phr hd y false) (bodyOutcome phr hd y true) ∧
      (bodyOutcome phr hd y true).failed = (bodyOutcome phr hd y false).failed := by
  by_cases hf : hd.framing = .close
  · have hrest := h.rest
    rw [hf] at hrest
    obtain ⟨hstate, hbody, hdel⟩ := hrest
    have hdeliver := h1Deliver_eq hd h.status h.minor h.headers (by simp only [hstate, hf]) hdel
    constructor
    · simp [h1SessionEof, hdel, hstate, hdeliver, hbody, newResp, bodyOutcome, hf]
    · simp [bodyOutcome, hf]
  · rw [bodyOutcome_eof hf, newResp_self, eof_other (h.not_close hf)]
    exact ⟨rfl, rfl⟩

theorem SessionAt.eof (h : SessionAt phr isHead x s) :
    (h1SessionEof s).resp = newResp (h1Outcome phr isHead x false) (h1Outcome phr isHead x true) ∧
      (h1Outcome phr isHead x true).failed = (h1Outcome phr isHead x false).failed := by
  unfold SessionAt at h
  unfold h1Outcome
  cases hp : phr.parseResponse x with
  | incomplete =>
    rw [hp] at h
    subst h
    exact ⟨rfl, rfl⟩
  | malformed =>
    rw [hp] at h
    rw [eof_other (.inr (by rw [h.1]; nofun))]
    exact ⟨rfl, rfl⟩
  | complete minor status consumed fields =>
    rw [hp] at h
    exact BodyAt.eof h

theorem h1Outcome_eof_of_some (h : (h1Outcome phr isHead x false).resp.isSome = true) :
    h1Outcome phr isHead x true = h1Outcome phr isHead x false := by
  unfold h1Outcome at h ⊢
  split
  · rfl
  · rfl
  · next hp =>
      simp only [hp] at h
      exact bodyOutcome_eof_of_some h

/-- A session that has reported a response does not react to anything any more. -/
theorem SessionAt.done (h : SessionAt phr isHead x s) (hsome : (h1Outcome phr isHead x false).resp.isSome = true) :
    s.state = .done := by
  unfold SessionAt at h
  unfold h1Outcome at hsome
  cases hp : phr.parseResponse x with
  | incomplete | malformed => simp [hp] at hsome
  | complete minor status consumed fields =>
    rw [hp] at h hsome
    have hrest := h.rest
    simp only [bodyOutcome] at hsome
    cases hf : (H1Head.ofParsed isHead minor status fields).framing with
    | empty =>
      rw [hf] at hrest
      exact hrest.state
    | close => simp [hf] at hsome
    | length n =>
      rw [hf] at hrest
      simp only [hf] at hsome
      dsimp only at hrest
      split at hrest
      · exact hrest.state
      · next hn =>
          rw [if_neg hn] at hsome
          cases hsome
    | chunked =>
      rw [hf] at hrest
      simp only [hf] at hsome
      dsimp only at hrest
      split at hrest
      · exact hrest.state
      · next hst => simp [hst] at hsome
      · next hst => simp [hst] at hsome

theorem h1Feed_done (hdone : s.state = .done) (ds : List Str8) : h1Feed phr s ds = { sess := s } := by
  induction ds with
  | nil => rfl
  | cons d ds ih =>
    simp only [h1Feed, recv_done hdone, ih]
    rfl

theorem h1Feed_append (ds es : List Str8) :
    h1Feed phr s (ds ++ es) =
      { sess := (h1Feed phr (h1Feed phr s ds).sess es).sess
        resps := (h1Feed phr s ds).resps ++ (h1Feed phr (h1Feed phr s ds).sess es).resps
        failed := (h1Feed phr s ds).failed || (h1Feed phr (h1Feed phr s ds).sess es).failed } := by
  induction ds generalizing s with
  | nil => rfl
  | cons d ds ih => simp only [List.cons_append, h1Feed, ih, List.append_assoc, Bool.or_assoc]

end

/-- One exchange in which the header block fits. -/
theorem h1Exchange_of_room {phr : Phr} (hc : phr.Contract) (isHead eof : Bool) {chunks : List Str8}
    (hroom : HeadRoom phr [] chunks) :
    SessionAt phr isHead chunks.flatten (h1Feed phr (h1SessionStart isHead) chunks).sess ∧
    (h1Exchange phr isHead chunks eof).resps = (h1Outcome phr isHead chunks.flatten eof).resp.toList ∧
    (h1Exchange phr isHead chunks eof).failed = (h1Outcome phr isHead chunks.flatten eof).failed := by
  have hnone : h1Outcome phr isHead [] false = {} := by
    unfold h1Outcome
    rw [hc.headNil]
  have hstart : SessionAt phr isHead [] (h1SessionStart isHead) := by
    unfold SessionAt
    rw [hc.headNil]
    rfl
  obtain ⟨hsess, hresps, hfailed⟩ := hstart.feed hc hroom
  rw [hnone] at hresps hfailed
  rw [Bool.false_or] at hfailed
  change _ = (h1Outcome phr isHead chunks.flatten false).resp.toList at hresps
  change _ = (h1Outcome phr isHead chunks.flatten false).failed at hfailed
  have hsess : SessionAt phr isHead chunks.flatten _ := hsess
  refine ⟨hsess, ?_, ?_⟩
  · cases eof with
    | false => exact hresps
    | true =>
      have heof := hsess.eof.1
      simp only [h1Exchange, if_true, hresps, heof]
      unfold newResp
      split
      · next hsome => rw [Option.toList_none, List.append_nil, h1Outcome_eof_of_some hsome]
      · next hn => rw [Option.not_isSome_iff_eq_none.mp hn, Option.toList_none, List.nil_append]
  · cases eof with
    | false => exact hfailed
    | true =>
      rw [hsess.eof.2]
      exact hfailed

/-- The bytes of the header block fit, with any piece that follows. -/
def HeadFits (phr : Phr) (x : Str8) : Prop :=
  ∀ p, p <+: x → phr.parseResponse p = .incomplete → p.length ≤ 48 * 1024

theorem HeadFits.room {phr : Phr} {x : Str8} {ds : List Str8} (hpiece : ∀ d ∈ ds, d.length ≤ 16 * 1024)
    (h : HeadFits phr (x ++ ds.flatten)) : HeadRoom phr x ds := by
  induction ds generalizing x with
  | nil => trivial
  | cons d ds ih =>
    refine ⟨?_, ih (fun e he => hpiece e (List.mem_cons_of_mem d he)) ?_⟩
    · intro hp
      have hx := h x (List.prefix_append _ _) hp
      have hd' := hpiece d List.mem_cons_self
      rw [List.length_append]
      unfold h1MaxHeaderRegion
      omega
    · rwa [List.flatten_cons, ← List.append_assoc] at h

/-- **Response parsing does not depend on how the bytes arrive.** However a stream is cut, the session
    reports what `h1Outcome` reads off the whole stream, and once it has reported a response nothing that
    follows changes anything. -/
theorem h1Exchange_eq_outcome {phr : Phr} (hc : phr.Contract) (isHead eof : Bool) (chunks : List Str8)
    (hpiece : ∀ d ∈ chunks, d.length ≤ 16 * 1024) (hfits : HeadFits phr chunks.flatten) :
    (h1Exchange phr isHead chunks eof).resps = (h1Outcome phr isHead chunks.flatten eof).resp.toList ∧
    (h1Exchange phr isHead chunks eof).failed = (h1Outcome phr isHead chunks.flatten eof).failed ∧
    ((h1Exchange phr isHead chunks false).resps ≠ [] →
      ∀ more, h1Exchange phr isHead (chunks ++ more) eof = h1Exchange phr isHead chunks eof) := by
  have hroom : HeadRoom phr [] chunks := HeadFits.room hpiece hfits
  obtain ⟨hsess, hresps, hfailed⟩ := h1Exchange_of_room hc isHead eof hroom
  refine ⟨hresps, hfailed, ?_⟩
  intro hne more
  have hsome : (h1Outcome phr isHead chunks.flatten false).resp.isSome = true := by
    by_contra hn
    apply hne
    rw [(h1Exchange_of_room hc isHead false hroom).2.1, Option.not_isSome_iff_eq_none.mp hn]
    rfl
  have happ : h1Feed phr (h1SessionStart isHead) (chunks ++ more) = h1Feed phr (h1SessionStart isHead) chunks := by
    rw [h1Feed_append, h1Feed_done (hsess.done hsome) more]
    simp only [List.append_nil, Bool.or_false]
  simp only [h1Exchange, happ]

/-- A chunked response, one byte at a time and then some more. -/
def slowResponse : List Str8 :=
  (lit "HTTP/1.1 200 OK\r\nTransfer-Encoding: chunked\r\n\r\n5\r\nhello\r\n1\r\n!\r\n0\r\n\r\nHTTP/1.1").map ([·])

theorem HeadFits.of_short {phr : Phr} {x : Str8} (h : x.length ≤ 48 * 1024) : HeadFits phr x :=
  fun _ hp _ => hp.length_le.trans h

theorem h1Exchange_eq_outcome_bytewise :
    (h1Exchange plainPhr false slowResponse true).resps =
        (h1Outcome plainPhr false slowResponse.flatten true).resp.toList ∧
      (h1Outcome plainPhr false slowResponse.flatten true).resp.map (fun r => (r.status, r.body, r.keepAlive)) =
        some (200, lit "hello!", true) :=
  ⟨(h1Exchange_eq_outcome plainPhr_contract false true slowResponse (by decide +kernel)
    (HeadFits.of_short (by decide +kernel))).1, by decide +kernel⟩

end HolyTls

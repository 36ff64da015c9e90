import HolyTls.H1.Phr
import HolyTls.Ws.FrameStream

/-!
# `Ws.Upgrade` — the HTTP/1.1 upgrade of a WebSocket (`src/ws/ws.c`)

Until the response to the upgrade is complete, `ws_h1_drain` collects what it reads; behind the response the
bytes are frames, which go to the parser. The read that completes the response usually brings the first
frames with it, so the two phases meet in the middle of a buffer.

`wsUpgrade` says what a stream of bytes comes to, without reads. The driver comes to the same however the
stream is cut (`wsH1Reads_start`), with one exception: `ws_h1_try_handshake` does not look at what
`ws_parser_feed` returns for the bytes behind the response. A violation among them leaves the parser dead
and `fail` unset, until something more is read.

Left out are what only the sending side uses (our own deflate parameters, the echo of a ping) and waking
the caller; allocation is assumed to succeed.
-/

namespace HolyTls

/-- `WsMsg`. -/
structure WsMsg where
  op : WsOpcode
  closeCode : Nat
  isClose : Bool
  data : Str8
deriving DecidableEq, Repr

/-- The part of `WsConn` that the event sink works on. `inflated` are the compressed payloads that the
    inflate stream, which persists across messages, has been given. -/
structure WsInbox where
  queue : List WsMsg := []
  inflated : List Str8 := []
  gotPeerClose : Bool := false
  fail : Bool := false
  err : Str8 := []
deriving DecidableEq

/-- `WsConn` on the HTTP/1.1 transport. -/
structure WsConn extends WsInbox where
  acceptExpected : Str8
  hsIn : Str8 := []
  parser : WsParser := wsParserInit 0
  pmd : Bool := false
  established : Bool := false
deriving DecidableEq

/-! ## Events -/

section

variable (inflate : List Str8 → Str8 → Option Str8)

/-- Append to the queue. -/
def wsEnqueue (w : WsInbox) (ev : WsEvent) (payload : Str8) : WsInbox :=
  { w with
    queue := w.queue ++ [{ op := ev.op, closeCode := ev.closeCode, isClose := ev.kind = .close, data := payload }]
    gotPeerClose := w.gotPeerClose || ev.kind = .close }

/-- `ws_on_event`. `inflate` is `ws_inflate_message`: what it makes of a payload depends on the payloads the
    stream was given before. -/
def wsOnEvent (w : WsInbox) (ev : WsEvent) : WsInbox :=
  match ev.kind with
  | .ping => w
  | .pong => w
  | .close => wsEnqueue w ev ev.data
  | .message =>
    if ev.compressed then
      let before := w.inflated
      let w := { w with inflated := before ++ [ev.data] }
      match inflate before ev.data with
      | none => { w with fail := true, err := lit "permessage-deflate inflate failed" }
      | some payload => wsEnqueue w ev payload
    else wsEnqueue w ev ev.data

/-- The events of a feed. -/
def wsOnEvents (w : WsInbox) (evs : List WsEvent) : WsInbox := evs.foldl (wsOnEvent inflate) w

/-- `ws_parser_feed` with `ws_on_event` as its sink. -/
def wsConnFeed (w : WsConn) (data : Str8) : WsConn :=
  { w with
    toWsInbox := wsOnEvents inflate w.toWsInbox (wsParserFeed w.parser data).2
    parser := (wsParserFeed w.parser data).1 }

end

/-! ## The handshake -/

/-- The loop of `ws_pmd_negotiate`: the item of the extension list that names permessage-deflate. -/
def wsPmdItem : Nat → Str8 → Option Str8
  | 0, _ => none
  | fuel + 1, rest =>
    if rest.isEmpty then none
    else
      let (item, rest) := str8ChopByDelim rest 44
      let name := match str8IndexOf item 59 with
        | some semi => str8Prefix item semi
        | none => item
      if str8Match (str8Trim name) (lit "permessage-deflate") then some item else wsPmdItem fuel rest

/-- The extension list accepts permessage-deflate. -/
def wsPmdAccepted (ext : Str8) : Bool := (wsPmdItem ext.length ext).any (fun item => !item.isEmpty)

/-- `ws_pmd_negotiate`. -/
def wsPmdNegotiate (w : WsConn) (ext : Str8) : WsConn :=
  if wsPmdAccepted ext then { w with pmd := true, parser := wsParserAllowCompression w.parser } else w

/-- The last `Sec-WebSocket-Accept` and the last `Sec-WebSocket-Extensions` of a response. -/
def wsHandshakeFields (headers : List (Str8 × Str8)) : Str8 × Str8 :=
  headers.foldl (fun acc h =>
    if str8MatchCi h.1 (lit "sec-websocket-accept") then (h.2, acc.2)
    else if str8MatchCi h.1 (lit "sec-websocket-extensions") then (acc.1, h.2)
    else acc) ([], [])

section

variable (phr : Phr) (inflate : List Str8 → Str8 → Option Str8)

/-- `ws_h1_try_handshake`. -/
def wsH1TryHandshake (w : WsConn) : WsConn :=
  match phr.parseResponse w.hsIn with
  | .incomplete => w
  | .malformed => { w with fail := true, err := lit "malformed upgrade response" }
  | .complete _ status consumed headers =>
    if status ≠ 101 then { w with fail := true, err := lit "upgrade rejected (not 101)" }
    else if !str8Match (wsHandshakeFields headers).1 w.acceptExpected then
      { w with fail := true, err := lit "bad Sec-WebSocket-Accept" }
    else
      let w := { wsPmdNegotiate w (wsHandshakeFields headers).2 with established := true }
      -- what the parser returns is not looked at
      if consumed < w.hsIn.length then wsConnFeed inflate w (w.hsIn.drop consumed) else w

/-- One round of `ws_h1_drain`, and whether it is the last. -/
def wsH1Read (w : WsConn) (data : Str8) : WsConn × Bool :=
  if !w.established then (wsH1TryHandshake phr inflate { w with hsIn := w.hsIn ++ data }, false)
  else
    let w' := wsConnFeed inflate w data
    if w'.parser.dead then ({ w' with fail := true, err := lit "ws protocol error" }, true) else (w', false)

/-- `ws_h1_drain`, with what it leaves unread. -/
def wsH1Drain (w : WsConn) : List Str8 → WsConn × List Str8
  | [] => (w, [])
  | data :: reads =>
    let res := wsH1Read phr inflate w data
    if res.2 then (res.1, reads) else wsH1Drain res.1 reads

/-- One `ws_h1_drain` after another. Each first reads what the one before it has left. -/
def wsH1Drains (w : WsConn) (unread : List Str8) : List (List Str8) → WsConn
  | [] => w
  | reads :: more =>
    let res := wsH1Drain phr inflate w (unread ++ reads)
    wsH1Drains res.1 res.2 more

end

/-! ## What a stream comes to -/

/-- What the caller can see: the flags and the messages. -/
structure WsOutcome where
  established : Bool
  fail : Bool
  queue : List WsMsg
deriving DecidableEq, Repr

def WsConn.outcome (w : WsConn) : WsOutcome :=
  { established := w.established, fail := w.fail, queue := w.queue }

section

variable (phr : Phr) (inflate : List Str8 → Str8 → Option Str8) (accept : Str8)

/-- The response accepts the upgrade: whether with permessage-deflate, and the bytes behind it. -/
def wsAccepted (bytes : Str8) : Option (Bool × Str8) :=
  match phr.parseResponse bytes with
  | .complete _ status consumed headers =>
    if status = 101 ∧ (wsHandshakeFields headers).1 = accept then
      some (wsPmdAccepted (wsHandshakeFields headers).2, bytes.drop consumed)
    else none
  | _ => none

/-- The frames of a stream: their events, and whether there is a violation. -/
def wsFrames (deflate : Bool) (bytes : Str8) : List WsEvent × Bool :=
  wsDecode deflate (wsParserInit 0).maxMessage none bytes

/-- **The reference**: what a stream of bytes comes to. Without a response it is nothing, with one that does
    not accept the upgrade a failure; behind one that does, the frames are decoded, and a violation is a
    failure like a message that does not inflate. -/
def wsUpgrade (bytes : Str8) : WsOutcome :=
  match wsAccepted phr accept bytes with
  | some (deflate, rest) =>
    let inbox := wsOnEvents inflate {} (wsFrames deflate rest).1
    { established := true, fail := inbox.fail || (wsFrames deflate rest).2, queue := inbox.queue }
  | none => { established := false, fail := phr.parseResponse bytes ≠ .incomplete, queue := [] }

/-- The last read completes a response that accepts the upgrade, the bytes behind it violate the protocol,
    and no message among them fails by itself. -/
def WsViolationInLastRead (reads : List Str8) : Prop :=
  ∃ before last, reads = before ++ [last] ∧ phr.parseResponse before.flatten = .incomplete ∧
    ∃ deflate rest, wsAccepted phr accept reads.flatten = some (deflate, rest) ∧
      (wsFrames deflate rest).2 = true ∧ (wsOnEvents inflate {} (wsFrames deflate rest).1).fail = false

end

/-! ## Drains are reads -/

section

variable {phr : Phr} {inflate : List Str8 → Str8 → Option Str8} {accept : Str8} {w : WsConn}
  {data bytes : Str8} {x y : WsInbox} {b : Bool}

/-- One read after another. -/
def wsH1Reads (phr : Phr) (inflate : List Str8 → Str8 → Option Str8) (w : WsConn) (reads : List Str8) : WsConn :=
  reads.foldl (fun w data => (wsH1Read phr inflate w data).1) w

/-- A drain has met a dead parser. -/
structure WsConn.Stopped (w : WsConn) : Prop where
  established : w.established = true
  dead : w.parser.dead = true
  fail : w.fail = true
  err : w.err = lit "ws protocol error"

theorem wsH1Read_stops (h : (wsH1Read phr inflate w data).2 = true) :
    (wsH1Read phr inflate w data).1.Stopped := by
  unfold wsH1Read at h ⊢
  cases hest : w.established with
  | false =>
    rw [hest] at h
    cases h
  | true =>
    rw [hest] at h
    simp only [Bool.not_true, Bool.false_eq_true, if_false] at h ⊢
    split at h
    · next hdead =>
        rw [if_pos hdead]
        exact ⟨hest, hdead, rfl, rfl⟩
    · cases h

/-- Whatever is read then changes nothing. -/
theorem WsConn.Stopped.read (h : w.Stopped) (data : Str8) : wsH1Read phr inflate w data = (w, true) := by
  have hfeed : wsConnFeed inflate w data = w := by
    unfold wsConnFeed
    rw [wsParserFeed_dead _ _ h.dead]
    rfl
  unfold wsH1Read
  rw [h.established, hfeed]
  simp only [Bool.not_true, Bool.false_eq_true, if_false, h.dead, if_true]
  rw [← h.fail, ← h.err]

theorem WsConn.Stopped.reads (h : w.Stopped) (reads : List Str8) : wsH1Reads phr inflate w reads = w := by
  induction reads with
  | nil => rfl
  | cons data reads ih =>
    show wsH1Reads phr inflate (wsH1Read phr inflate w data).1 reads = w
    rw [h.read]
    exact ih

/-- A drain stops early only when nothing more can change. -/
theorem wsH1Drain_eq_reads (phr : Phr) (inflate : List Str8 → Str8 → Option Str8) (reads : List Str8) : ∀ w : WsConn,
    (wsH1Drain phr inflate w reads).1 = wsH1Reads phr inflate w reads ∧
      ((wsH1Drain phr inflate w reads).2 = [] ∨ (wsH1Drain phr inflate w reads).1.Stopped) := by
  induction reads with
  | nil => exact fun w => ⟨rfl, .inl rfl⟩
  | cons data reads ih =>
    intro w
    unfold wsH1Drain
    dsimp only
    split
    · next hstop =>
        have hstopped := wsH1Read_stops hstop
        exact ⟨(hstopped.reads reads).symm, .inr hstopped⟩
    · exact ih _

theorem wsH1Drains_eq_reads (drains : List (List Str8)) : ∀ (w : WsConn) (unread : List Str8),
    unread = [] ∨ w.Stopped →
    wsH1Drains phr inflate w unread drains = wsH1Reads phr inflate w drains.flatten := by
  induction drains with
  | nil => exact fun w unread _ => rfl
  | cons reads more ih =>
    intro w unread hunread
    obtain ⟨heq, hrest⟩ := wsH1Drain_eq_reads phr inflate (unread ++ reads) w
    have hreads : wsH1Reads phr inflate w (unread ++ reads) = wsH1Reads phr inflate w reads := by
      rcases hunread with rfl | hstopped
      · rfl
      · rw [hstopped.reads, hstopped.reads]
    unfold wsH1Drains
    dsimp only
    rw [ih _ _ hrest, heq, hreads, List.flatten_cons]
    exact (List.foldl_append ..).symm

/-! ## Frames -/

/-- The same messages, and a failure besides if `b`. -/
structure WsInbox.Same (b : Bool) (x y : WsInbox) : Prop where
  queue : y.queue = x.queue
  inflated : y.inflated = x.inflated
  fail : y.fail = (x.fail || b)

theorem WsInbox.Same.onEvent (h : x.Same b y) (ev : WsEvent) :
    (wsOnEvent inflate x ev).Same b (wsOnEvent inflate y ev) := by
  obtain ⟨hq, hi, hf⟩ := h
  unfold wsOnEvent
  split
  · exact ⟨hq, hi, hf⟩
  · exact ⟨hq, hi, hf⟩
  · exact ⟨by simp only [wsEnqueue, hq], hi, hf⟩
  · split
    · dsimp only
      rw [hi]
      split
      · exact ⟨hq, rfl, (Bool.true_or b).symm⟩
      · exact ⟨by simp only [wsEnqueue, hq], rfl, hf⟩
    · exact ⟨by simp only [wsEnqueue, hq], hi, hf⟩

theorem WsInbox.Same.onEvents (evs : List WsEvent) : ∀ {x y : WsInbox}, x.Same b y →
    (wsOnEvents inflate x evs).Same b (wsOnEvents inflate y evs) := by
  induction evs with
  | nil => exact fun h => h
  | cons ev evs ih => exact fun h => ih (h.onEvent ev)

theorem WsInbox.Same.failed (h : x.Same b y) (err : Str8) : x.Same true { y with fail := true, err := err } :=
  ⟨h.queue, h.inflated, (Bool.or_true _).symm⟩

theorem wsH1Read_established (phr : Phr) (inflate : List Str8 → Str8 → Option Str8)
    (hest : w.established = true) (data : Str8) :
    (wsH1Read phr inflate w data).1.established = true ∧
    (wsH1Read phr inflate w data).1.parser = (wsParserFeed w.parser data).1 ∧
    (x.Same b w.toWsInbox → (wsOnEvents inflate x (wsParserFeed w.parser data).2).Same
      (b || (wsParserFeed w.parser data).1.dead) (wsH1Read phr inflate w data).1.toWsInbox) := by
  unfold wsH1Read
  rw [hest]
  simp only [Bool.not_true, Bool.false_eq_true, if_false]
  split
  · next hdead =>
      refine ⟨hest, rfl, fun hsame => ?_⟩
      have hdead : (wsParserFeed w.parser data).1.dead = true := hdead
      rw [hdead, Bool.or_true]
      exact (hsame.onEvents _).failed _
  · next hdead =>
      refine ⟨hest, rfl, fun hsame => ?_⟩
      have hdead : (wsParserFeed w.parser data).1.dead = false := Bool.eq_false_iff.mpr hdead
      rw [hdead, Bool.or_false]
      exact hsame.onEvents _

theorem run_wsParserFeed_dead {p : WsParser} (h : p.dead = true) (reads : List Str8) :
    (Feed.run wsParserFeed p reads).1.dead = true := by
  rw [Feed.run_absorbing wsParserFeed_dead h]
  exact h

/-- **Reads of an established connection**: the events are those of the parser, and if there is a read at
    all, a dead parser is a failure. -/
theorem wsH1Reads_established (phr : Phr) (inflate : List Str8 → Str8 → Option Str8)
    (reads : List Str8) : ∀ {w : WsConn} {x : WsInbox} {b : Bool},
    w.established = true → x.Same b w.toWsInbox →
    (wsH1Reads phr inflate w reads).established = true ∧
      (wsOnEvents inflate x (Feed.run wsParserFeed w.parser reads).2).Same
        (b || !reads.isEmpty && (Feed.run wsParserFeed w.parser reads).1.dead)
        (wsH1Reads phr inflate w reads).toWsInbox := by
  induction reads with
  | nil =>
    intro w x b hest hsame
    refine ⟨hest, ?_⟩
    simp only [List.isEmpty_nil, Bool.not_true, Bool.false_and, Bool.or_false]
    exact hsame
  | cons data reads ih =>
    intro w x b hest hsame
    obtain ⟨hest₁, hparser, hsame₁⟩ := wsH1Read_established phr inflate hest data
    obtain ⟨hest₂, hsame₂⟩ := ih hest₁ (hsame₁ hsame)
    rw [hparser] at hsame₂
    have hevs : wsOnEvents inflate x (Feed.run wsParserFeed w.parser (data :: reads)).2 =
        wsOnEvents inflate (wsOnEvents inflate x (wsParserFeed w.parser data).2)
          (Feed.run wsParserFeed (wsParserFeed w.parser data).1 reads).2 := List.foldl_append ..
    -- the later reads notice what this one notices
    have hflag : (b || !(data :: reads).isEmpty && (Feed.run wsParserFeed w.parser (data :: reads)).1.dead) =
        ((b || (wsParserFeed w.parser data).1.dead) ||
          !reads.isEmpty && (Feed.run wsParserFeed (wsParserFeed w.parser data).1 reads).1.dead) := by
      rw [Feed.run_cons]
      cases hdead : (wsParserFeed w.parser data).1.dead with
      | true =>
        have hlater := run_wsParserFeed_dead hdead reads
        simp only [List.isEmpty_cons, Bool.not_false, Bool.true_and, hlater, Bool.or_true, Bool.true_or]
      | false =>
        cases reads with
        | nil => simp [hdead]
        | cons data' reads => simp
    rw [hevs, hflag]
    exact ⟨hest₂, hsame₂⟩

/-! ## The handshake -/

/-- Before the response, or after one that does not accept the upgrade. -/
structure WsConn.Pending (phr : Phr) (accept bytes : Str8) (w : WsConn) : Prop where
  refused : wsAccepted phr accept bytes = none
  established : w.established = false
  accept : w.acceptExpected = accept
  hsIn : w.hsIn = bytes
  parser : w.parser = wsParserInit 0
  inbox : WsInbox.Same (phr.parseResponse bytes ≠ .incomplete) {} w.toWsInbox

/-- A connection that is about to read. -/
def wsConnStart (accept : Str8) : WsConn := { acceptExpected := accept }

theorem wsAccepted_nil (hphr : phr.Contract) : wsAccepted phr accept [] = none := by
  unfold wsAccepted
  rw [hphr.headNil]

theorem wsConnStart_pending (accept : Str8) (hphr : phr.Contract) : (wsConnStart accept).Pending phr accept [] where
  refused := wsAccepted_nil hphr
  established := rfl
  accept := rfl
  hsIn := rfl
  parser := rfl
  inbox := ⟨rfl, rfl, by rw [hphr.headNil]; rfl⟩

/-- A verdict stays, so a response is accepted by the read that completes it or not at all. -/
theorem incomplete_of_accepted (hphr : phr.Contract) {bytes data : Str8} {acc : Bool × Str8}
    (hno : wsAccepted phr accept bytes = none) (hacc : wsAccepted phr accept (bytes ++ data) = some acc) :
    phr.parseResponse bytes = .incomplete := by
  by_contra hne
  unfold wsAccepted at hno hacc
  rw [hphr.headFinal bytes data hne] at hacc
  cases hparse : phr.parseResponse bytes with
  | incomplete => exact hne hparse
  | malformed =>
    rw [hparse] at hacc
    cases hacc
  | complete minor status consumed headers =>
    rw [hparse] at hno hacc
    dsimp only at hno hacc
    split at hno
    · cases hno
    · next hrej =>
        rw [if_neg hrej] at hacc
        cases hacc

theorem not_incomplete_of_accepted {bytes : Str8} {acc : Bool × Str8}
    (hacc : wsAccepted phr accept bytes = some acc) : phr.parseResponse bytes ≠ .incomplete := by
  intro hinc
  unfold wsAccepted at hacc
  rw [hinc] at hacc
  cases hacc

/-- What follows an accepted response belongs to its frames. -/
theorem wsAccepted_append (hphr : phr.Contract) {bytes more rest : Str8} {deflate : Bool}
    (hacc : wsAccepted phr accept bytes = some (deflate, rest)) :
    wsAccepted phr accept (bytes ++ more) = some (deflate, rest ++ more) := by
  unfold wsAccepted at hacc ⊢
  split at hacc
  · next minor status consumed headers hparse =>
      rw [hphr.headFinal bytes more (by rw [hparse]; exact nofun), hparse]
      dsimp only
      split at hacc
      · next hok =>
          cases hacc
          rw [if_pos hok, List.drop_append_of_le_length (hphr.consumedLe _ _ _ _ _ hparse)]
      · cases hacc
  · cases hacc

/-- The extension decides how the parser is set up, and nothing else. -/
theorem wsPmdNegotiate_spec (hparser : w.parser = wsParserInit 0) (ext : Str8) :
    (wsPmdNegotiate w ext).parser = wsParserSetup (wsPmdAccepted ext) 0 ∧
      (wsPmdNegotiate w ext).hsIn = w.hsIn ∧ (wsPmdNegotiate w ext).toWsInbox = w.toWsInbox := by
  unfold wsPmdNegotiate wsParserSetup
  split
  · exact ⟨by rw [hparser], rfl, rfl⟩
  · exact ⟨hparser, rfl, rfl⟩

theorem wsParserFeed_nil (p : WsParser) : wsParserFeed p [] = (p, []) := by
  unfold wsParserFeed
  split <;> rfl

/-- A read that does not complete an accepting response: a verdict there was stays, and a new one is a
    failure. -/
theorem WsConn.Pending.wait (inflate : List Str8 → Str8 → Option Str8) (hphr : phr.Contract)
    (h : w.Pending phr accept bytes)
    (hno : wsAccepted phr accept (bytes ++ data) = none) :
    (wsH1Read phr inflate w data).1.Pending phr accept (bytes ++ data) := by
  have hread : (wsH1Read phr inflate w data).1 = wsH1TryHandshake phr inflate { w with hsIn := bytes ++ data } := by
    unfold wsH1Read
    rw [h.established, h.hsIn]
    rfl
  have hfailed : ∀ err, (phr.parseResponse (bytes ++ data) ≠ .incomplete) →
      ({ w with hsIn := bytes ++ data, fail := true, err := err } : WsConn).Pending phr accept (bytes ++ data) := by
    intro err hne
    refine ⟨hno, h.established, h.accept, rfl, h.parser, ?_⟩
    rw [decide_eq_true hne]
    exact h.inbox.failed err
  rw [hread]
  unfold wsH1TryHandshake
  dsimp only
  cases hparse : phr.parseResponse (bytes ++ data) with
  | incomplete =>
    have hold : phr.parseResponse bytes = .incomplete := by
      by_contra hne
      rw [hphr.headFinal bytes data hne] at hparse
      exact hne hparse
    have hinbox := h.inbox
    rw [hold] at hinbox
    exact ⟨hno, h.established, h.accept, rfl, h.parser, by rw [hparse]; exact hinbox⟩
  | malformed => exact hfailed _ (by rw [hparse]; exact nofun)
  | complete minor status consumed headers =>
    have hne : phr.parseResponse (bytes ++ data) ≠ .incomplete := by rw [hparse]; exact nofun
    dsimp only
    split
    · exact hfailed _ hne
    · next hstatus =>
        split
        · exact hfailed _ hne
        · next hmatch =>
            rw [h.accept] at hmatch
            -- status and token are right, so the response accepts
            unfold wsAccepted at hno
            rw [hparse] at hno
            dsimp only at hno
            rw [if_pos ⟨not_not.mp hstatus, by simpa [str8Match] using hmatch⟩] at hno
            cases hno

/-- The read that completes it also feeds the parser, for the first time. -/
theorem WsConn.Pending.accept_read (inflate : List Str8 → Str8 → Option Str8) (hphr : phr.Contract)
    (h : w.Pending phr accept bytes) {deflate : Bool} {rest : Str8}
    (hacc : wsAccepted phr accept (bytes ++ data) = some (deflate, rest)) :
    (wsH1Read phr inflate w data).1.established = true ∧
    (wsH1Read phr inflate w data).1.parser = (wsParserFeed (wsParserSetup deflate 0) rest).1 ∧
    (wsOnEvents inflate {} (wsParserFeed (wsParserSetup deflate 0) rest).2).Same false
      (wsH1Read phr inflate w data).1.toWsInbox := by
  have hinbox := h.inbox
  rw [incomplete_of_accepted hphr h.refused hacc] at hinbox
  have hread : (wsH1Read phr inflate w data).1 = wsH1TryHandshake phr inflate { w with hsIn := bytes ++ data } := by
    unfold wsH1Read
    rw [h.established, h.hsIn]
    rfl
  rw [hread]
  unfold wsAccepted at hacc
  unfold wsH1TryHandshake
  dsimp only
  cases hparse : phr.parseResponse (bytes ++ data) with
  | incomplete | malformed =>
    rw [hparse] at hacc
    cases hacc
  | complete minor status consumed headers =>
    rw [hparse] at hacc
    dsimp only at hacc ⊢
    split at hacc
    · next hok =>
        cases hacc
        have hmatch : (!str8Match (wsHandshakeFields headers).1 w.acceptExpected) = false := by
          rw [h.accept, hok.2]
          simp [str8Match]
        rw [if_neg (not_not.mpr hok.1), hmatch, if_neg Bool.false_ne_true]
        obtain ⟨hparser, hhs, hin⟩ := wsPmdNegotiate_spec (w := { w with hsIn := bytes ++ data }) h.parser
          (wsHandshakeFields headers).2
        generalize wsPmdNegotiate { w with hsIn := bytes ++ data } (wsHandshakeFields headers).2 = v
          at hparser hhs hin
        have hfresh : WsInbox.Same false {} v.toWsInbox := by
          rw [hin]
          exact hinbox
        rw [← hparser, hhs]
        split
        · exact ⟨rfl, rfl, hfresh.onEvents _⟩
        · next hall =>
            -- nothing behind the response
            rw [List.drop_eq_nil_of_le (Nat.not_lt.mp hall), wsParserFeed_nil]
            exact ⟨rfl, rfl, hfresh⟩
    · cases hacc

/-- **What reads come to while no response has been accepted.** Either it stays so, or one of them completes
    an accepting response; the frames behind it are decoded, and a violation is noticed if there is a read
    after that one. -/
theorem WsConn.Pending.reads (inflate : List Str8 → Str8 → Option Str8) (hphr : phr.Contract)
    (reads : List Str8) : ∀ {w : WsConn} {bytes : Str8},
    w.Pending phr accept bytes →
    (wsH1Reads phr inflate w reads).Pending phr accept (bytes ++ reads.flatten) ∨
    ∃ before data later deflate rest, reads = before ++ data :: later ∧
      phr.parseResponse (bytes ++ before.flatten) = .incomplete ∧
      phr.parseResponse ((bytes ++ before.flatten) ++ data) ≠ .incomplete ∧
      wsAccepted phr accept (bytes ++ reads.flatten) = some (deflate, rest) ∧
      (wsH1Reads phr inflate w reads).established = true ∧
      (wsOnEvents inflate {} (wsFrames deflate rest).1).Same (!later.isEmpty && (wsFrames deflate rest).2)
        (wsH1Reads phr inflate w reads).toWsInbox := by
  induction reads with
  | nil =>
    intro w bytes h
    left
    rw [List.flatten_nil, List.append_nil]
    exact h
  | cons data reads ih =>
    intro w bytes h
    have hflat : bytes ++ (data :: reads).flatten = (bytes ++ data) ++ reads.flatten := by
      rw [List.flatten_cons, List.append_assoc]
    rw [hflat]
    cases hacc : wsAccepted phr accept (bytes ++ data) with
    | none =>
      have hwait := h.wait inflate hphr hacc
      rcases ih hwait with hpend | ⟨before, data', later, deflate, rest, hsplit, hrest⟩
      · exact .inl hpend
      · refine .inr ⟨data :: before, data', later, deflate, rest, by rw [hsplit]; rfl, ?_⟩
        rw [List.flatten_cons, ← List.append_assoc]
        exact hrest
    | some acc =>
      obtain ⟨deflate, rest⟩ := acc
      right
      obtain ⟨hest, hparser, hsame⟩ := h.accept_read inflate hphr hacc
      obtain ⟨hest', hsame'⟩ := wsH1Reads_established phr inflate reads hest hsame
      -- what the parser has been fed in all
      obtain ⟨hevs, hdead⟩ := wsParserFeed_decodes deflate 0 (rest :: reads)
      rw [Feed.run_cons, List.flatten_cons] at hevs hdead
      rw [hparser, Bool.false_or] at hsame'
      refine ⟨[], data, reads, deflate, rest ++ reads.flatten, rfl, ?_, ?_, wsAccepted_append hphr hacc, hest', ?_⟩
      · rw [List.flatten_nil, List.append_nil]
        exact incomplete_of_accepted hphr h.refused hacc
      · rw [List.flatten_nil, List.append_nil]
        exact not_incomplete_of_accepted hacc
      · unfold wsFrames
        rw [← hevs, ← hdead]
        have hboth : wsOnEvents inflate {} ((wsParserFeed (wsParserSetup deflate 0) rest).2 ++
            (Feed.run wsParserFeed (wsParserFeed (wsParserSetup deflate 0) rest).1 reads).2) =
            wsOnEvents inflate (wsOnEvents inflate {} (wsParserFeed (wsParserSetup deflate 0) rest).2)
              (Feed.run wsParserFeed (wsParserFeed (wsParserSetup deflate 0) rest).1 reads).2 :=
          List.foldl_append ..
        rw [hboth]
        exact hsame'

/-! ## Whole streams -/

theorem wsH1Drains_start (drains : List (List Str8)) :
    wsH1Drains phr inflate (wsConnStart accept) [] drains =
      wsH1Reads phr inflate (wsConnStart accept) drains.flatten :=
  wsH1Drains_eq_reads drains _ _ (.inl rfl)

theorem wsH1Reads_start (hphr : phr.Contract) (reads : List Str8) :
    (wsH1Reads phr inflate (wsConnStart accept) reads).outcome = wsUpgrade phr inflate accept reads.flatten ↔
      ¬ WsViolationInLastRead phr inflate accept reads := by
  have hreads := (wsConnStart_pending accept hphr).reads inflate hphr reads
  simp only [List.nil_append] at hreads
  generalize wsH1Reads phr inflate (wsConnStart accept) reads = w at hreads
  unfold wsUpgrade WsConn.outcome
  rcases hreads with h | ⟨before, data, later, deflate, rest, hsplit, hinc, hverdict, hacc, hest, hsame⟩
  · -- no response was accepted
    rw [h.refused]
    refine ⟨?_, fun _ => ?_⟩
    · rintro - ⟨-, -, -, -, deflate, rest, hacc, -⟩
      rw [h.refused] at hacc
      cases hacc
    · rw [h.established, h.inbox.queue, h.inbox.fail]
      rfl
  · rw [hacc]
    dsimp only
    rw [hest, hsame.queue, hsame.fail]
    simp only [WsOutcome.mk.injEq, true_and, and_true]
    constructor
    · rintro heq ⟨before', last, hsplit', hinc', deflate', rest', hacc', hdead, hfail⟩
      rw [hacc] at hacc'
      cases hacc'
      -- the read that completed the response is the last one
      have hlater : later = [] := by
        cases hl : later.reverse with
        | nil => exact List.reverse_eq_nil_iff.mp hl
        | cons x xs =>
          exfalso
          have hlast : later = xs.reverse ++ [x] := by
            rw [← List.reverse_reverse later, hl, List.reverse_cons]
          rw [hsplit, hlast, ← List.cons_append, ← List.append_assoc] at hsplit'
          obtain ⟨hbefore, -⟩ := List.append_inj' hsplit' rfl
          apply hverdict
          have hmore := hphr.headFinal (before.flatten ++ data) xs.reverse.flatten hverdict
          rw [← hmore, List.append_assoc, ← List.flatten_cons, ← List.flatten_append, hbefore]
          exact hinc'
      rw [hlater, hdead, hfail] at heq
      cases heq
    · intro hno
      cases hdead : (wsFrames deflate rest).2 with
      | false => simp
      | true =>
        cases later with
        | cons x xs => simp
        | nil =>
          cases hfail : (wsOnEvents inflate {} (wsFrames deflate rest).1).fail with
          | true => rfl
          | false => exact absurd ⟨before, data, hsplit, hinc, deflate, rest, hacc, hdead, hfail⟩ hno

theorem wsH1Reads_refused (hphr : phr.Contract) {reads more : List Str8}
    (hfail : (wsH1Reads phr inflate (wsConnStart accept) reads).fail = true)
    (hest : (wsH1Reads phr inflate (wsConnStart accept) reads).established = false) :
    (wsH1Reads phr inflate (wsConnStart accept) (reads ++ more)).established = false := by
  rcases (wsConnStart_pending accept hphr).reads inflate hphr reads with
    h | ⟨_, _, _, _, _, _, _, _, _, hest', _⟩
  · have hne : phr.parseResponse ([] ++ reads.flatten) ≠ .incomplete := by
      have hf := h.inbox.fail
      rw [hfail] at hf
      exact of_decide_eq_true hf.symm
    have hall : wsH1Reads phr inflate (wsConnStart accept) (reads ++ more) =
        wsH1Reads phr inflate (wsH1Reads phr inflate (wsConnStart accept) reads) more := List.foldl_append ..
    rw [hall]
    rcases h.reads inflate hphr more with h' | ⟨before, _, _, _, _, _, hinc, _⟩
    · exact h'.established
    · exact absurd ((hphr.headFinal _ before.flatten hne).symm.trans hinc) hne
  · rw [hest'] at hest
    cases hest

end

/-- **The upgrade does not depend on how the stream is cut**, except for one thing. Whatever the reads, the
    flags and the messages are those of the stream as a whole, unless the last read completes the response
    and the bytes behind it violate the protocol: then `fail` is not set. And a failed handshake is final. -/
theorem ws_upgrade_outcome (phr : Phr) (inflate : List Str8 → Str8 → Option Str8) (accept : Str8)
    (hphr : phr.Contract) :
    (∀ drains : List (List Str8),
      (wsH1Drains phr inflate (wsConnStart accept) [] drains).outcome =
          wsUpgrade phr inflate accept drains.flatten.flatten ↔
        ¬ WsViolationInLastRead phr inflate accept drains.flatten) ∧
    ∀ drains more : List (List Str8),
      (wsH1Drains phr inflate (wsConnStart accept) [] drains).fail = true →
      (wsH1Drains phr inflate (wsConnStart accept) [] drains).established = false →
      (wsH1Drains phr inflate (wsConnStart accept) [] (drains ++ more)).established = false := by
  constructor
  · intro drains
    rw [wsH1Drains_start]
    exact wsH1Reads_start hphr drains.flatten
  · intro drains more hfail hest
    rw [wsH1Drains_start] at hfail hest ⊢
    rw [List.flatten_append]
    exact wsH1Reads_refused hphr hfail hest

/-- The token for the key `dGhlIHNhbXBsZSBub25jZQ==`. -/
def sampleAccept : Str8 := lit "s3pPLMBiTxaQ9kYGzzhZRbK+xOo="

/-- A response that accepts the upgrade. -/
def sampleResponse : Str8 :=
  lit "HTTP/1.1 101 Switching Protocols\r\nSec-WebSocket-Accept: s3pPLMBiTxaQ9kYGzzhZRbK+xOo=\r\n\r\n"

/-- The header of a masked frame, which a server must not send. -/
def maskedFrame : Str8 := [0x81, 0x80]

/-- A violation behind the response, read by itself, is a failure as it should be; and a refused upgrade stays
    refused when an accepting response follows. -/
theorem ws_upgrade_outcome_apart :
    (wsH1Drains plainPhr (fun _ m => some m) (wsConnStart sampleAccept) [] [[sampleResponse, maskedFrame]]).outcome =
        wsUpgrade plainPhr (fun _ m => some m) sampleAccept (sampleResponse ++ maskedFrame) ∧
    (wsH1Drains plainPhr (fun _ m => some m) (wsConnStart sampleAccept) []
      ([[lit "HTTP/1.1 403 Forbidden\r\n\r\n"]] ++ [[sampleResponse]])).established = false := by
  obtain ⟨houtcome, hrefused⟩ := ws_upgrade_outcome plainPhr (fun _ m => some m) sampleAccept plainPhr_contract
  have hcomplete : plainPhr.parseResponse sampleResponse ≠ .incomplete := by decide +kernel
  constructor
  · refine (houtcome [[sampleResponse, maskedFrame]]).mpr ?_
    rintro ⟨before, last, hsplit, hinc, -⟩
    -- the response is there before the last read
    have hreads : [sampleResponse] ++ [maskedFrame] = before ++ [last] := hsplit
    obtain ⟨rfl, -⟩ := List.append_inj' hreads rfl
    exact hcomplete hinc
  · exact hrefused [[lit "HTTP/1.1 403 Forbidden\r\n\r\n"]] [[sampleResponse]] (by decide +kernel) (by decide +kernel)

/-- The same bytes in one read and in two: only the second time is the violation a failure. -/
theorem ws_violation_missed :
    (wsH1Drains plainPhr (fun _ m => some m) (wsConnStart sampleAccept) [] [[sampleResponse ++ maskedFrame]]).outcome =
      { established := true, fail := false, queue := [] } ∧
    (wsH1Drains plainPhr (fun _ m => some m) (wsConnStart sampleAccept) [] [[sampleResponse, maskedFrame]]).outcome =
      { established := true, fail := true, queue := [] } := by
  decide +kernel

end HolyTls

import HolyTls.Core.H1Request
import HolyTls.Pool.Books

/-!
# `Pool.TornBody` — a connection that ends with an error inside a body

`pool_h1_on_closed` tells the session of the active request that the connection has ended, whatever the
reason, and then fails the connection. A body that ends with the connection is thereby complete, also when
the connection was reset in the middle of it. This module says when that happens, for the pool and for a
request on a connection of its own (`torn_body_iff`): exactly when the request is unanswered and its session
is inside such a body.

That nothing else comes of the end of a connection is an invariant of the moves that follow it (`Unread`):
the request is not taken off a connection with a success, since nothing is read any more.
-/

namespace HolyTls

open Prog Runs

variable {cfg : PoolCfg} {self : Entry → PoolProg Unit} {w w' : PoolWorld} {o l : List PoolEvent} {r : ReqId}
  {c : ConnId} {s : Pool} {h : H1Session} {resp : Response}

variable {e : Option Str8} {err : Str8}

/-! ## Who is told -/

/-- The callback of a request runs when it is unanswered, and answers it. -/
theorem Move.tells (h : Move cfg w o w') (hm : .callback r resp ∈ o) :
    (w.2.reqs r).responded = false ∧ (w'.2.reqs r).responded = true := by
  cases h
  case answer H s x got resp' hopen hresp =>
      cases List.mem_singleton.mp hm
      refine ⟨hopen, ?_⟩
      simp only [Pool.respond, Pool.updReq_reqs, if_pos]
  case park ev hev | parkNew ev hev => rcases hev with rfl | ⟨rfl, -⟩ <;> simp at hm
  case activate ev hproto hev => rcases hev with ⟨rfl, -⟩ | ⟨rfl, -⟩ <;> simp at hm
  case activateH3 ev hproto hrecv hh3c hev => rcases hev with ⟨rfl, -⟩ | ⟨rfl, -⟩ <;> simp at hm
  all_goals simp at hm

theorem Turn.tells (h : Turn cfg w o w') (hm : .callback r resp ∈ o) :
    (w.2.reqs r).responded = false ∧ (w'.2.reqs r).responded = true := by
  cases h with
  | act h =>
    cases h
    case move h => exact h.tells hm
    case expire s x hlt harmed hresp =>
        cases List.mem_singleton.mp hm
        refine ⟨hresp, ?_⟩
        simp only [Pool.respond, Pool.updReq_reqs, if_pos]
    case takeStream ev got hfind hrecv hresp hev => rcases hev with rfl | ⟨rfl, -⟩ <;> simp at hm
    case dropActive ev hproto hact hev => rcases hev with rfl | ⟨rfl, -⟩ <;> simp at hm
    all_goals simp at hm
  | _ => simp at hm

/-- Along moves: whoever is told is answered in the end, and an answered request is not told again. -/
theorem Turns.tells (h : Turns cfg w o w') (hr : r < w.2.nreq) :
    (∀ resp, .callback r resp ∈ o → (w'.2.reqs r).responded = true) ∧
      ((w.2.reqs r).responded = true → ∀ resp, .callback r resp ∉ o) := by
  induction h with
  | refl w => exact ⟨fun _ hm => (by cases hm), fun _ _ hm => (by cases hm)⟩
  | @head w w₁ w₂ o o' hm ht ih =>
    have hr₁ : r < w₁.2.nreq := hr.trans_le hm.lasts.nreq
    obtain ⟨htold, hquiet⟩ := ih hr₁
    constructor
    · intro resp hmem
      rcases List.mem_append.mp hmem with hmem | hmem
      · exact ((Turns.lasts ht).req r hr₁).responded (hm.tells hmem).2
      · exact htold resp hmem
    · intro hresp resp hmem
      rcases List.mem_append.mp hmem with hmem | hmem
      · have hopen := (hm.tells hmem).1
        rw [hresp] at hopen
        cases hopen
      · exact hquiet ((hm.lasts.req r hr).responded hresp) resp hmem

/-! ## Nothing more is read -/

/-- A request of HTTP/1.1 has no success in hand, and no session that stands for one. -/
structure Unread (r : ReqId) (w : PoolWorld) : Prop where
  lt : r < w.2.nreq
  proto : (w.2.reqs r).proto = .h1
  hand : ∀ g, .off r (some g) ∈ w.1 → g.ok = false
  sess : ∀ h, (w.2.reqs r).h1 = some h → h.delivered = true → h.answer.ok = false

/-- The session changes only when the request is started again. -/
theorem Unread.sess_step (hu : Unread r w) (hm : Turn cfg w o w') (hread : ∀ e ∈ o, e.reads = false)
    (hh1 : (w'.2.reqs r).h1 = some h) (hdel : h.delivered = true) : h.answer.ok = false := by
  cases hm.reqChange (r := r) with
  | same hs => exact hu.sess h (hs.h1 ▸ hh1) hdel
  | born hn => exact absurd hu.lt (by rw [hn]; exact Nat.lt_irrefl _)
  | reset _ hnone _ =>
    rw [hnone] at hh1
    cases hh1
  | started _ _ hstart _ =>
    rw [hstart] at hh1
    cases hh1
    cases hdel
  | streamOpened _ _ _ _ hsame => exact hu.sess h (hsame ▸ hh1) hdel
  | fed _ hev _ _ _ _ | eof hev _ _ _ _ => cases hread _ (hev ▸ List.mem_cons_self)

/-- It comes into hand with what its session has delivered, or without a response. -/
theorem Unread.hand_step (hu : Unread r w) (hi : Routed w) (hl : Laid l w) (hm : Turn cfg w o w') {g : Response}
    (hg : .off r (some g) ∈ w'.1) : g.ok = false := by
  have hride : ∀ c, On w r c → (w.2.conn c).proto = .h1 := fun c hon => (hi.on r c hon).proto.trans hu.proto
  rcases hm.comes hg with hmem | hnone | hev | ⟨c, hact, hh2⟩ | ⟨c, h, hact, -, hh1, hdel, hans⟩ | ⟨c, hstream⟩
  · exact hu.hand g hmem
  · cases hnone
  · -- a stray close is of HTTP/2
    obtain ⟨c, hsent, hproto⟩ := hm.shown_of_mem hev rfl
    rw [hride c (Or.inr ⟨_, hsent, rfl, rfl⟩)] at hproto
    cases hproto
  · have hboth := hh2.elim id (hl.h2 c)
    rw [hride c (Or.inl (Or.inr hact))] at hboth
    cases hboth
  · cases hans
    exact hu.sess h hh1 hdel
  · have hh3 := hl.req c r hstream
    rw [hu.proto] at hh3
    cases hh3

theorem Unread.step (hu : Unread r w) (hi : Routed w) (hl : Laid l w) (hm : Turn cfg w o w')
    (hread : ∀ e ∈ o, e.reads = false) : Unread r w' where
  lt := hu.lt.trans_le hm.lasts.nreq
  proto := (hm.lasts.req r hu.lt).proto.trans hu.proto
  hand := fun _ => hu.hand_step hi hl hm
  sess := fun _ => hu.sess_step hm hread

theorem Unread.told (hu : Unread r w) (hm : Turn cfg w o w') (hmem : .callback r resp ∈ o) : resp.ok = false := by
  rcases hm.shown_of_mem hmem rfl with hno | ⟨g, hoff, rfl⟩
  · exact hno
  · rw [responseDecodeEncoding_ok]
    exact hu.hand g hoff

/-- **Nothing read, no success**: moves that do not read leave the request without one. -/
theorem Unread.moves (hu : Unread r w) (hb : Base w) (hi : Routed w) (hl : Laid l w) (hm : Moves cfg w o w') :
    ∀ resp, .callback r resp ∈ o → resp.ok = false := by
  induction hm generalizing l with
  | refl w => exact fun _ hmem => (by cases hmem)
  | @head w w₁ w₂ o o' hstep _ ih =>
    have hturn : Turn cfg w o w₁ := .act (.move hstep)
    intro resp hmem
    rcases List.mem_append.mp hmem with hmem | hmem
    · exact hu.told hturn hmem
    · exact ih (hu.step hi hl hturn fun _ => (Act.move hstep).reads_nothing) (hturn.base hb)
        (hturn.routed hb hi) (hturn.laid hb hi hl) resp hmem

/-! ## The end of a connection -/

/-- The pool after the session of `r` has been told of the end. -/
def Pool.eofH1 (s : Pool) (c : ConnId) (r : ReqId) (h : H1Session) : Pool :=
  (s.endH1 c).updReq r (fun q => { q with h1 := some (h1SessionEof h).sess })

theorem Pool.eofH1_conn (s : Pool) (c : ConnId) (r : ReqId) (h : H1Session) :
    (s.eofH1 c r h).conn c = { s.conn c with ended := true } := by
  rw [Pool.eofH1, Pool.updReq_conn, Pool.endH1, Pool.updConn_conn, if_pos rfl]

theorem Pool.eofH1_req (s : Pool) (c : ConnId) (r : ReqId) (h : H1Session) :
    (s.eofH1 c r h).reqs r = { s.reqs r with h1 := some (h1SessionEof h).sess } := by
  rw [Pool.eofH1, Pool.updReq_reqs, if_pos rfl]
  rfl

/-- What `pool_h1_on_closed` does after that: the session reports, and the connection fails. -/
def poolAfterEof (cfg : PoolCfg) (self : Entry → PoolProg Unit) (c : ConnId) (r : ReqId) (h : H1Session)
    (err : Str8) : PoolProg Unit := do
  whenSome (h1SessionEof h).resp (poolH1OnResponse cfg self r)
  poolConnFailAll self c err

theorem poolH1OnClosed_wp {Q : Unit → Pool → List PoolEvent → Prop} (hlive : (s.conn c).state ≠ .closing)
    (hhead : (s.conn c).active.head? = some r) (hh1 : (s.reqs r).h1 = some h)
    (hafter : wp (fun _ => True) (poolAfterEof cfg self c r h (e.getD (lit "connection closed")))
      (fun a s' o => Q a s' (.h1Closed c (s.conn c).written (s.conn c).readBytes :: o)) (s.eofH1 c r h)) :
    wp (fun _ => True) (poolH1OnClosed cfg self c e) Q s := by
  unfold poolAfterEof at hafter
  rw [wp_bind] at hafter
  unfold poolH1OnClosed h1Call
  simp only [wp_bind, wp_get, if_neg hlive, wp_report, wp_modify, hhead, hh1, Option.bind_some, Option.map_some,
    whenSome, List.nil_append, List.cons_append, forall_const]
  exact hafter

/-- Those are moves, which read nothing. -/
theorem poolAfterEof_goes (hself : Enters cfg self) (hread : ReadsH1 (s.eofH1 c r h) c)
    (hhead : (s.conn c).active.head? = some r) :
    Goes cfg [] (s.eofH1 c r h) (poolAfterEof cfg self c r h err) [] := by
  have hgoes : Goes cfg [] (s.eofH1 c r h) (whenSome (h1SessionEof h).resp (poolH1OnResponse cfg self r)) []
      (fun _ s' => Frame (s.eofH1 c r h) s') := by
    refine Does.strengthen (R := fun _ _ => True) (Does.whenSome ?_ fun _ => trivial)
      (fun _ _ _ ht _ => Moves.frame ht)
    intro hr hresp
    obtain ⟨hdel, hans⟩ := h1SessionEof_reports hr hresp
    refine poolH1OnResponse_goes hself hread.base hread.proto ?_ (by rw [Pool.eofH1_req]) hdel hans
    rw [Pool.eofH1_conn]
    exact List.mem_of_head? hhead
  apply Does.bind hgoes
  intro _ s₁ o₁ ht₁ hf₁
  have hread₁ := hread.frame (Moves.base ht₁ hread.base) (.of_frame hf₁)
  exact Does.forget (poolConnFailAll_goes hself hread₁.base hread₁.lt (Or.inl hread₁.recv))

/-! ## What the request is told -/

/-- Something is done about a request that is unanswered. -/
theorem poolReqRetryOrFail_told (hresp : (s.reqs r).responded = false) :
    wp (fun _ => True) (poolReqRetryOrFail self r err) (fun _ _ o => .retried r ∈ o ∨ ∃ x, .callback r x ∈ o) s := by
  unfold poolReqRetryOrFail
  rw [wp_bind, wp_get]
  apply wp_ite
  · exact fun _ => wp_report_bind (fun o => Or.inl List.mem_cons_self)
  · intro _
    unfold poolReqFail poolReqDeliverError
    simp only [wp_bind, wp_get, hresp, Bool.false_eq_true, if_false, wp_modify, wp_report, forall_const]
    apply wp_mono (wp_true _)
    intro _ s' o _
    apply wp_mono (wp_true _)
    intro _ s'' o' _
    exact Or.inr ⟨{ ok := false, error := err }, by simp⟩

/-- A response is delivered, unless it has no status and is retried. -/
theorem poolH1OnResponse_told {hr : H1Response} (hresp : (s.reqs r).responded = false) :
    wp (fun _ => True) (poolH1OnResponse cfg self r hr)
      (fun _ _ o => hr.ok = false ∧ .retried r ∈ o ∨
        .callback r (responseDecodeEncoding cfg.decode hr.response) ∈ o) s := by
  unfold poolH1OnResponse poolOnResponse
  rw [wp_bind, wp_get]
  simp only [hresp, Bool.false_eq_true, if_false]
  split
  · trivial
  · next c hpc =>
      simp only [wp_bind, wp_modify, List.nil_append]
      show wp _ (poolSettle ..) _ _
      unfold poolSettle
      rw [wp_bind, wp_get]
      apply wp_ite
      · -- the same condition again, and the request is retried
        rintro ⟨hok, -, hleft⟩
        unfold poolReqRetryOrFail
        rw [wp_bind, wp_get, if_pos ⟨hleft, hresp⟩]
        exact wp_report_bind (fun o => Or.inl ⟨hok, List.mem_cons_self⟩)
      · intro _
        unfold poolDeliver
        simp only [wp_bind, wp_modify, wp_report, forall_const]
        apply wp_mono (wp_true _)
        intro _ s₁ o₁ _
        apply wp_mono (wp_true _)
        intro _ s₂ o₂ _
        apply wp_mono (wp_true _)
        intro _ s₃ o₃ _
        apply wp_mono (wp_true _)
        intro _ s₄ o₄ _
        exact Or.inr (by simp)

theorem poolConnFailAll_told (hlive : (s.conn c).state ≠ .closing) (hproto : (s.conn c).proto = .h1)
    (hhead : (s.conn c).active.head? = some r) (hresp : (s.reqs r).responded = false) :
    wp (fun _ => True) (poolConnFailAll self c err) (fun _ _ o => .retried r ∈ o ∨ ∃ x, .callback r x ∈ o) s := by
  obtain ⟨rest, hact⟩ : ∃ rest, (s.conn c).active = r :: rest := by
    cases hact : (s.conn c).active with
    | nil =>
      rw [hact] at hhead
      cases hhead
    | cons x rest =>
      rw [hact] at hhead
      cases hhead
      exact ⟨rest, rfl⟩
  have hclose : (s.detachAll c).conn c =
      { s.conn c with broken := true, inflight := 0, active := [], waiting := {} } := by
    rw [Pool.detachAll, Pool.updConn_conn, if_pos rfl]
  unfold poolConnFailAll poolCloseConn
  simp only [wp_bind, wp_get, if_neg hlive, wp_report, wp_modify, forall_const, hclose, hproto, hact, when,
    reduceCtorEq, false_and, decide_false, Bool.false_eq_true, if_false, forEach]
  show wp _ (poolReqRetryOrFail self r err >>= fun _ => _) _ _
  rw [wp_bind]
  -- the request itself is as before
  have hopen : (((s.detachAll c).close c).reqs r).responded = false := hresp
  apply wp_mono (poolReqRetryOrFail_told hopen)
  intro _ s₁ o₁ htold
  apply wp_mono (wp_true _)
  intro _ s₂ o₂ _
  apply wp_mono (wp_true _)
  intro _ s₃ o₃ _
  rcases htold with h | ⟨x, h⟩
  · exact Or.inl (by simp [h])
  · exact Or.inr ⟨x, by simp [h]⟩

/-- **What the active request is told when its connection ends**: a success if its session is inside a body
    that ends with the connection; and in any case something is done about it. -/
theorem poolAfterEof_told (hlive : (s.conn c).state ≠ .closing) (hproto : (s.conn c).proto = .h1)
    (hhead : (s.conn c).active.head? = some r) (hresp : (s.reqs r).responded = false) :
    wp (fun _ => True) (poolAfterEof cfg self c r h err)
      (fun _ _ o => (h.openEnded = true → ∃ x, .callback r x ∈ o ∧ x.ok = true) ∧
        (.retried r ∈ o ∨ ∃ x, .callback r x ∈ o)) (s.eofH1 c r h) := by
  unfold poolAfterEof
  rw [wp_bind]
  rcases h1SessionEof_resp h with ⟨hr, heof, hok⟩ | ⟨heof, hno⟩
  · rw [heof]
    apply wp_mono (poolH1OnResponse_told (by rw [Pool.eofH1_req]; exact hresp))
    intro _ s₁ o₁ htold
    apply wp_mono (wp_true _)
    intro _ s₂ o₂ _
    have hdec := responseDecodeEncoding_ok cfg.decode hr.response
    rcases htold with ⟨hfail, hmem⟩ | hmem
    · refine ⟨fun hopen => ?_, Or.inl (List.mem_append_left o₂ hmem)⟩
      rw [← hok, show hr.response.ok = hr.ok from rfl, hfail] at hopen
      cases hopen
    · exact ⟨fun hopen => ⟨_, List.mem_append_left o₂ hmem, by rw [hdec, hok, hopen]⟩,
        Or.inr ⟨_, List.mem_append_left o₂ hmem⟩⟩
  · rw [heof]
    show wp _ (poolConnFailAll ..) _ _
    refine wp_mono (poolConnFailAll_told (r := r) (s := s.eofH1 c r h) ?_ ?_ ?_ ?_) ?_
    · rw [Pool.eofH1_conn]
      exact hlive
    · rw [Pool.eofH1_conn]
      exact hproto
    · rw [Pool.eofH1_conn]
      exact hhead
    · rw [Pool.eofH1_req]
      exact hresp
    · intro _ s₁ o₁ htold
      refine ⟨fun hopen => ?_, htold⟩
      rw [hno] at hopen
      cases hopen

/-! ## Every run -/

/-- Steps in a row. -/
def PoolLater (cfg : PoolCfg) : PoolRun → PoolRun → Prop :=
  Relation.ReflTransGen (fun w w' => ∃ t, poolStep cfg w t = some w')

/-- The turn from `w` to `w'` does not deliver the request with `ok` set; it is retried in it, or is answered
    and hears nothing more. -/
def FailedOrRetried (cfg : PoolCfg) (r : ReqId) (w w' : PoolRun) : Prop :=
  ∃ o, w'.log = w.log ++ o ∧ (∀ resp, .callback r resp ∈ o → resp.ok = false) ∧
    (.retried r ∈ o ∨ (w'.pool.reqs r).responded = true ∧
      ∀ w'', PoolLater cfg w' w'' → ∃ more, w''.log = w'.log ++ more ∧ ∀ resp, .callback r resp ∉ more)

theorem PoolReach.later {w w' : PoolRun} (h : PoolReach cfg w) (hl : PoolLater cfg w w') :
    PoolReach cfg w' ∧ ∃ more, w'.log = w.log ++ more ∧ Turns cfg ([], w.pool) more ([], w'.pool) := by
  induction hl with
  | refl => exact ⟨h, [], (List.append_nil _).symm, Trace.refl _⟩
  | tail _ hs ih =>
    obtain ⟨hreach, more, hlog, ht⟩ := ih
    obtain ⟨t, hs⟩ := hs
    obtain ⟨hturns, hq⟩ := hreach.turns
    obtain ⟨o, hlog', ht', -⟩ := poolStep_turns (Turns.base hturns .empty) hq hs
    exact ⟨.next hreach trivial hs, more ++ o, by rw [hlog', hlog, List.append_assoc], ht.trans ht'⟩

/-- The end of a connection is a turn of this shape: the session is told, and moves follow. -/
theorem poolClosed_run {w w' : PoolRun} {t : PoolTurn} (hb : Base ([], w.pool)) (hq : Quiet w.pool)
    (ht : t.input = .h1Closed c e) (hs : poolStep cfg w t = some w')
    (hhead : (w.pool.conn c).active.head? = some r) (hh1 : (w.pool.reqs r).h1 = some h) :
    (w.pool.conn c).proto = .h1 ∧ ∃ W B o, w'.log = w.log ++ .h1Closed c W B :: o ∧
      Turn cfg ([], w.pool) [.h1Closed c W B] ([], w.pool.eofH1 c r h) ∧
      Moves cfg ([], w.pool.eofH1 c r h) o ([], w'.pool) ∧
      ((w.pool.reqs r).responded = false → (h.openEnded = true → ∃ x, .callback r x ∈ o ∧ x.ok = true) ∧
        (.retried r ∈ o ∨ ∃ x, .callback r x ∈ o)) := by
  unfold poolStep at hs
  split at hs
  · next hen =>
      obtain ⟨res, hres, rfl⟩ := Option.map_eq_some_iff.mp hs
      rw [ht] at hen hres
      simp only [poolEnabled, Bool.and_eq_true, decide_eq_true_eq] at hen
      obtain ⟨⟨hmem, hproto⟩, hready⟩ := hen
      have hlive : (w.pool.conn c).state ≠ .closing := by rw [hready]; decide
      have hopen : (w.pool.conn c).ended = false :=
        Bool.eq_false_iff.mpr (fun he => (hq.ended c he).elim hlive False.elim)
      have hturn : Turn cfg ([], w.pool) [.h1Closed c (w.pool.conn c).written (w.pool.conn c).readBytes]
          ([], w.pool.eofH1 c r h) := .h1Eof hproto hopen hhead hh1
      have hread : ReadsH1 (w.pool.eofH1 c r h) c :=
        ReadsH1.feed ⟨hb, hb.conns c hmem, hproto, hq.inRecv c, hq.weaken c⟩ (hturn.base hb) hproto (hq.inRecv c)
      obtain ⟨o, hout, hmoves, -⟩ := run_sound (poolH1OnClosed_wp (Q := fun _ s' out => ∃ o,
        out = .h1Closed c (w.pool.conn c).written (w.pool.conn c).readBytes :: o ∧
          Moves cfg ([], w.pool.eofH1 c r h) o ([], s') ∧ True) hlive hhead hh1
        (wp_mono (poolAfterEof_goes (poolRec_enters cfg t.depth) hread hhead)
          (fun _ _ o hdone => ⟨o, rfl, hdone⟩))) hres (fun _ _ => trivial)
      refine ⟨hproto, _, _, o, by rw [hout], hturn, hmoves, ?_⟩
      intro hresp
      obtain ⟨o', hout', htold⟩ := run_sound (poolH1OnClosed_wp (Q := fun _ _ out => ∃ o,
        out = .h1Closed c (w.pool.conn c).written (w.pool.conn c).readBytes :: o ∧
          (h.openEnded = true → ∃ x, .callback r x ∈ o ∧ x.ok = true) ∧
            (.retried r ∈ o ∨ ∃ x, .callback r x ∈ o)) hlive hhead hh1
        (wp_mono (poolAfterEof_told hlive hproto hhead hresp) (fun _ _ o htold => ⟨o, rfl, htold⟩)))
        hres (fun _ _ => trivial)
      rw [hout] at hout'
      cases hout'
      exact htold
  · cases hs

/-- What the session stands for after the end, if it was not inside a body that ends with it. -/
theorem h1SessionEof_answer (hdel : h.delivered = false) (hopen : h.openEnded = false)
    (hdel' : (h1SessionEof h).sess.delivered = true) : (h1SessionEof h).sess.answer.ok = false := by
  unfold h1SessionEof at hdel' ⊢
  rw [hdel, if_neg Bool.false_ne_true] at hdel' ⊢
  unfold H1Session.openEnded at hopen
  split
  · next hstate =>
      simp only [hdel, hstate, Bool.not_false, decide_true, Bool.and_true, Bool.true_and] at hopen
      unfold h1Deliver
      rw [hdel, if_neg Bool.false_ne_true]
      exact hopen
  · next hstate =>
      rw [if_neg hstate, hdel] at hdel'
      cases hdel'

/-- **When the pool takes the end of a connection for the end of a body.** The active request, whose
    response is incomplete, is failed or retried unless it is unanswered and inside a body that ends with
    the connection. -/
theorem poolClosed_iff {w w' : PoolRun} {t : PoolTurn} (hw : PoolReach cfg w) (ht : t.input = .h1Closed c e)
    (hs : poolStep cfg w t = some w') (hhead : (w.pool.conn c).active.head? = some r)
    (hh1 : (w.pool.reqs r).h1 = some h) (hdel : h.delivered = false) :
    FailedOrRetried cfg r w w' ↔ ¬ ((w.pool.reqs r).responded = false ∧ h.openEnded = true) := by
  obtain ⟨hturns, hq⟩ := hw.turns
  have hb := Turns.base hturns .empty
  obtain ⟨hi, hl⟩ := Turns.laid hturns .empty .empty .empty
  have hr : r < w.pool.nreq := hb.lists c r (Or.inr (Or.inl (List.mem_of_head? hhead)))
  have hw' : PoolReach cfg w' := .next hw trivial hs
  obtain ⟨hproto, W, B, o, hlog, hturn, hmoves, htold⟩ := poolClosed_run hb hq ht hs hhead hh1
  have htrace : Turns cfg ([], w.pool) (.h1Closed c W B :: o) ([], w'.pool) :=
    Trace.head hturn (hmoves.mono fun _ _ _ hm => .act (.move hm))
  obtain ⟨htells, hquiet⟩ := Turns.tells htrace hr
  constructor
  · rintro ⟨o', hlog', hno, -⟩ ⟨hresp, hopen⟩
    obtain ⟨x, hx, hok⟩ := (htold hresp).1 hopen
    have hsame : .h1Closed c W B :: o = o' := List.append_cancel_left (hlog.symm.trans hlog')
    rw [hno x (hsame ▸ List.mem_cons_of_mem _ hx)] at hok
    cases hok
  · intro hcond
    -- an answered request hears nothing more
    have hlater : (w'.pool.reqs r).responded = true → ∀ w'', PoolLater cfg w' w'' →
        ∃ more, w''.log = w'.log ++ more ∧ ∀ resp, .callback r resp ∉ more := by
      intro hansw w'' hlater
      obtain ⟨-, more, hmore, hturns'⟩ := hw'.later hlater
      exact ⟨more, hmore, (Turns.tells hturns' (hr.trans_le (Turns.lasts htrace).nreq)).2 hansw⟩
    refine ⟨.h1Closed c W B :: o, hlog, ?_⟩
    cases hresp : (w.pool.reqs r).responded with
    | true =>
      have hansw := ((Turns.lasts htrace).req r hr).responded hresp
      exact ⟨fun resp hmem => absurd hmem (hquiet hresp resp), Or.inr ⟨hansw, hlater hansw⟩⟩
    | false =>
      have hopen : h.openEnded = false := Bool.eq_false_iff.mpr (fun hopen => hcond ⟨hresp, hopen⟩)
      have hunread : Unread r ([], w.pool.eofH1 c r h) := by
        refine ⟨hr, ?_, fun g hg => (by cases hg), ?_⟩
        · have hride := (hi.on r c (Or.inl (Or.inr (List.mem_of_head? hhead)))).proto
          rw [Pool.eofH1_req]
          exact hride.symm.trans hproto
        · intro h' hh1' hdel'
          rw [Pool.eofH1_req] at hh1'
          cases hh1'
          exact h1SessionEof_answer hdel hopen hdel'
      refine ⟨?_, ?_⟩
      · intro resp hmem
        rcases List.mem_cons.mp hmem with hmem | hmem
        · cases hmem
        · exact hunread.moves (hturn.base hb) (hturn.routed hb hi) (hturn.laid hb hi hl) hmoves resp hmem
      · rcases (htold hresp).2 with hret | ⟨x, hx⟩
        · exact Or.inl (List.mem_cons_of_mem _ hret)
        · have hansw := htells x (List.mem_cons_of_mem _ hx)
          exact Or.inr ⟨hansw, hlater hansw⟩

/-- **A body that ends with the connection and an end that is an error.** For a request on a connection of its
    own and for the pool: when an HTTP/1.1 connection ends with an error before the response is complete, the
    request is never delivered with `ok` set but fails or is retried, exactly unless it is unanswered and its
    session is inside a body that ends with the connection. -/
theorem torn_body_iff (phr : Phr) (decode : Str8 → Str8 → Option Str8) (cfg : PoolCfg) :
    (∀ q q' err, wireStep phr decode q (.peerClosed (some err)) = some q' → q.session = some .h1 →
      (FailedAtClose phr decode q q' ↔ ¬ (q.responded = false ∧ q.h1.openEnded = true))) ∧
    ∀ w w' t c r h err, PoolReach cfg w → t.input = .h1Closed c (some err) → poolStep cfg w t = some w' →
      (w.pool.conn c).active.head? = some r → (w.pool.reqs r).h1 = some h → h.delivered = false →
      (FailedOrRetried cfg r w w' ↔ ¬ ((w.pool.reqs r).responded = false ∧ h.openEnded = true)) :=
  ⟨fun _ _ _ hs hh1 => wireClosed_iff hs hh1,
    fun _ _ _ _ _ _ _ hw ht hs hhead hh1 hdel => poolClosed_iff hw ht hs hhead hh1 hdel⟩

/-- A request on a connection of its own that has read some bytes of an HTTP/1.1 response. -/
def wireReading (data : Str8) : Option WireRequest :=
  [WireEvent.handshakeDone { alpnH2 := false } [], .readable [{ data := data }]].foldlM
    (wireStep plainPhr plainCfg.decode) (wireStart false false false false)

/-- The same in the pool. -/
def poolReading (data : Str8) : List PoolTurn :=
  [⟨.call (.dispatch .h1 .get (lit "https://a/") false), 5, [.connect none]⟩,
   ⟨.h1Ready 0 (.ok []), 5, [.h1Alloc true]⟩,
   ⟨.h1Readable 0 [data], 5, []⟩]

def resetTurn (answers : List Ans) : PoolTurn := ⟨.h1Closed 0 (some (lit "connection reset by peer")), 5, answers⟩

/-- A body of known length that is cut short: the request fails on a connection of its own, and is retried in
    the pool. -/
theorem torn_body_iff_length :
    (∃ q q', wireReading (lit "HTTP/1.1 200 OK\r\nContent-Length: 5\r\n\r\npa") = some q ∧
      wireStep plainPhr plainCfg.decode q (.peerClosed (some (lit "connection reset by peer"))) = some q' ∧
      FailedAtClose plainPhr plainCfg.decode q q') ∧
    ∃ w w', poolPlay plainCfg (poolReading (lit "HTTP/1.1 200 OK\r\nContent-Length: 5\r\n\r\npa")) = some w ∧
      poolStep plainCfg w (resetTurn [.connect none]) = some w' ∧ FailedOrRetried plainCfg 0 w w' := by
  constructor
  · have hrun : (wireReading (lit "HTTP/1.1 200 OK\r\nContent-Length: 5\r\n\r\npa")).map (fun q =>
        (q.session, q.h1.openEnded, (wireStep plainPhr plainCfg.decode q
          (.peerClosed (some (lit "connection reset by peer")))).isSome)) = some (some .h1, false, true) := by
      decide +kernel
    obtain ⟨q, hq, hw⟩ := Option.map_eq_some_iff.mp hrun
    simp only [Prod.mk.injEq] at hw
    obtain ⟨hsess, hopen, hstep⟩ := hw
    obtain ⟨q', hs⟩ := Option.isSome_iff_exists.mp hstep
    refine ⟨q, q', hq, hs, ((torn_body_iff plainPhr plainCfg.decode plainCfg).1 q q' _ hs hsess).mpr ?_⟩
    rw [hopen]
    exact fun h => (by cases h.2)
  · have hrun : (poolPlay plainCfg (poolReading (lit "HTTP/1.1 200 OK\r\nContent-Length: 5\r\n\r\npa"))).map (fun w =>
        ((w.pool.conn 0).active.head?, (w.pool.reqs 0).h1.map (fun h => (h.delivered, h.openEnded)),
          (poolStep plainCfg w (resetTurn [.connect none])).isSome)) = some (some 0, some (false, false), true) := by
      decide +kernel
    obtain ⟨w, hplay, hw⟩ := Option.map_eq_some_iff.mp hrun
    simp only [Prod.mk.injEq, Option.map_eq_some_iff] at hw
    obtain ⟨hhead, ⟨h, hh1, hdel, hopen⟩, hstep⟩ := hw
    obtain ⟨w', hs⟩ := Option.isSome_iff_exists.mp hstep
    refine ⟨w, w', hplay, hs, ((torn_body_iff plainPhr plainCfg.decode plainCfg).2 w w' _ 0 0 h _
      (PoolReach.of_play hplay) rfl hs hhead hh1 hdel).mpr ?_⟩
    rw [hopen]
    exact fun h => (by cases h.2)

/-- A body that ends with the connection, and a connection that is reset inside it: the part that was read is
    delivered as the whole. -/
theorem torn_body_delivered :
    (∃ q q', wireReading (lit "HTTP/1.1 200 OK\r\n\r\npart") = some q ∧
      wireStep plainPhr plainCfg.decode q (.peerClosed (some (lit "connection reset by peer"))) = some q' ∧
      q'.log = [.opened, .submit, .callback { ok := true, status := 200, body := lit "part" }]) ∧
    ∃ w w', poolPlay plainCfg (poolReading (lit "HTTP/1.1 200 OK\r\n\r\npart")) = some w ∧
      poolStep plainCfg w (resetTurn [.calls []]) = some w' ∧
      .callback 0 { ok := true, status := 200, body := lit "part" } ∈ w'.log := by
  constructor
  · have hrun : (wireReading (lit "HTTP/1.1 200 OK\r\n\r\npart")).map (fun q =>
        (wireStep plainPhr plainCfg.decode q (.peerClosed (some (lit "connection reset by peer")))).map (·.log)) =
        some (some [.opened, .submit, .callback { ok := true, status := 200, body := lit "part" }]) := by
      decide +kernel
    obtain ⟨q, hq, hstep⟩ := Option.map_eq_some_iff.mp hrun
    obtain ⟨q', hs, hlog⟩ := Option.map_eq_some_iff.mp hstep
    exact ⟨q, q', hq, hs, hlog⟩
  · have hrun : (poolPlay plainCfg (poolReading (lit "HTTP/1.1 200 OK\r\n\r\npart"))).map (fun w =>
        (poolStep plainCfg w (resetTurn [.calls []])).map (fun w' =>
          decide (.callback 0 { ok := true, status := 200, body := lit "part" } ∈ w'.log))) = some (some true) := by
      decide +kernel
    obtain ⟨w, hplay, hstep⟩ := Option.map_eq_some_iff.mp hrun
    obtain ⟨w', hs, hlog⟩ := Option.map_eq_some_iff.mp hstep
    exact ⟨w, w', hplay, hs, of_decide_eq_true hlog⟩

end HolyTls

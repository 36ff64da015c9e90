import HolyTls.Lib.Sweep
import HolyTls.Pool.Frame

/-!
# `Pool.Sweep` — the code that is entered again makes moves

One lemma per function of `Pool.Handlers`: with which requests in hand it is called, and that it makes
moves. Functions that hand a request over to a connection leave nothing of it in hand; functions that
enter the pool again rely on `Enters`, that the entry points make moves, which `poolRec_enters` proves by
induction on how deep the pool is entered.
-/

namespace HolyTls

open Prog

variable {α : Type}

/-- The program makes moves, from `H` in hand to `H'` in hand. -/
abbrev Goes (cfg : PoolCfg) (H : List Held) (s : Pool) (m : PoolProg α) (H' : List Held)
    (R : α → Pool → Prop := fun _ _ => True) : Prop :=
  Does (Move cfg) (H, s) [] s m H' R

/-- What an entry point is called with. -/
def Entry.hand : Entry → List Held
  | .acquire p r => [.free r p]
  | .flush _ => []
  | .call _ => []

/-- Waiting requests are submitted by handlers of events only, never while a deadline is being handled. -/
def Entry.Fits (H : List Held) : Entry → Prop
  | .flush _ => Calm H
  | _ => True

/-- The entry points make moves. -/
def Enters (cfg : PoolCfg) (self : Entry → PoolProg Unit) : Prop :=
  ∀ e H s, Base (e.hand ++ H, s) → e.Fits H → Goes cfg (e.hand ++ H) s (self e) H

section

variable {cfg : PoolCfg} {self : Entry → PoolProg Unit} {H : List Held} {s : Pool} {r : ReqId}
  {c : ConnId} {err : Str8}

variable {o : List PoolEvent} {pc : PoolConn} {p : PoolProto} {w : PoolWorld}

/-! ## Delivery -/

theorem runCallback_goes (hself : Enters cfg self) (hb : Base (H, s)) :
    Goes cfg H s (runCallback self) H := by
  apply Does.await_bind
  intro cs
  apply Does.forEach (fun _ => H) (fun _ => True)
  · intro k ks s' o' ht _
    exact hself (.call k) H s' (Moves.base ht hb) trivial
  · trivial

theorem poolReqDone_goes {h : Held} (hm : Move cfg (h :: H, s) [.released r] (H, s.release r)) :
    Goes cfg (h :: H) s (poolReqDone r) H :=
  Does.modify_bind (Does.report hm trivial)

theorem poolReqFail_goes (hself : Enters cfg self) {got : Option Response} (hb : Base (.off r got :: H, s)) :
    Goes cfg (.off r got :: H) s (poolReqFail self r err) H := by
  apply Does.assoc
  apply Does.get_bind
  split
  · next hresp => exact Does.pure_bind (poolReqDone_goes (.releaseOff hresp))
  · next hresp =>
      apply Does.assoc
      apply Does.modify_bind
      apply Does.assoc
      apply Does.report_bind
      have hm : Move cfg (.off r got :: H, s) [.callback r { ok := false, error := err }]
          (.answered r :: H, s.respond r) := .answer (Bool.eq_false_iff.mpr hresp) (Or.inl rfl)
      apply Does.commit hm
      apply Does.bind (runCallback_goes hself (hm.base hb))
      intro _ s₁ _ _ _
      exact poolReqDone_goes .release

theorem poolReqRetryOrFail_goes (hself : Enters cfg self) {got : Option Response}
    (hb : Base (.off r got :: H, s)) : Goes cfg (.off r got :: H) s (poolReqRetryOrFail self r err) H := by
  apply Does.get_bind
  apply Does.ite
  · rintro ⟨hleft, hresp⟩
    apply Does.report_bind
    apply Does.modify_bind
    have hm : Move cfg (.off r got :: H, s) [.retried r]
        (.free r (s.reqs r).proto :: H, s.resetForRetry r) := .retry hleft hresp
    apply Does.commit hm
    exact hself (.acquire (s.reqs r).proto r) H _ (hm.base hb) trivial
  · intro _
    exact poolReqFail_goes hself hb

theorem poolSettle_goes (hself : Enters cfg self) {resp : Response} {after : PoolProg Unit}
    (hb : Base (.off r (some resp) :: H, s)) (hopen : (s.reqs r).responded = false)
    (hafter : ∀ s', Frame s s' → Base (H, s') → Goes cfg H s' after H) :
    Goes cfg (.off r (some resp) :: H) s (poolSettle cfg self r resp err after) H := by
  apply Does.get_bind
  apply Does.ite
  · intro _
    exact poolReqRetryOrFail_goes hself hb
  · intro _
    apply Does.modify_bind
    apply Does.assoc
    apply Does.report_bind
    have hm : Move cfg (.off r (some resp) :: H, s)
        [.callback r (responseDecodeEncoding cfg.decode resp)] (.answered r :: H, s.respond r) :=
      .answer hopen (Or.inr ⟨resp, rfl, rfl⟩)
    apply Does.commit hm
    apply Does.bind (runCallback_goes hself (hm.base hb))
    intro _ s₁ o₁ ht₁ _
    apply Does.bind (poolReqDone_goes .release)
    intro _ s₂ o₂ ht₂ _
    exact hafter s₂ ((hm.frame.trans (Moves.frame ht₁)).trans (Moves.frame ht₂))
      (Moves.base ht₂ (Moves.base ht₁ (hm.base hb)))

/-! ## Closing -/

theorem poolCloseConn_does (hstay : (s.conn c).state = .closing → w = (H, s) ∧ o = [])
    (hm : (s.conn c).state ≠ .closing → Move cfg w o (H, s.close c)) :
    Does (Move cfg) w o s (poolCloseConn c) H (fun _ s' => (s'.conn c).state = .closing) := by
  apply Does.get_bind
  apply Does.ite
  · intro hcl
    obtain ⟨rfl, rfl⟩ := hstay hcl
    exact Does.pure hcl
  · intro hlive
    have hcl : ((s.close c).conn c).state = .closing := by simp only [Pool.close, Pool.updConn_conn, if_pos]
    apply Does.modify_bind
    apply Does.commit (hm hlive)
    apply Does.when
    · intro _
      apply Does.await_bind
      intro now
      apply Does.when
      · intro _
        exact Does.modify (.remove hcl) hcl
      · exact fun _ => hcl
    · exact fun _ => hcl

/-- The loops of `pool_conn_fail_all`: the requests leave the hand one by one, the connection stays
    closed. -/
theorem retryAll_goes (hself : Enters cfg self) {l : List ReqId}
    (hb : Base (l.map (.off · none) ++ H, s)) (hc : c < s.nconn) (hcl : (s.conn c).state = .closing) :
    Goes cfg (l.map (.off · none) ++ H) s (forEach (fun r => poolReqRetryOrFail self r err) l) H
      (fun _ s' => (s'.conn c).state = .closing) := by
  apply Does.forEach (fun l : List ReqId => l.map (Held.off · none) ++ H)
    (fun s' : Pool => (s'.conn c).state = .closing) _ hcl
  intro r rs s' o' ht hcl'
  apply Does.strengthen (poolReqRetryOrFail_goes hself (Moves.base ht hb))
  intro _ s₁ o₁ ht₁ _
  exact ((Moves.frame ht₁).conn c (hc.trans_le (Moves.frame ht).nconn)).closing hcl'

theorem poolConnFailAll_goes (hself : Enters cfg self) (hb : Base (H, s)) (hc : c < s.nconn)
    (hrecv : (s.conn c).inRecv = false ∨ (s.conn c).state ≠ .ready) :
    Goes cfg H s (poolConnFailAll self c err) H (fun _ s' => (s'.conn c).state = .closing) := by
  apply Does.get_bind
  apply Does.ite
  · exact fun hcl => Does.pure hcl
  · intro hlive
    apply Does.report_bind
    apply Does.modify_bind
    have hstate : ((s.detachAll c).conn c).state = (s.conn c).state := by
      simp only [Pool.detachAll, Pool.updConn_conn, if_pos]
    have hhs : (s.conn c).inRecv = false ∨ (s.conn c).state = .handshaking := by
      rcases hrecv with h | h
      · exact Or.inl h
      · cases hst : (s.conn c).state with
        | handshaking => exact Or.inr rfl
        | ready => exact absurd hst h
        | closing => exact absurd hst hlive
    have hm : Move cfg (H, s) [.failed c (!(s.conn c).streams.isEmpty) (s.answers c)]
        ((s.conn c).active.map (.off · none) ++ (s.conn c).waiting.nodes.map (.off · none) ++ H,
          (s.detachAll c).close c) := .failAll hc hlive hhs
    apply Does.bind (poolCloseConn_does (fun h => absurd (hstate.symm.trans h) hlive) (fun _ => hm))
    intro _ s₁ o₁ ht₁ hcl₁
    have hb₁ := Moves.base ht₁ hb
    have hc₁ : c < s₁.nconn := hc.trans_le (Moves.frame ht₁).nconn
    rw [List.append_assoc] at hb₁ ⊢
    apply Does.bind (retryAll_goes hself hb₁ hc₁ hcl₁)
    intro _ s₂ o₂ ht₂ hcl₂
    exact retryAll_goes hself (Moves.base ht₂ hb₁) (hc₁.trans_le (Moves.frame ht₂).nconn) hcl₂

/-! ## Submitting -/

/-- `pool_h2_on_response` and `pool_h1_on_response`, when taking the request off its connection is a move
    with what has happened before. -/
theorem poolOnResponse_does (hself : Enters cfg self) {resp : Response} {refused : Bool}
    {after : ConnId → PoolProg Unit} (hb : Base w) (hskip : (s.reqs r).responded = true → w = (H, s) ∧ o = [])
    (htake : ∀ c, (s.reqs r).responded = false → (s.reqs r).pc = some c →
      Move cfg w o (.off r (some resp) :: H, s.activeRemove r c))
    (hafter : ∀ c s', c < s'.nconn → Base (H, s') → Goes cfg H s' (after c) H) :
    Does (Move cfg) w o s (poolOnResponse cfg self r resp refused err after) H (fun _ _ => True) := by
  apply Does.get_bind
  apply Does.ite
  · intro hresp
    obtain ⟨rfl, rfl⟩ := hskip hresp
    exact Does.pure trivial
  · intro hresp
    cases hpc : (s.reqs r).pc with
    | none => exact Does.stuck
    | some c =>
      have hm := htake c (Bool.eq_false_iff.mpr hresp) hpc
      have hb₁ := hm.base hb
      have hc : c < (s.activeRemove r c).nconn := hb₁.pc r c hpc
      apply Does.modify_bind
      apply Does.commit hm
      have hsettle : Goes cfg (.off r (some resp) :: H) (s.activeRemove r c)
          (poolSettle cfg self r resp err (after c)) H :=
        poolSettle_goes hself hb₁ (Bool.eq_false_iff.mpr hresp)
          (fun s' hf hb' => hafter c s' (hc.trans_le hf.nconn) hb')
      apply Does.when_bind
      · intro _
        apply Does.report_bind
        exact Does.commit .refuse hsettle
      · exact fun _ => hsettle

theorem poolH2OnResponse_goes (hself : Enters cfg self) {hr : H2Response} (hb : Base (H, s))
    (hact : r ∈ (s.conn c).active)
    (hh2 : (s.conn c).proto = .h2 ∨ (s.conn c).h2.isSome = true) :
    Goes cfg H s (poolH2OnResponse cfg self r hr) H :=
  poolOnResponse_does hself hb (fun _ => ⟨rfl, rfl⟩)
    (fun _ hresp hpc => .take _ hact hh2 hpc hresp) (fun _ _ _ _ => Does.pure trivial)

theorem poolAfterSubmit_does
    (hm : ∀ ev, (ev = [.lateSubmit r c] ∧ (s.conn c).state ≠ .ready ∨ ev = [] ∧ (s.conn c).state = .ready) →
      Move cfg w (o ++ ev) (H, s.afterSubmit r c)) :
    Does (Move cfg) w o s (poolAfterSubmit c r) H (fun _ _ => True) := by
  apply Does.get_bind
  apply Does.when_bind
  · intro hst
    exact Does.report_bind (Does.modify (hm _ (Or.inl ⟨rfl, of_decide_eq_true hst⟩)) trivial)
  · intro hst
    have hready : (s.conn c).state = .ready := by simpa using hst
    refine Does.modify ?_ trivial
    have hmove := hm [] (Or.inr ⟨rfl, hready⟩)
    rwa [List.append_nil] at hmove

theorem poolH2Submit_goes (hself : Enters cfg self) (hb : Base (.sub r c :: H, s))
    (hproto : (s.conn c).proto = .h2) (hready : (s.conn c).state = .ready) :
    Goes cfg (.sub r c :: H) s (poolH2Submit cfg self c r) H := by
  have hc : c < s.nconn := hb.head.2
  apply Does.await_bind
  rintro ⟨ok, closes⟩
  apply Does.ite
  · intro _
    apply Does.report_bind
    have hwrite : Move cfg (.sub r c :: H, s) [.write r c] (.sent r c :: H, s) :=
      .write hproto
    have hb := hwrite.base hb
    apply Does.commit hwrite
    -- the streams closed before the call returns; the request stays in hand
    have hloop : Goes cfg (.sent r c :: H) s (forEach (fun x : ReqId × H2Response => do
        let s ← get
        if x.1 ∈ (s.conn c).active then poolH2OnResponse cfg self x.1 x.2
        else when (decide (x.1 = r) && !(s.reqs r).responded) do
          report (.strayClose r)
          poolH2OnResponse cfg self r x.2) closes) (.sent r c :: H) (fun _ _ => True) := by
      apply Does.forEach (fun _ => .sent r c :: H) (fun _ => True) _ trivial
      intro x xs s' o' ht _
      have hb' := Moves.base ht hb
      have hproto' : (s'.conn c).proto = .h2 := ((Moves.frame ht).conn c hc).proto.trans hproto
      apply Does.get_bind
      apply Does.ite
      · exact fun hact => poolH2OnResponse_goes hself hb' hact (Or.inl hproto')
      · intro _
        apply Does.when
        · intro hown
          have hresp : (s'.reqs r).responded = false := by simp_all
          apply Does.report_bind
          apply poolOnResponse_does hself hb' (fun h => (by rw [hresp] at h; cases h))
            (fun _ hr hpc => .takeStray _ hproto' hpc hr) (fun _ _ _ _ => Does.pure trivial)
        · exact fun _ => trivial
    apply Does.bind hloop
    intro _ s₁ o₁ ht₁ _
    have hf := (Moves.frame ht₁).conn c hc
    have hproto₁ : (s₁.conn c).proto = .h2 := hf.proto.trans hproto
    apply poolAfterSubmit_does
    rintro ev (⟨hev, hlate⟩ | ⟨hev, hready₁⟩)
    · refine .activate _ hproto₁ (Or.inl ⟨hev, hf.state.resolve_left ?_⟩)
      intro h
      exact hlate (h.trans hready)
    · exact .activate _ hproto₁ (Or.inr ⟨hev, hready₁, fun h => absurd hproto₁ h⟩)
  · intro _
    exact Does.commit .withdraw (poolReqFail_goes hself (hb.pop.push hb.head.1))

theorem ready_of_capacity (h : poolConnHasCapacity pc = true) : pc.state = .ready ∧ pc.broken = false := by
  unfold poolConnHasCapacity at h
  split at h
  · cases h
  · next hn => simpa using hn

theorem h3c_of_capacity (hp : pc.proto = .h3) (h : poolConnHasCapacity pc = true) : pc.h3c = true := by
  unfold poolConnHasCapacity at h
  split at h
  · cases h
  · rw [hp] at h
    exact (Bool.and_eq_true_iff.mp h).1

theorem poolH1Submit_goes (hself : Enters cfg self) (hb : Base (.sub r c :: H, s))
    (hproto : (s.conn c).proto = .h1) (hcap : poolConnHasCapacity (s.conn c) = true) :
    Goes cfg (.sub r c :: H) s (poolH1Submit self c r) H := by
  apply Does.await_bind
  intro ok
  apply Does.ite
  · intro _
    apply Does.modify_bind
    apply Does.report_bind
    have hready : ((s.startH1 r c).conn c).state = .ready := by
      simp only [Pool.startH1, Pool.updConn_conn, if_pos, Pool.updReq_conn]
      exact (ready_of_capacity hcap).1
    apply Does.get_bind
    apply Does.when_bind
    · intro hst
      rw [hready] at hst
      cases hst
    · intro _
      exact Does.modify (.writeH1 hproto hcap) trivial
  · intro _
    exact Does.commit .withdraw (poolReqFail_goes hself (hb.pop.push hb.head.1))

theorem poolH3OnClosed_goes (hself : Enters cfg self) {e : Option Str8} (hb : Base (H, s)) (hc : c < s.nconn)
    (hrecv : (s.conn c).inRecv = false ∨ (s.conn c).state ≠ .ready) :
    Goes cfg H s (poolH3OnClosed self c e) H (fun _ s' => (s'.conn c).state = .closing) :=
  poolConnFailAll_goes hself hb hc hrecv

/-- The connection of an HTTP/3 submit: unchanged since the submit began, or closed by a failed send. -/
structure H3Submitting (pc : PoolConn) : Prop where
  proto : pc.proto = .h3
  inRecv : pc.inRecv = false
  h3c : pc.h3c = true
  state : pc.state = .closing ∨ Submittable pc

theorem H3Submitting.of_closing {s' : Pool} (h : H3Submitting (s.conn c)) (hf : Frame s s') (hc : c < s.nconn)
    (hcl : (s'.conn c).state = .closing) : H3Submitting (s'.conn c) :=
  have hconn := hf.conn c hc
  ⟨hconn.proto.trans h.proto, hconn.inRecv.trans h.inRecv, hconn.h3c.trans h.h3c, Or.inl hcl⟩

theorem H3Submitting.closing (h : H3Submitting pc) (hlate : pc.state ≠ .ready) : pc.state = .closing := by
  rcases h.state with hcl | hs
  · exact hcl
  · exact absurd hs.ready hlate

theorem poolH3Send_goes (hself : Enters cfg self) {a : H3Submit} (hb : Base (.streamed r c :: H, s))
    (hsub : H3Submitting (s.conn c)) :
    Goes cfg (.streamed r c :: H) s (poolH3Send self a c r) H := by
  have hc : c < s.nconn := hb.head.2
  -- the request joins `streams[]` and the active list in one move
  have hend : ∀ s', Base (.sent r c :: H, s') → H3Submitting (s'.conn c) →
      Goes cfg (.sent r c :: H) s' (Prog.modify (·.pushStream r c) >>= fun _ => poolAfterSubmit c r) H := by
    intro s' hb' hsub'
    have hst : ((s'.pushStream r c).conn c).state = (s'.conn c).state := by
      simp only [Pool.pushStream, Pool.updConn_conn, if_pos]
    apply Does.modify_bind
    apply poolAfterSubmit_does
    rintro ev (⟨hev, hlate⟩ | ⟨hev, hready⟩)
    · exact .activateH3 _ hsub'.proto hsub'.inRecv hsub'.h3c (Or.inl ⟨hev, hsub'.closing (hst ▸ hlate)⟩)
    · rcases hsub'.state with hcl | hs
      · rw [hst, hcl] at hready
        cases hready
      · exact .activateH3 _ hsub'.proto hsub'.inRecv hsub'.h3c (Or.inr ⟨hev, hs⟩)
  apply Does.ite
  · intro _
    exact Does.commit .abandon (poolReqRetryOrFail_goes hself (hb.pop.push hb.head.1))
  · intro _
    apply Does.report_bind
    have hwrite : Move cfg (.streamed r c :: H, s) [.write r c] (.sent r c :: H, s) := .writeH3 hsub.proto
    have hb := hwrite.base hb
    apply Does.commit hwrite
    apply Does.whenSome_bind
    · intro e _
      apply Does.bind (poolH3OnClosed_goes hself hb hc (Or.inl hsub.inRecv))
      intro _ s₁ o₁ ht₁ hcl
      exact hend s₁ (Moves.base ht₁ hb) (hsub.of_closing (Moves.frame ht₁) hc hcl)
    · exact fun _ => hend s hb hsub

theorem poolH3Submit_goes (hself : Enters cfg self) (hb : Base (.sub r c :: H, s))
    (hsub : H3Submitting (s.conn c)) :
    Goes cfg (.sub r c :: H) s (poolH3Submit cfg self c r) H := by
  have hc : c < s.nconn := hb.head.2
  apply Does.await_bind
  intro a
  apply Does.get_bind
  apply Does.ite
  · intro _
    exact Does.commit .withdraw (poolReqRetryOrFail_goes hself (hb.pop.push hb.head.1))
  intro _
  apply Does.modify_bind
  have hm : Move cfg (.sub r c :: H, s) [] (.streamed r c :: H, s.openStream r c) := .openStream hsub.proto
  have hb₁ := hm.base hb
  have hsub₁ : H3Submitting ((s.openStream r c).conn c) := by
    simp only [Pool.openStream, Pool.updReq_conn, Pool.updConn_conn, if_pos]
    exact ⟨hsub.proto, hsub.inRecv, hsub.h3c, hsub.state.imp id (fun h => ⟨h.ready, h.capacity⟩)⟩
  apply Does.commit hm
  apply Does.ite
  · intro _
    exact Does.commit .abandon (poolReqRetryOrFail_goes hself (hb₁.pop.push hb₁.head.1))
  intro _
  -- the control streams are set up, or a PRIORITY_UPDATE is sent
  have hctrl : ∀ s', Base (.streamed r c :: H, s') → H3Submitting (s'.conn c) →
      Goes cfg (.streamed r c :: H) s' (Prog.modify (·.updConn c (fun pc => { pc with controlOpened := true }))
        >>= fun _ => poolH3Send self a c r) H := by
    intro s' hb' hsub'
    have hm' : Move cfg (.streamed r c :: H, s') [] (.streamed r c :: H,
        s'.updConn c (fun _ => { s'.conn c with controlOpened := true })) :=
      .touch hb'.head.2 ⟨rfl, rfl, rfl, rfl, rfl, id, rfl, rfl, rfl, rfl, rfl, rfl, rfl, rfl, rfl, rfl, rfl, rfl⟩
    apply Does.modify_bind
    apply Does.commit hm'
    apply poolH3Send_goes hself (hm'.base hb')
    simp only [Pool.updConn_conn, if_pos]
    exact ⟨hsub'.proto, hsub'.inRecv, hsub'.h3c, hsub'.state.imp id (fun h => ⟨h.ready, h.capacity⟩)⟩
  apply Does.when_bind
  · intro _
    apply Does.assoc
    apply Does.whenSome_bind
    · intro e _
      apply Does.bind (poolH3OnClosed_goes hself hb₁ hb₁.head.2 (Or.inl hsub₁.inRecv))
      intro _ s₂ o₂ ht₂ hcl
      exact hctrl s₂ (Moves.base ht₂ hb₁) (hsub₁.of_closing (Moves.frame ht₂) hb₁.head.2 hcl)
    · exact fun _ => hctrl _ hb₁ hsub₁
  · exact fun _ => poolH3Send_goes hself hb₁ hsub₁

/-- Queueing a request, when that is a move with what has happened before. -/
theorem poolPark_does (hm : ∀ ev, (ev = [.queuedOnDrained r c] ∨ ev = [] ∧ (s.conn c).drained = false) →
      Move cfg w (o ++ ev) (H, s.waitingPush r c)) :
    Does (Move cfg) w o s (poolPark c r) H (fun _ _ => True) := by
  apply Does.get_bind
  apply Does.when_bind
  · intro _
    exact Does.report_bind (Does.modify (hm _ (Or.inl rfl)) trivial)
  · intro hd
    refine Does.modify ?_ trivial
    have hmove := hm [] (Or.inr ⟨rfl, hd⟩)
    rwa [List.append_nil] at hmove

theorem poolPark_goes (hlive : (s.conn c).state ≠ .closing) (hsound : (s.conn c).broken = false) :
    Goes cfg (.sub r c :: H) s (poolPark c r) H := by
  apply poolPark_does
  rintro ev (hev | ⟨hev, hd⟩)
  · exact .park _ (Or.inl hev)
  · exact .park _ (Or.inr ⟨hev, hlive, hsound, hd⟩)

theorem poolSubmit_goes (hself : Enters cfg self) {H₀ : List Held}
    (hset : Move cfg (H₀, s) [] (.sub r c :: H, s.setPc r c)) (hb : Base (H₀, s))
    (hready : (s.conn c).state = .ready) (hsound : (s.conn c).broken = false)
    (hcap : (s.conn c).proto = .h1 → poolConnHasCapacity (s.conn c) = true) :
    Goes cfg H₀ s (poolSubmit cfg self c r) H := by
  have hb₁ := hset.base hb
  have hlive : ((s.setPc r c).conn c).state ≠ .closing := by
    show (s.conn c).state ≠ .closing
    rw [hready]
    decide
  apply Does.modify_bind
  apply Does.commit hset
  apply Does.get_bind
  apply Does.ite
  · exact fun _ => poolPark_goes hlive hsound
  intro hrecv
  apply Does.ite
  · exact fun _ => poolPark_goes hlive hsound
  intro hcap3
  cases hp : ((s.setPc r c).conn c).proto with
  | h2 => exact poolH2Submit_goes hself hb₁ hp hready
  | h1 => exact poolH1Submit_goes hself hb₁ hp (hcap hp)
  | h3 =>
    rw [hp] at hrecv hcap3
    have hin : ((s.setPc r c).conn c).inRecv = false := by simpa using hrecv
    have hc3 : poolConnHasCapacity ((s.setPc r c).conn c) = true := by simpa using hcap3
    exact poolH3Submit_goes hself hb₁ ⟨hp, hin, h3c_of_capacity hp hc3, Or.inr ⟨hready, fun _ => hc3⟩⟩

theorem poolFlushWaiting_goes (hself : Enters cfg self) (hcalm : Calm H) (hb : Base (H, s)) :
    Goes cfg H s (poolFlushWaiting cfg self c) H := by
  apply Does.get_bind
  cases hpop : (s.conn c).waiting.pop with
  | none => exact Does.pure trivial
  | some rw' =>
    obtain ⟨r, w⟩ := rw'
    apply Does.ite
    · intro hcap
      have hm : Move cfg (H, s) [] (.sub r c :: H, s.setWaiting c w) := .pop hcalm hpop hcap
      have hconn : (s.setWaiting c w).conn c = { s.conn c with waiting := w } := by
        simp only [Pool.setWaiting, Pool.updConn_conn, if_pos]
      have hsub : Goes cfg (.sub r c :: H) (s.setWaiting c w) (poolSubmit cfg self c r) H := by
        apply poolSubmit_goes hself .reassign (hm.base hb)
        · rw [hconn]
          exact (ready_of_capacity hcap).1
        · rw [hconn]
          exact (ready_of_capacity hcap).2
        · rw [hconn]
          exact fun _ => hcap
      apply Does.modify_bind
      apply Does.commit hm
      apply Does.bind hsub
      intro _ s₁ o₁ ht₁ _
      exact hself (.flush c) H s₁ (Moves.base ht₁ (hm.base hb)) hcalm
    · exact fun _ => Does.pure trivial

/-! ## Acquiring a connection -/

/-- `pool_conn_open`: unless the failure of the connection was reported before the connect returned, the
    request can be queued on it. -/
theorem poolConnOpen_goes (hself : Enters cfg self) (hb : Base (.free r p :: H, s))
    (hroom : s.conns.length < poolMaxConns) :
    Goes cfg (.free r p :: H) s (poolConnOpen self p r) (.opened r s.nconn :: H)
      (fun res s' => res = some s.nconn ∧
        ((s'.conn s.nconn).state ≠ .closing → Queueable (s'.conn s.nconn))) := by
  apply Does.get_bind
  apply Does.ite
  · intro hfull
    exact absurd hroom (Nat.not_lt.mpr hfull)
  · intro _
    have hm : Move cfg (.free r p :: H, s) [.opened s.nconn r] (.opened r s.nconn :: H, s.addConn p (s.reqs r)) :=
      .open hroom
    apply Does.modify_bind
    apply Does.report_bind
    apply Does.commit hm
    apply Does.await_bind
    intro err
    apply Does.whenSome_bind
    · intro e _
      apply Does.bind (poolConnFailAll_goes hself (hm.base hb) (Nat.lt_succ_self _) (Or.inl (by simp)))
      intro _ s₁ o₁ ht₁ hcl
      exact Does.pure ⟨rfl, fun h => absurd hcl h⟩
    · intro _
      exact Does.pure ⟨rfl, fun _ => by constructor <;> simp⟩

theorem mem_candidates {origin : Str8} (h : c ∈ poolCandidates s p origin) :
    (s.conn c).broken = false ∧ (s.conn c).state ≠ .closing ∧ (s.conn c).proto = p := by
  have h' := (List.mem_filter.mp h).2
  simp only [Bool.and_eq_true, decide_eq_true_eq, Bool.not_eq_true'] at h'
  exact ⟨h'.1.1.2, h'.1.2, h'.1.1.1⟩

theorem poolAcquire_goes (hself : Enters cfg self) (hb : Base (.free r p :: H, s)) :
    Goes cfg (.free r p :: H) s (poolAcquire cfg self p r) H := by
  -- a request that found no connection, a queued one, and one that is submitted
  have hfail : ∀ {s' : Pool} {e : Str8}, Base (.free r p :: H, s') →
      Goes cfg (.free r p :: H) s' (poolReqFail self r e) H :=
    fun hb' => Does.commit .giveUp (poolReqFail_goes hself (hb'.pop.push hb'.head))
  have hpark : ∀ {c : ConnId}, c ∈ poolCandidates s p (s.reqs r).origin →
      Goes cfg (.free r p :: H) s (Prog.modify (·.setPc r c) >>= fun _ => poolPark c r) H := by
    intro c hc
    apply Does.modify_bind
    apply Does.commit (.assign hc)
    exact poolPark_goes (mem_candidates hc).2.1 (mem_candidates hc).1
  have hsubmit : ∀ {c : ConnId}, c ∈ poolCandidates s p (s.reqs r).origin → (s.conn c).state = .ready →
      (p = .h1 → poolConnHasCapacity (s.conn c) = true) →
      Goes cfg (.free r p :: H) s (poolSubmit cfg self c r) H := by
    intro c hc hready hcap
    apply poolSubmit_goes hself (.assign hc) hb hready (mem_candidates hc).1
    rw [(mem_candidates hc).2.2]
    exact hcap
  apply Does.get_bind
  dsimp only
  split
  · next c _ hre =>
      have hpred := List.find?_some hre
      simp only [Bool.and_eq_true, decide_eq_true_eq] at hpred
      exact hsubmit (List.mem_of_find?_eq_some hre) hpred.1 (fun _ => hpred.2)
  · next c _ hhs =>
      split at hhs
      · cases hhs
      · exact hpark (List.mem_of_find?_eq_some hhs)
  · next hre hhs =>
      apply Does.ite
      · intro hroom
        apply Does.bind (poolConnOpen_goes hself hb hroom.2)
        rintro _ s₁ o₁ ht₁ ⟨rfl, hq⟩
        apply Does.get_bind
        apply Does.when_bind
        · intro _
          apply Does.report_bind
          apply Does.modify_bind
          exact Does.modify (.parkNew _ (Or.inl rfl)) trivial
        · intro hcl
          apply Does.modify_bind
          exact Does.modify (.parkNew _ (Or.inr ⟨rfl, hq (of_decide_eq_false hcl)⟩)) trivial
      · intro _
        split
        · exact hfail hb
        · next c hc =>
            split at hc
            · next hp =>
                rw [if_pos hp]
                apply hpark
                rcases Option.or_eq_some_iff.mp hc with h | h
                · exact List.mem_of_find?_eq_some h
                · exact List.mem_of_find?_eq_some h.2
            · next hp =>
                rw [if_neg hp]
                exact hsubmit (List.mem_of_find?_eq_some hc) (by simpa using List.find?_some hc)
                  (fun h => absurd h hp)

theorem poolDispatch_goes (hself : Enters cfg self) {proto : PoolProto} {method : Method} {url : Str8}
    {deadline : Bool} (hb : Base (H, s)) :
    Goes cfg H s (poolDispatch self proto method url deadline) H := by
  apply Does.get_bind
  apply Does.ite
  · intro _
    apply Does.report_bind
    exact Does.commit (.reject url) (runCallback_goes hself hb)
  · intro hok
    have hm : Move cfg (H, s) [.dispatched s.nreq]
        (.free s.nreq proto :: H, s.addReq (.ofUrl proto method url deadline)) :=
      .dispatch proto method url deadline (by simp only [not_or, Bool.not_eq_false] at hok; exact hok.1)
    apply Does.modify_bind
    apply Does.report_bind
    apply Does.commit hm
    exact hself (.acquire proto s.nreq) H _ (hm.base hb) trivial

/-! ## Eviction -/

theorem poolIdleClose_goes (hc : c < s.nconn) (hempty : (s.conn c).inflight = 0) :
    Goes cfg H s (poolIdleClose c) H := by
  apply Does.get_bind
  apply Does.when_bind
  · intro hlive
    apply Does.report_bind
    apply Does.forget (poolCloseConn_does (fun h => absurd h (of_decide_eq_true hlive))
      (fun _ => .idleClose hc hempty))
  · intro hcl
    apply Does.forget (poolCloseConn_does (fun _ => ⟨rfl, rfl⟩)
      (fun h => absurd h (of_decide_eq_false hcl)))

theorem poolEvictAll_goes (hb : Base (H, s)) : Goes cfg H s poolEvictAll H := by
  have hm : Move cfg (H, s) [.evicted s.nconn] (H, s.markAllBroken) := .evict
  apply Does.get_bind
  apply Does.modify_bind
  apply Does.report_bind
  apply Does.commit hm
  apply Does.forEach (fun _ => H) (fun _ => True) _ trivial
  intro i is s' o' ht _
  apply Does.get_bind
  apply Does.whenSome
  · intro c hc
    apply Does.when
    · intro hclose
      simp only [Bool.and_eq_true, beq_iff_eq] at hclose
      exact poolIdleClose_goes ((Moves.base ht (hm.base hb)).conns c (List.mem_of_getElem? hc)) hclose.2
    · exact fun _ => trivial
  · exact fun _ => trivial

/-! ## Tying the knot -/

/-- **The entry points make moves**, however deep the pool is entered. -/
theorem poolRec_enters (cfg : PoolCfg) (n : Nat) : Enters cfg (poolRec cfg n) := by
  intro e H s hb hfits
  refine wp_fix (fun (H : List Held) (e : Entry) s => Base (e.hand ++ H, s) ∧ e.Fits H)
    (fun H e s _ s' o => Runs.Trace (Move cfg) (e.hand ++ H, s) ([] ++ o) (H, s') ∧ True) ?_ n H e s ⟨hb, hfits⟩
  · rintro self hself H e s ⟨hb, hfits⟩
    have hself' : Enters cfg self := fun e H s hb hfits => hself H e s ⟨hb, hfits⟩
    match e with
    | .acquire p r => exact poolAcquire_goes hself' hb
    | .flush c => exact poolFlushWaiting_goes hself' hfits hb
    | .call (.dispatch proto method url deadline) => exact poolDispatch_goes hself' hb
    | .call .evictAll => exact poolEvictAll_goes hb

end

end HolyTls

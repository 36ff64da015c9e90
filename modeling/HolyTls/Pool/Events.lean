import HolyTls.Pool.Sweep

/-!
# `Pool.Events` — the event handlers make moves

The counterpart of `Pool.Sweep` for `Pool.Step`: one lemma per handler, and `poolStep_turns`, that an event
as a whole is a sequence of moves from an empty hand to an empty hand. With it a property of all runs of
the pool is an invariant of moves (`PoolReach.turns`).
-/

namespace HolyTls

open Prog

variable {α : Type}

variable {o : List PoolEvent} {w w' : PoolWorld}

/-- The handler acts, from `H` in hand to `H'` in hand. -/
abbrev Handles (cfg : PoolCfg) (H : List Held) (s : Pool) (m : PoolProg α) (H' : List Held)
    (R : α → Pool → Prop := fun _ _ => True) : Prop :=
  Does (Act cfg) (H, s) [] s m H' R

section

variable {cfg : PoolCfg} {self : Entry → PoolProg Unit} {H : List Held} {s : Pool} {r : ReqId}
  {c : ConnId} {err : Str8}

variable {res : Except Str8 Str8} {reads : List H2Recv}

theorem Goes.handles {m : PoolProg α} {H' : List Held} {R : α → Pool → Prop} (h : Goes cfg H s m H' R) :
    Handles cfg H s m H' R :=
  h.widen (fun _ _ _ hm => .move hm)

/-- Code that may be entered again, and then the rest of a handler. -/
theorem Goes.handles_bind {β : Type} {m : PoolProg α} {f : α → PoolProg β} {H₁ H₂ : List Held}
    {P : α → Pool → Prop} {R : β → Pool → Prop} (h : Goes cfg H s m H₁ P)
    (h' : ∀ a s₁ o₁, Moves cfg (H, s) o₁ (H₁, s₁) → P a s₁ → Handles cfg H₁ s₁ (f a) H₂ R) :
    Handles cfg H s (m >>= f) H₂ R :=
  Does.widen_bind (fun _ _ _ hm => .move hm) h h'

/-! ## Idle connections -/

theorem poolUpdateIdle_goes (hself : Enters cfg self) (hb : Base ([], s)) (hc : c < s.nconn) :
    Goes cfg [] s (poolUpdateIdle self c) [] := by
  apply Does.get_bind
  apply Does.ite
  · exact fun _ => Does.pure trivial
  intro hlive
  apply Does.ite
  · intro hbroken
    have hm : Move cfg ([], s) [] ((s.conn c).waiting.nodes.map (.free · (s.conn c).proto) ++ [],
        s.detachWaiting c) := .rehome Calm.nil hbroken
    have hb₁ := hm.base hb
    have hdrained : ((s.detachWaiting c).conn c).drained = true := by
      simp only [Pool.detachWaiting, Pool.updConn_conn, if_pos]
    apply Does.modify_bind
    apply Does.commit hm
    have hloop : Goes cfg ((s.conn c).waiting.nodes.map (.free · (s.conn c).proto) ++ []) (s.detachWaiting c)
        (forEach (fun r => do
          modify (·.clearPc r)
          self (.acquire (s.conn c).proto r)) (s.conn c).waiting.nodes) [] (fun _ _ => True) := by
      apply Does.forEach (fun l : List ReqId => l.map (Held.free · (s.conn c).proto) ++ [])
        (fun _ => True) _ trivial
      intro r rs s' o' ht _
      have hm' : Move cfg (.free r (s.conn c).proto :: (rs.map (.free · (s.conn c).proto) ++ []), s') []
          (.free r (s.conn c).proto :: (rs.map (.free · (s.conn c).proto) ++ []), s'.clearPc r) := .unassign
      apply Does.modify_bind
      apply Does.commit hm'
      exact hself (.acquire (s.conn c).proto r) _ _ (hm'.base (Moves.base ht hb₁)) trivial
    apply Does.bind hloop
    intro _ s₁ o₁ ht₁ _
    have hdrained₁ := ((Moves.frame ht₁).conn c hc).drained hdrained
    apply Does.get_bind
    apply Does.when
    · intro hempty
      exact Does.forget (poolCloseConn_does (fun _ => ⟨rfl, rfl⟩)
        (fun _ => .closeDrained hdrained₁ (.inl (eq_of_beq hempty))))
    · exact fun _ => trivial
  · intro _
    apply Does.when
    · intro _
      exact Does.modify (.touch hc ⟨rfl, rfl, rfl, rfl, rfl, id, rfl, rfl, rfl, rfl, rfl, rfl, rfl, rfl,
        rfl, rfl, rfl, rfl⟩) trivial
    · exact fun _ => trivial

theorem setInDrain_goes {b : Bool} (hc : c < s.nconn) : Goes cfg H s (setInDrain c b) H :=
  Does.modify (.touch hc ⟨rfl, rfl, rfl, rfl, rfl, id, rfl, rfl, rfl, rfl, rfl, rfl, rfl, rfl, rfl, rfl,
    rfl, rfl⟩) trivial

theorem markBroken_goes (hc : c < s.nconn) : Goes cfg H s (Prog.modify (·.markBroken c)) H :=
  Does.modify (.touch hc ⟨rfl, rfl, rfl, rfl, rfl, fun _ => rfl, rfl, rfl, rfl, rfl, rfl, rfl, rfl, rfl,
    rfl, rfl, rfl, rfl⟩) trivial

/-- The end of a read: what waits is submitted, idleness is noted. -/
theorem flushThenIdle_goes (hself : Enters cfg self) (hb : Base ([], s)) (hc : c < s.nconn) :
    Goes cfg [] s (self (.flush c) >>= fun _ => poolUpdateIdle self c) [] := by
  apply Does.bind (hself (.flush c) [] s hb Calm.nil)
  intro _ s₁ o₁ ht₁ _
  exact poolUpdateIdle_goes hself (Moves.base ht₁ hb) (hc.trans_le (Moves.frame ht₁).nconn)

/-! ## HTTP/2 -/

theorem poolConnFallbackLegacy_handles (hself : Enters cfg self) (hb : Base ([], s)) (hc : c < s.nconn)
    (hstate : (s.conn c).state = .handshaking) :
    Handles cfg [] s (poolConnFallbackLegacy self c) [] := by
  have hm : Act cfg ([], s) [] ((s.conn c).waiting.nodes.map (.off · none) ++ [], s.detachWaiting c) :=
    .fallback hc hstate
  have hb₁ := hm.base hb
  apply Does.get_bind
  apply Does.modify_bind
  apply Does.commit hm
  -- the connection stays drained, and whatever the callbacks do, it does not become ready
  have hloop : Handles cfg ((s.conn c).waiting.nodes.map (.off · none) ++ []) (s.detachWaiting c)
      (forEach (fun r => do
        modify (·.updReq r (fun q => { q with legacy := true }))
        report (.legacy r)
        runCallback self
        poolReqDone r) (s.conn c).waiting.nodes) []
      (fun _ s' => (s'.conn c).drained = true ∧ (s'.conn c).state ≠ .ready) := by
    apply Does.forEach (fun l : List ReqId => l.map (Held.off · none) ++ [])
      (fun s' : Pool => (s'.conn c).drained = true ∧ (s'.conn c).state ≠ .ready)
    · intro r rs s' o' ht hJ
      have hb' := Acts.base ht hb₁
      have hc' : c < s'.nconn := hc.trans_le (Acts.frame ht).nconn
      have hm' : Act cfg (.off r none :: (rs.map (.off · none) ++ []), s') [.legacy r]
          (.answered r :: (rs.map (.off · none) ++ []),
            s'.updReq r (fun q => { q with legacy := true })) := .legacy
      apply Does.modify_bind
      apply Does.report_bind
      apply Does.commit hm'
      apply Goes.handles_bind (runCallback_goes hself (hm'.base hb'))
      intro _ s₁ o₁ ht₁ _
      have hJ₁ : (s₁.conn c).drained = true ∧ (s₁.conn c).state ≠ .ready := by
        have hf := (Moves.frame ht₁).conn c hc'
        refine ⟨hf.drained hJ.1, ?_⟩
        rcases hf.state with h | h
        · rw [h]
          exact hJ.2
        · rw [h]
          decide
      apply Goes.handles
      exact Does.modify_bind (Does.report .release hJ₁)
    · simp only [Pool.detachWaiting, Pool.updConn_conn, if_pos, hstate]
      decide
  apply Does.bind hloop
  intro _ s₁ o₁ ht₁ hJ
  have hc₁ : c < s₁.nconn := hc.trans_le (Acts.frame ht₁).nconn
  apply Goes.handles
  apply Does.bind (markBroken_goes hc₁)
  intro _ s₂ o₂ ht₂ _
  have hf := (Moves.frame ht₂).conn c hc₁
  refine Does.forget (poolCloseConn_does (fun _ => ⟨rfl, rfl⟩)
    (fun hlive => .closeDrained (hf.drained hJ.1) (.inr ?_)))
  have hready : (s₂.conn c).state ≠ .ready := by
    rcases hf.state with h | h
    · rw [h]
      exact hJ.2
    · exact absurd h hlive
  cases hst : (s₂.conn c).state with
  | handshaking => rfl
  | ready => exact absurd hst hready
  | closing => exact absurd hst hlive

theorem h2OnFrame_goes (hself : Enters cfg self) {f : H2Frame} (hb : Base (H, s)) (hc : c < s.nconn)
    (hproto : (s.conn c).proto = .h2) : Goes cfg H s (h2OnFrame cfg self c f) H := by
  cases f with
  | close r resp =>
    apply Does.get_bind
    apply Does.when
    · intro hact
      exact poolH2OnResponse_goes hself hb (of_decide_eq_true hact) (.inl hproto)
    · exact fun _ => trivial
  | goaway | maxConcurrent n =>
    exact Does.modify (.touch hc ⟨rfl, rfl, rfl, rfl, rfl, id, rfl, rfl, Option.isSome_map, rfl, rfl, rfl, rfl,
      rfl, rfl, rfl, rfl, rfl⟩) trivial

theorem poolH2DrainLoop_goes (hself : Enters cfg self) (hb : Base (H, s)) (hc : c < s.nconn)
    (hproto : (s.conn c).proto = .h2) :
    Goes cfg H s (poolH2DrainLoop cfg self c reads) H := by
  induction reads generalizing s with
  | nil => exact Does.pure trivial
  | cons rd rest ih =>
    apply Does.get_bind
    apply Does.ite
    · exact fun _ => Does.pure trivial
    intro _
    have hframes : Goes cfg H s (forEach (h2OnFrame cfg self c) rd.frames) H (fun _ _ => True) := by
      apply Does.forEach (fun _ => H) (fun _ => True) _ trivial
      intro f fs s' o' ht _
      exact h2OnFrame_goes hself (Moves.base ht hb) (hc.trans_le (Moves.frame ht).nconn)
        (((Moves.frame ht).conn c hc).proto.trans hproto)
    apply Does.bind hframes
    intro _ s₁ o₁ ht₁ _
    apply Does.ite
    · exact fun _ => Does.pure trivial
    intro _
    apply Does.get_bind
    apply Does.ite
    · exact fun _ => Does.pure trivial
    intro _
    exact ih (Moves.base ht₁ hb) (hc.trans_le (Moves.frame ht₁).nconn)
      (((Moves.frame ht₁).conn c hc).proto.trans hproto)

theorem poolH2Drain_goes (hself : Enters cfg self) (hb : Base ([], s)) (hc : c < s.nconn)
    (hproto : (s.conn c).proto = .h2) (hrecv : (s.conn c).inRecv = false) :
    Goes cfg [] s (poolH2Drain cfg self c reads) [] := by
  apply Does.get_bind
  apply Does.ite
  · exact fun _ => Does.pure trivial
  intro _
  apply Does.bind (setInDrain_goes hc)
  intro _ s₁ o₁ ht₁ _
  have hf₁ := Moves.frame ht₁
  have hb₁ := Moves.base ht₁ hb
  apply Does.bind (poolH2DrainLoop_goes hself hb₁ (hc.trans_le hf₁.nconn) ((hf₁.conn c hc).proto.trans hproto))
  intro failed s₂ o₂ ht₂ _
  have hf₂ := hf₁.trans (Moves.frame ht₂)
  have hb₂ := Moves.base ht₂ hb₁
  apply Does.bind (setInDrain_goes (hc.trans_le hf₂.nconn))
  intro _ s₃ o₃ ht₃ _
  have hf₃ := hf₂.trans (Moves.frame ht₃)
  have hb₃ := Moves.base ht₃ hb₂
  have hc₃ : c < s₃.nconn := hc.trans_le hf₃.nconn
  apply Does.ite
  · intro _
    exact Does.forget (poolConnFailAll_goes hself hb₃ hc₃ (.inl ((hf₃.conn c hc).inRecv.trans hrecv)))
  · intro _
    apply Does.get_bind
    apply Does.when_bind
    · intro _
      apply Does.bind (markBroken_goes hc₃)
      intro _ s₄ o₄ ht₄ _
      exact flushThenIdle_goes hself (Moves.base ht₄ hb₃) (hc₃.trans_le (Moves.frame ht₄).nconn)
    · exact fun _ => flushThenIdle_goes hself hb₃ hc₃

/-- `pool_conn_fail_all` of a connection that is not ready yet. -/
theorem failHandshake_handles (hself : Enters cfg self) (hb : Base (H, s)) (hc : c < s.nconn)
    (hstate : (s.conn c).state = .handshaking) :
    Handles cfg H s (poolConnFailAll self c err) H := by
  apply Goes.handles
  exact Does.forget (poolConnFailAll_goes hself hb hc (.inr (by rw [hstate]; decide)))

theorem poolH2OnReady_handles (hself : Enters cfg self) {session : Bool} (hb : Base ([], s))
    (hc : c < s.nconn) (hproto : (s.conn c).proto = .h2) (hrecv : (s.conn c).inRecv = false)
    (hstate : (s.conn c).state = .handshaking) :
    Handles cfg [] s (poolH2OnReady cfg self c res session reads) [] := by
  cases res with
  | error e => exact failHandshake_handles hself hb hc hstate
  | ok alpn =>
    apply Does.ite
    · exact fun _ => poolConnFallbackLegacy_handles hself hb hc hstate
    intro _
    apply Does.ite
    · exact fun _ => failHandshake_handles hself hb hc hstate
    intro _
    have hm : Act cfg ([], s) [] ([], s.updConn c (fun pc => { pc with h2 := some {}, state := .ready })) :=
      .ready (some {}) (s.conn c).h3c hc hstate (.inr hproto) (fun h => (by rw [hproto] at h; cases h))
    have hb₁ := hm.base hb
    apply Does.modify_bind
    apply Does.commit hm
    apply Goes.handles
    apply Does.bind (hself (.flush c) [] _ hb₁ Calm.nil)
    intro _ s₂ o₂ ht₂ _
    have hf₂ := (Moves.frame ht₂).conn c hc
    apply poolH2Drain_goes hself (Moves.base ht₂ hb₁) (hc.trans_le (Moves.frame ht₂).nconn)
    · rw [hf₂.proto]
      simp only [Pool.updConn_conn, if_pos, hproto]
    · rw [hf₂.inRecv]
      simp only [Pool.updConn_conn, if_pos, hrecv]

/-! ## Between two events -/

/-- No QUIC connection is being read from, and a connection from which nothing more is read is closed, save
    for those in `E`. -/
structure Quiet (s : Pool) (E : ConnId → Prop := fun _ => False) : Prop where
  recv : ∀ c, (s.conn c).inRecv = true → E c
  ended : ∀ c, (s.conn c).ended = true → (s.conn c).state = .closing ∨ E c

theorem Quiet.inRecv (h : Quiet s) (c : ConnId) : (s.conn c).inRecv = false :=
  Bool.eq_false_iff.mpr (h.recv c)

theorem Quiet.frame {s' : Pool} {E : ConnId → Prop} (h : Quiet s E) (hb : Base (H, s)) (hf : ActFrame s s') :
    Quiet s' E := by
  refine ⟨fun c hr => h.recv c (hf.recv c hr), ?_⟩
  intro c he
  have he₀ := hf.ended c he
  have hc : c < s.nconn := hb.lt_of_ne (fun hnew => (by rw [hnew] at he₀; cases he₀))
  exact (h.ended c he₀).imp_left (hf.conn c hc).closing

/-- Reading from a connection, the others are left alone. -/
theorem Quiet.updConn {g : PoolConn → PoolConn} (h : Quiet s (· = c)) : Quiet (s.updConn c g) (· = c) := by
  constructor
  · intro x hx
    rw [Pool.updConn_conn] at hx
    split at hx
    · assumption
    · exact h.recv x hx
  · intro x hx
    rw [Pool.updConn_conn] at hx ⊢
    split at hx
    · next hxc => exact .inr hxc
    · next hxc =>
        rw [if_neg hxc]
        exact h.ended x hx

theorem Quiet.weaken (h : Quiet s) (c : ConnId) : Quiet s (· = c) :=
  ⟨fun x hx => (h.recv x hx).elim, fun x hx => (h.ended x hx).imp_right False.elim⟩

/-- The connection that was read from is settled too. -/
theorem Quiet.settle (h : Quiet s (· = c)) (hrecv : (s.conn c).inRecv = false)
    (hended : (s.conn c).ended = true → (s.conn c).state = .closing) : Quiet s := by
  constructor
  · intro x hx
    rw [h.recv x hx, hrecv] at hx
    cases hx
  · intro x hx
    rcases h.ended x hx with hcl | rfl
    · exact .inl hcl
    · exact .inl (hended hx)

/-- A handler that acts keeps the pool quiet. -/
theorem Handles.turns {m : PoolProg Unit} {H' : List Held} (h : Handles cfg H s m H') (hb : Base (H, s))
    (hq : Quiet s) : Does (Turn cfg) (H, s) [] s m H' (fun _ s' => Quiet s') :=
  (Does.strengthen h (fun _ _ _ ht _ => hq.frame hb (Acts.frame ht))).widen (fun _ _ _ hm => .act hm)

theorem Turn.base (h : Turn cfg w o w') (hb : Base w) : Base w' := by
  cases h with
  | act h => exact h.base hb
  | setInRecv b hc hb' | h1Ignore data hc hnone | h1Closed hc hproto => exact hb.updConn_le hc (fun _ h => h)
  | @h1Feed H s c r h data hproto hopen hhead hh1 | @h1Eof H s c r h hproto hopen hhead hh1 =>
    have hc : c < s.nconn := hb.lt_of_refers (.inr (.inl (List.mem_of_head? hhead)))
    exact (hb.updConn_le hc (fun _ h => h)).updReq (hb.pc r)

theorem Turns.base (h : Turns cfg w o w') : Base w → Base w' :=
  h.preserves (fun _ _ _ hm => hm.base)

/-! ## HTTP/1.1 -/

theorem poolH1OnReady_handles (hself : Enters cfg self) (hb : Base ([], s)) (hc : c < s.nconn)
    (hproto : (s.conn c).proto = .h1) (hstate : (s.conn c).state = .handshaking) :
    Handles cfg [] s (poolH1OnReady self c res) [] := by
  cases res with
  | error e => exact failHandshake_handles hself hb hc hstate
  | ok alpn =>
    apply Does.ite
    · exact fun _ => failHandshake_handles hself hb hc hstate
    intro _
    have hm : Act cfg ([], s) [] ([], s.updConn c (fun pc => { pc with state := .ready })) :=
      .ready (s.conn c).h2 (s.conn c).h3c hc hstate (.inl rfl) (fun h => (by rw [hproto] at h; cases h))
    apply Does.modify_bind
    apply Does.commit hm
    exact Goes.handles (hself (.flush c) [] _ (hm.base hb) Calm.nil)

/-- The handler of a read from a connection that speaks HTTP/1.1 runs. -/
structure ReadsH1 (s : Pool) (c : ConnId) : Prop where
  base : Base ([], s)
  lt : c < s.nconn
  proto : (s.conn c).proto = .h1
  recv : (s.conn c).inRecv = false
  quiet : Quiet s (· = c)

theorem ReadsH1.frame {s' : Pool} (h : ReadsH1 s c) (hb : Base ([], s')) (hf : ActFrame s s') : ReadsH1 s' c :=
  ⟨hb, h.lt.trans_le hf.nconn, (hf.conn c h.lt).proto.trans h.proto, (hf.inRecv c h.lt).trans h.recv,
    h.quiet.frame h.base hf⟩

/-- Bytes, or the end, change the connection and the session of a request. -/
theorem ReadsH1.feed {g : PoolConn → PoolConn} {f : PoolReq → PoolReq} (h : ReadsH1 s c)
    (hb : Base ([], (s.updConn c g).updReq r f)) (hproto : (g (s.conn c)).proto = .h1)
    (hrecv : (g (s.conn c)).inRecv = false) : ReadsH1 ((s.updConn c g).updReq r f) c := by
  have hconn : ((s.updConn c g).updReq r f).conn c = g (s.conn c) := by
    rw [Pool.updReq_conn, Pool.updConn_conn, if_pos rfl]
  exact ⟨hb, h.lt, hconn ▸ hproto, hconn ▸ hrecv, h.quiet.updConn.1, h.quiet.updConn.2⟩

theorem ReadsH1.fail (hself : Enters cfg self) (h : ReadsH1 s c) :
    Does (Turn cfg) ([], s) [] s (poolConnFailAll self c err) [] (fun _ s' => Quiet s') := by
  have hgoes : Goes cfg [] s (poolConnFailAll self c err) [] (fun _ s' => (s'.conn c).state = .closing) :=
    poolConnFailAll_goes hself h.base h.lt (.inl h.recv)
  refine (Does.strengthen hgoes ?_).widen (fun _ _ _ hm => .act (.move hm))
  intro _ s' o' ht hcl
  have hf := Moves.frame ht
  exact (h.quiet.frame h.base (.of_frame hf)).settle ((hf.conn c h.lt).inRecv.trans h.recv) (fun _ => hcl)

theorem poolH1OnResponse_goes (hself : Enters cfg self) {hr : H1Response} {h : H1Session} (hb : Base (H, s))
    (hproto : (s.conn c).proto = .h1) (hact : r ∈ (s.conn c).active) (hh1 : (s.reqs r).h1 = some h)
    (hdel : h.delivered = true) (hans : hr.response = h.answer) :
    Goes cfg H s (poolH1OnResponse cfg self r hr) H := by
  apply poolOnResponse_does hself hb (fun _ => ⟨rfl, rfl⟩)
  · intro c' hresp hpc
    rw [hans]
    exact .takeH1 hact hproto hpc hresp hh1 hdel
  · intro c' s' hc' _
    apply Does.get_bind
    apply Does.when
    · exact fun _ => markBroken_goes hc'
    · exact fun _ => trivial

/-- A call on the session at the head of the active list. -/
theorem h1Call_turns (hself : Enters cfg self) {call : H1Call} (hb : Base w)
    (hm : Turn cfg w o (H, s.updReq r (fun q => { q with h1 := some call.sess }))) (hrep : call.Reports)
    (hproto : (s.conn c).proto = .h1) (hact : r ∈ (s.conn c).active) :
    Does (Turn cfg) w o s (h1Call cfg self r call) H
      (fun _ s' => Frame (s.updReq r (fun q => { q with h1 := some call.sess })) s') := by
  have hb₁ := hm.base hb
  apply Does.modify_bind
  apply Does.commit hm
  have hgoes : Goes cfg H (s.updReq r (fun q => { q with h1 := some call.sess }))
      (whenSome call.resp (poolH1OnResponse cfg self r)) H := by
    apply Does.whenSome
    · intro hr hresp
      obtain ⟨hdel, hans⟩ := hrep hr hresp
      apply poolH1OnResponse_goes hself hb₁ hproto hact _ hdel hans
      simp only [Pool.updReq_reqs, if_pos]
    · exact fun _ => trivial
  exact (Does.strengthen hgoes (fun _ _ _ ht _ => Moves.frame ht)).widen (fun _ _ _ hm => .act (.move hm))

theorem poolH1DrainLoop_turns (hself : Enters cfg self) {reads : List Str8} (hh1 : ReadsH1 s c)
    (hopen : (s.conn c).ended = false) :
    Does (Turn cfg) ([], s) [] s (poolH1DrainLoop cfg self c reads) []
      (fun failed s' => ReadsH1 s' c ∧ (failed = false → (s'.conn c).ended = false)) := by
  induction reads generalizing s with
  | nil => exact Does.pure ⟨hh1, fun _ => hopen⟩
  | cons data rest ih =>
    apply Does.get_bind
    apply Does.report_bind
    split
    · next hnone =>
        have hm : Turn cfg ([], s) [.h1Read c (s.conn c).written (s.conn c).readBytes data]
            ([], s.readH1 c data true) := .h1Ignore data hh1.lt hnone
        have hconn : (s.readH1 c data true).conn c =
            { s.conn c with readBytes := (s.conn c).readBytes ++ data, ended := (s.conn c).ended || !true } := by
          rw [Pool.readH1, Pool.updConn_conn, if_pos rfl]
        apply Does.modify_bind
        apply Does.commit hm
        refine Does.pure ⟨⟨hm.base hh1.base, hh1.lt, ?_, ?_, hh1.quiet.updConn⟩, fun _ => ?_⟩
        · rw [hconn]
          exact hh1.proto
        · rw [hconn]
          exact hh1.recv
        · rw [hconn]
          exact (Bool.or_false _).trans hopen
    · next r h hsome =>
        obtain ⟨r', hhead, hmap⟩ := Option.bind_eq_some_iff.mp hsome
        obtain ⟨h', hsess, heq⟩ := Option.map_eq_some_iff.mp hmap
        cases heq
        have hm : Turn cfg ([], s) [.h1Read c (s.conn c).written (s.conn c).readBytes data]
            ([], (s.readH1 c data (h1SessionRecv cfg.phr h data).ok).updReq r
              (fun q => { q with h1 := some (h1SessionRecv cfg.phr h data).sess })) :=
          .h1Feed data hh1.proto hopen hhead hsess
        have hconn : (s.readH1 c data (h1SessionRecv cfg.phr h data).ok).conn c =
            { s.conn c with
              readBytes := (s.conn c).readBytes ++ data
              ended := (s.conn c).ended || !(h1SessionRecv cfg.phr h data).ok } := by
          rw [Pool.readH1, Pool.updConn_conn, if_pos rfl]
        have hproto : ((s.readH1 c data (h1SessionRecv cfg.phr h data).ok).conn c).proto = .h1 := by
          rw [hconn]
          exact hh1.proto
        have hact : r ∈ ((s.readH1 c data (h1SessionRecv cfg.phr h data).ok).conn c).active := by
          rw [hconn]
          exact List.mem_of_head? hhead
        have hread := hh1.feed (hm.base hh1.base) hh1.proto hh1.recv
        apply Does.modify_bind
        apply Does.bind (h1Call_turns hself hh1.base hm h1SessionRecv_reports hproto hact)
        intro _ s₁ o₁ ht₁ hf₁
        have hread₁ : ReadsH1 s₁ c := hread.frame (Turns.base ht₁ hh1.base) (.of_frame hf₁)
        apply Does.ite
        · exact fun _ => Does.pure ⟨hread₁, fun h => (by cases h)⟩
        intro hok
        have hopen₁ : (s₁.conn c).ended = false := by
          rw [(hf₁.conn c hh1.lt).ended, Pool.updReq_conn, hconn]
          simp only [hopen, Bool.eq_true_of_not_eq_false hok, Bool.not_true, Bool.or_self]
        apply Does.get_bind
        apply Does.ite
        · exact fun _ => Does.pure ⟨hread₁, fun _ => hopen₁⟩
        intro _
        exact ih hread₁ hopen₁

theorem poolH1Drain_turns (hself : Enters cfg self) {reads : List Str8} (hh1 : ReadsH1 s c) (hq : Quiet s) :
    Does (Turn cfg) ([], s) [] s (poolH1Drain cfg self c reads) [] (fun _ s' => Quiet s') := by
  have hdrain : ∀ {s : Pool} {b : Bool}, c < s.nconn → Does (Turn cfg) ([], s) [] s (setInDrain c b) []
      (fun _ s' => Frame s s') := by
    intro s b hc
    exact (Does.strengthen (setInDrain_goes hc) (fun _ _ _ ht _ => Moves.frame ht)).widen
      (fun _ _ _ hm => .act (.move hm))
  apply Does.get_bind
  apply Does.ite
  · exact fun _ => Does.pure hq
  intro hlive
  have hopen : (s.conn c).ended = false :=
    Bool.eq_false_iff.mpr (fun he => (hq.ended c he).elim hlive False.elim)
  apply Does.bind (hdrain hh1.lt)
  intro _ s₁ o₁ ht₁ hf₁
  have hh1₁ := hh1.frame (Turns.base ht₁ hh1.base) (.of_frame hf₁)
  apply Does.bind (poolH1DrainLoop_turns hself hh1₁ ((hf₁.conn c hh1.lt).ended.trans hopen))
  rintro failed s₂ o₂ ht₂ ⟨hh1₂, hopen₂⟩
  apply Does.bind (hdrain hh1₂.lt)
  intro _ s₃ o₃ ht₃ hf₃
  have hh1₃ := hh1₂.frame (Turns.base ht₃ hh1₂.base) (.of_frame hf₃)
  apply Does.ite
  · exact fun _ => hh1₃.fail hself
  · intro hok
    have hopen₃ : (s₃.conn c).ended = false :=
      (hf₃.conn c hh1₂.lt).ended.trans (hopen₂ (Bool.eq_false_iff.mpr hok))
    apply Handles.turns (Goes.handles (flushThenIdle_goes hself hh1₃.base hh1₃.lt)) hh1₃.base
    exact hh1₃.quiet.settle hh1₃.recv (fun he => (by rw [hopen₃] at he; cases he))

theorem poolH1OnClosed_turns (hself : Enters cfg self) {e : Option Str8} (hh1 : ReadsH1 s c) (hq : Quiet s) :
    Does (Turn cfg) ([], s) [] s (poolH1OnClosed cfg self c e) [] (fun _ s' => Quiet s') := by
  apply Does.get_bind
  apply Does.ite
  · exact fun _ => Does.pure hq
  intro hlive
  have hopen : (s.conn c).ended = false :=
    Bool.eq_false_iff.mpr (fun he => (hq.ended c he).elim hlive False.elim)
  have hconn : (s.endH1 c).conn c = { s.conn c with ended := true } := by
    rw [Pool.endH1, Pool.updConn_conn, if_pos rfl]
  have hproto : ((s.endH1 c).conn c).proto = .h1 := by
    rw [hconn]
    exact hh1.proto
  apply Does.report_bind
  apply Does.modify_bind
  apply Does.whenSome_bind
  · intro x hsome
    obtain ⟨r, hhead, hmap⟩ := Option.bind_eq_some_iff.mp hsome
    obtain ⟨h, hsess, rfl⟩ := Option.map_eq_some_iff.mp hmap
    have hm : Turn cfg ([], s) [.h1Closed c (s.conn c).written (s.conn c).readBytes]
        ([], (s.endH1 c).updReq r (fun q => { q with h1 := some (h1SessionEof h).sess })) :=
      .h1Eof hh1.proto hopen hhead hsess
    have hact : r ∈ ((s.endH1 c).conn c).active := by
      rw [hconn]
      exact List.mem_of_head? hhead
    have hread := hh1.feed (hm.base hh1.base) hh1.proto hh1.recv
    apply Does.bind (h1Call_turns hself hh1.base hm h1SessionEof_reports hproto hact)
    intro _ s₁ o₁ ht₁ hf₁
    exact (hread.frame (Turns.base ht₁ hh1.base) (.of_frame hf₁)).fail hself
  · intro _
    have hm : Turn cfg ([], s) [.h1Closed c (s.conn c).written (s.conn c).readBytes] ([], s.endH1 c) :=
      .h1Closed hh1.lt hh1.proto
    have hrecv : ((s.endH1 c).conn c).inRecv = false := by
      rw [hconn]
      exact hh1.recv
    have hread : ReadsH1 (s.endH1 c) c := ⟨hm.base hh1.base, hh1.lt, hproto, hrecv, hh1.quiet.updConn⟩
    exact Does.commit hm (hread.fail hself)

/-! ## HTTP/3 -/

theorem poolH3OnReady_handles (hself : Enters cfg self) {qpack : Bool} (hb : Base ([], s)) (hc : c < s.nconn)
    (hstate : (s.conn c).state = .handshaking) :
    Handles cfg [] s (poolH3OnReady self c res qpack) [] := by
  cases res with
  | error e => exact failHandshake_handles hself hb hc hstate
  | ok alpn =>
    apply Does.ite
    · exact fun _ => failHandshake_handles hself hb hc hstate
    intro _
    apply Does.ite
    · exact fun _ => failHandshake_handles hself hb hc hstate
    intro _
    have hm : Act cfg ([], s) [] ([], s.updConn c (fun pc => { pc with h3c := true, state := .ready })) :=
      .ready (s.conn c).h2 true hc hstate (.inl rfl) (fun _ => rfl)
    apply Does.modify_bind
    apply Does.commit hm
    apply Goes.handles
    apply Does.get_bind
    apply Does.when
    · exact fun _ => hself (.flush c) [] _ (hm.base hb) Calm.nil
    · exact fun _ => trivial

/-- `pool_h3_finish` of the request of a stream; `ev` is the end of the stream, if it was reported. -/
theorem poolH3Finish_does (hself : Enters cfg self) {sid : Nat} {resp : H3Response} {ev : List PoolEvent}
    (hb : Base ([], s)) (hfind : poolH3FindStream s c sid = some r) (hrecv : (s.conn c).inRecv = true)
    (hev : ev = [] ∨ ev = [.streamClosed c sid false] ∧ sid < 4 * (s.conn c).nextStream)
    (hidle : (s.reqs r).responded = true → Acts cfg ([], s) ev ([], s)) :
    Does (Act cfg) ([], s) ev s (do setH3Fin r; poolH3Finish cfg self c r resp) [] (fun _ _ => True) := by
  have hsame : ((s.updReq r (fun q => { q with h3Fin := true })).reqs r).responded = (s.reqs r).responded := by
    simp only [Pool.updReq_reqs, if_pos]
  have hsid : ((s.updReq r (fun q => { q with h3Fin := true })).reqs r).h3StreamId = (s.reqs r).h3StreamId := by
    simp only [Pool.updReq_reqs, if_pos]
  by_cases hresp : (s.reqs r).responded = true
  · -- the request has been answered already and is left alone
    apply Does.settle (hidle hresp)
    apply Does.modify_bind
    apply Does.commit .h3Fin
    apply Does.get_bind
    apply Does.ite
    · exact fun _ => Does.pure trivial
    · exact fun h => absurd (hsame.trans hresp) h
  · have hopen : (s.reqs r).responded = false := Bool.eq_false_iff.mpr hresp
    apply Does.modify_bind
    apply Does.get_bind
    apply Does.ite
    · exact fun h => absurd (hsame.symm.trans h) hresp
    intro _
    apply Does.modify_bind
    have hm := @Act.takeStream cfg _ _ _ _ ev (some { ok := resp.status ≠ 0, status := resp.status
                                                      headers := resp.headers, body := resp.body
                                                      error := if resp.status ≠ 0 then []
                                                        else lit "no response headers" })
      hfind hrecv hopen hev
    rw [hsid]
    apply Does.commit hm
    apply Goes.handles
    apply poolSettle_goes hself (hm.base hb) _ (fun _ _ _ => Does.pure trivial)
    exact hsame.trans hopen

theorem h3StreamClose_does (hself : Enters cfg self) {sid : Nat} {resp : H3Response} {ev : List PoolEvent}
    (hb : Base ([], s)) (hrecv : (s.conn c).inRecv = true)
    (hev : ev = [] ∨ ev = [.streamClosed c sid (h3FinSet s c sid)] ∧ sid < 4 * (s.conn c).nextStream) :
    Does (Act cfg) ([], s) ev s (when (s.conn c).h3c (whenSome (poolH3FindStream s c sid) (fun r =>
        when (!(s.reqs r).h3Fin) (do
          setH3Fin r
          poolH3Finish cfg self c r resp)))) [] (fun _ _ => True) := by
  -- when nothing is done, the report is all there is
  have hidle : (∀ r, (s.conn c).h3c = true → poolH3FindStream s c sid = some r →
      (s.reqs r).h3Fin = true ∨ (s.reqs r).responded = true) → Acts cfg ([], s) ev ([], s) := by
    intro hnone
    rcases hev with rfl | ⟨rfl, hsid⟩
    · exact Runs.Trace.refl _
    · exact Runs.Trace.single (.streamClosed hsid hnone)
  apply Does.when_piled
  · intro hh3c
    apply Does.whenSome_piled
    · intro r hfind
      have hset : h3FinSet s c sid = (s.reqs r).h3Fin := by
        unfold h3FinSet
        rw [hfind]
        rfl
      have honly : ∀ r', poolH3FindStream s c sid = some r' → r' = r := by
        intro r' hr'
        rw [hfind] at hr'
        exact (Option.some.inj hr').symm
      apply Does.when_piled
      · intro hfin
        rw [Bool.not_eq_true'] at hfin
        apply poolH3Finish_does hself hb hfind hrecv
        · rcases hev with rfl | ⟨rfl, hsid⟩
          · exact .inl rfl
          · rw [hset, hfin]
            exact .inr ⟨rfl, hsid⟩
        · intro hresp
          apply hidle
          intro r' _ hr'
          rw [honly r' hr']
          exact .inr hresp
      · intro hfin
        rw [Bool.not_eq_false'] at hfin
        refine ⟨hidle ?_, trivial⟩
        intro r' _ hr'
        rw [honly r' hr']
        exact .inl hfin
    · intro hnone
      refine ⟨hidle ?_, trivial⟩
      intro r' _ hr'
      rw [hnone] at hr'
      cases hr'
  · intro hh3c
    refine ⟨hidle ?_, trivial⟩
    intro r' h _
    rw [hh3c] at h
    cases h

theorem quicOnFrame_handles (hself : Enters cfg self) {f : QuicFrame} (hb : Base ([], s)) (hc : c < s.nconn)
    (hrecv : (s.conn c).inRecv = true) : Handles cfg [] s (quicOnFrame cfg self c f) [] := by
  cases f with
  | ready alpn qpack =>
    apply Does.get_bind
    apply Does.when
    · exact fun hst => poolH3OnReady_handles hself hb hc (of_decide_eq_true hst)
    · exact fun _ => trivial
  | streamFin sid resp =>
    apply Does.get_bind
    apply Does.when
    · intro _
      apply Does.whenSome
      · exact fun r hfind => poolH3Finish_does hself hb hfind hrecv (.inl rfl) (fun _ => Runs.Trace.refl _)
      · exact fun _ => trivial
    · exact fun _ => trivial
  | streamClose sid resp =>
    apply Does.get_bind
    apply Does.when_bind
    · intro hsid
      apply Does.report_bind
      exact h3StreamClose_does hself hb hrecv (.inr ⟨rfl, of_decide_eq_true hsid⟩)
    · exact fun _ => h3StreamClose_does hself hb hrecv (.inl rfl)

theorem quicFail_handles (hself : Enters cfg self) (hb : Base ([], s)) (hc : c < s.nconn)
    (hrecv : (s.conn c).inRecv = false) : Handles cfg [] s (quicFail self c err) [] := by
  apply Does.get_bind
  apply Does.ite
  · exact fun hst => poolH3OnReady_handles hself hb hc hst
  · intro _
    apply Goes.handles
    exact Does.forget (poolH3OnClosed_goes hself hb hc (.inl hrecv))

theorem quicRecvCb_turns (hself : Enters cfg self) {frames : List QuicFrame} {readFail sendFail : Option Str8}
    (hb : Base ([], s)) (hc : c < s.nconn) (hq : Quiet s) (hlive : (s.conn c).state ≠ .closing) :
    Does (Turn cfg) ([], s) [] s (quicRecvCb cfg self c frames readFail sendFail) []
      (fun _ s' => Quiet s') := by
  have hm : Turn cfg ([], s) [] ([], s.updConn c (fun pc => { pc with inRecv := true })) :=
    .setInRecv true hc (fun _ => hlive)
  have hb₁ : Base ([], s.updConn c (fun pc => { pc with inRecv := true })) := hb.updConn_le hc (fun _ h => h)
  apply Does.modify_bind
  apply Does.commit hm
  have hframes : Handles cfg [] (s.updConn c (fun pc => { pc with inRecv := true }))
      (forEach (quicOnFrame cfg self c) frames) [] (fun _ _ => True) := by
    apply Does.forEach (fun _ => []) (fun _ => True) _ trivial
    intro f fs s' o' ht _
    have hf := Acts.frame ht
    apply quicOnFrame_handles hself (Acts.base ht hb₁) (hc.trans_le hf.nconn)
    rw [hf.inRecv c hc]
    simp only [Pool.updConn_conn, if_pos]
  apply Does.widen_bind (fun _ _ _ hm => .act hm) hframes
  intro _ s₂ o₂ ht₂ _
  have hf₂ := Acts.frame ht₂
  have hb₂ := Acts.base ht₂ hb₁
  have hc₂ : c < s₂.nconn := hc.trans_le hf₂.nconn
  have hb₃ : Base ([], s₂.updConn c (fun pc => { pc with inRecv := false })) :=
    hb₂.updConn_le hc₂ (fun _ h => h)
  -- reading is over: no connection is being read from any more
  have hq₁ : Quiet (s.updConn c (fun pc => { pc with inRecv := true })) (· = c) := (hq.weaken c).updConn
  have hq₃ : Quiet (s₂.updConn c (fun pc => { pc with inRecv := false })) := by
    have hq₂ := hq₁.frame hb₁ hf₂
    have hconn : (s₂.updConn c (fun pc => { pc with inRecv := false })).conn c =
        { s₂.conn c with inRecv := false } := by rw [Pool.updConn_conn, if_pos rfl]
    apply hq₂.updConn.settle (by rw [hconn])
    rw [hconn]
    intro he
    have he₀ := hf₂.ended c he
    rw [Pool.updConn_conn, if_pos rfl] at he₀
    exact absurd ((hq.ended c he₀).resolve_right id) hlive
  apply Does.modify_bind
  apply Does.commit (.setInRecv false hc₂ (fun h => (by cases h)))
  apply Handles.turns _ hb₃ hq₃
  split
  · exact quicFail_handles hself hb₃ hc₂ (hq₃.inRecv c)
  · apply Does.whenSome_bind
    · intro e _
      apply Does.bind (quicFail_handles hself hb₃ hc₂ (hq₃.inRecv c))
      intro _ s₄ o₄ ht₄ _
      apply Goes.handles
      exact flushThenIdle_goes hself (Acts.base ht₄ hb₃) (hc₂.trans_le (Acts.frame ht₄).nconn)
    · intro _
      apply Goes.handles
      exact flushThenIdle_goes hself hb₃ hc₂

/-! ## Timers -/

/-- A request whose deadline has passed and that is on the active list of `c`, if the connection is still
    open. -/
structure Expired (s : Pool) (r : ReqId) (c : ConnId) : Prop where
  rlt : r < s.nreq
  clt : c < s.nconn
  responded : (s.reqs r).responded = true
  active : r ∈ (s.conn c).active ∨ (s.conn c).state = .closing

theorem Expired.frame {s' : Pool} (h : Expired s r c) (hf : Frame s s') : Expired s' r c := by
  refine ⟨h.rlt.trans_le hf.nreq, h.clt.trans_le hf.nconn, (hf.req r h.rlt).responded h.responded, ?_⟩
  rcases h.active with hact | hcl
  · exact hf.kept r c h.rlt h.clt h.responded hact
  · exact .inr ((hf.conn c h.clt).closing hcl)

theorem dropActive_handles (h : Expired s r c) (hproto : (s.reqs r).proto = .h2) :
    Handles cfg [.cancelling r c] s (Prog.modify (·.activeRemove r c)) [.answered r] :=
  Does.modify (.dropActive [] (by rw [hproto]; decide) h.active (.inr ⟨rfl, .inl (by rw [hproto]; decide)⟩))
    trivial

theorem h2Closes_goes (hself : Enters cfg self) {closes : List (ReqId × H2Response)} (hb : Base (H, s))
    (hc : c < s.nconn) (hh2 : (s.conn c).h2.isSome = true) :
    Goes cfg H s (h2Closes cfg self c closes) H := by
  apply Does.forEach (fun _ => H) (fun _ => True) _ trivial
  intro x xs s' o' ht _
  apply Does.get_bind
  apply Does.when
  · intro hact
    exact poolH2OnResponse_goes hself (Moves.base ht hb) (of_decide_eq_true hact)
      (.inr (((Moves.frame ht).conn c hc).h2.trans hh2))
  · exact fun _ => trivial

/-- The stream of an active request is cancelled and the request leaves the active list. -/
theorem cancelThenRemove_handles (hself : Enters cfg self) (hb : Base ([.cancelling r c], s))
    (h : Expired s r c) (hrecv : (s.conn c).inRecv = false) :
    Handles cfg [.cancelling r c] s (poolCancelStream cfg self (s.reqs r).proto c r >>= fun _ =>
      Prog.modify (·.activeRemove r c)) [.answered r] := by
  apply Does.assoc
  apply Does.get_bind
  cases hp : (s.reqs r).proto with
  | h2 =>
    apply Does.when_bind
    · intro hh2
      apply Does.assoc
      apply Does.await_bind
      intro closes
      apply Goes.handles_bind (h2Closes_goes hself hb h.clt hh2)
      intro _ s₁ o₁ ht₁ _
      have hf := Moves.frame ht₁
      exact dropActive_handles (h.frame hf) ((hf.req r h.rlt).proto.trans hp)
    · exact fun _ => dropActive_handles h hp
  | h1 =>
    have hne : (s.reqs r).proto ≠ .h3 := by
      rw [hp]
      decide
    apply Does.when_bind
    · intro _
      apply Does.report_bind
      exact Does.modify (.dropActive _ hne h.active (.inl rfl)) trivial
    · intro hbroken
      have hbr : (s.conn c).broken = true := by simpa using hbroken
      exact Does.modify (.dropActive [] hne h.active (.inr ⟨rfl, .inr hbr⟩)) trivial
  | h3 =>
    -- `pool_h3_remove_stream` and `pool_active_remove`, after the reset
    have hend : ∀ s', Expired s' r c → (s'.reqs r).proto = .h3 →
        Handles cfg [.cancelling r c] s' (do
          let s ← get
          when (s.conn c).h3c (modify (fun s => s.removeStream (s.reqs r).h3StreamId c))
          modify (·.activeRemove r c)) [.answered r] := by
      intro s' h' hp'
      have hdrop : Act cfg ([.cancelling r c], s') [] ([.answered r], (s'.dropStream r c).activeRemove r c) :=
        .dropStream hp' h'.active
      apply Does.get_bind
      apply Does.when_bind
      · intro hh3c
        rw [s'.dropStream_of_h3c c r hh3c] at hdrop
        apply Does.modify_bind
        exact Does.modify hdrop trivial
      · intro hh3c
        rw [s'.dropStream_of_no_h3c c r hh3c] at hdrop
        exact Does.modify hdrop trivial
    apply Does.assoc
    apply Does.await_bind
    intro err
    apply Does.assoc
    apply Does.whenSome_bind
    · intro e _
      apply Goes.handles_bind (poolH3OnClosed_goes hself hb h.clt (.inl hrecv))
      intro _ s₁ o₁ ht₁ _
      have hf := Moves.frame ht₁
      exact hend s₁ (h.frame hf) ((hf.req r h.rlt).proto.trans hp)
    · exact fun _ => hend s h hp

/-- The end of `pool_req_timeout`: the request is released, and its connection `pc` goes on. -/
theorem expireDone_handles (hself : Enters cfg self) {pc : Option ConnId} (hb : Base ([.answered r], s))
    (hpc : ∀ c, pc = some c → c < s.nconn) :
    Handles cfg [.answered r] s (poolReqDone r >>= fun _ => whenSome pc (fun c => do
      let s' ← get
      when (decide ((s'.conn c).state ≠ .closing)) do
        self (.flush c)
        poolUpdateIdle self c)) [] := by
  have hrel : Move cfg ([.answered r], s) [.released r] ([], s.release r) := .release
  apply Goes.handles
  apply Does.assoc
  apply Does.modify_bind
  apply Does.report_bind
  apply Does.commit hrel
  apply Does.whenSome
  · intro c hc
    apply Does.get_bind
    apply Does.when
    · exact fun _ => flushThenIdle_goes hself (hrel.base hb) (hpc c hc)
    · exact fun _ => trivial
  · exact fun _ => trivial

theorem poolReqTimeout_handles (hself : Enters cfg self) (hb : Base ([], s)) (hq : Quiet s)
    (hlt : r < s.nreq) (harmed : (s.reqs r).timerArmed = true) :
    Handles cfg [] s (poolReqTimeout cfg self r) [] := by
  have hresp₁ : ((s.updReq r (fun q => { q with timerArmed := false })).reqs r).responded =
      (s.reqs r).responded := by simp only [Pool.updReq_reqs, if_pos]
  have hpc₁ : ((s.updReq r (fun q => { q with timerArmed := false })).reqs r).pc = (s.reqs r).pc := by
    simp only [Pool.updReq_reqs, if_pos]
  have hproto₁ : ((s.updReq r (fun q => { q with timerArmed := false })).reqs r).proto = (s.reqs r).proto := by
    simp only [Pool.updReq_reqs, if_pos]
  apply Does.modify_bind
  apply Does.get_bind
  apply Does.ite
  · exact fun _ => Does.commit .disarm (Does.pure trivial)
  intro hresp
  rw [hresp₁] at hresp
  -- the callback runs while the request is still on its list
  have hexp : Act cfg ([], s) [.callback r { ok := false, error := lit "timeout" }]
      ([.expiring r (s.reqs r).pc], (s.updReq r (fun q => { q with timerArmed := false })).respond r) :=
    .expire hlt harmed (Bool.eq_false_iff.mpr hresp)
  have hb₂ := hexp.base hb
  rw [hpc₁, hproto₁]
  apply Does.assoc
  apply Does.get_bind
  rw [if_neg (by rw [hresp₁]; exact hresp)]
  apply Does.assoc
  apply Does.modify_bind
  apply Does.assoc
  apply Does.report_bind
  apply Does.commit hexp
  apply Goes.handles_bind (runCallback_goes hself hb₂)
  intro _ s₃ o₃ ht₃ _
  have hf₃ := Moves.frame ht₃
  have hb₃ := Moves.base ht₃ hb₂
  have hlt₃ : r < s₃.nreq := hlt.trans_le hf₃.nreq
  have hresp₃ : (s₃.reqs r).responded = true :=
    (hf₃.req r hlt).responded (by simp only [Pool.respond, Pool.updReq_reqs, if_pos])
  have hproto₃ : (s₃.reqs r).proto = (s.reqs r).proto := by
    rw [(hf₃.req r hlt).proto]
    simp only [Pool.respond, Pool.updReq_reqs, if_pos]
  have hq₃ : Quiet s₃ := (hq.frame hb hexp.frame).frame hb₂ (.of_frame hf₃)
  cases hpc : (s.reqs r).pc with
  | none =>
    rw [hpc] at hb₃
    have hm : Act cfg ([.expiring r none], s₃) [] ([.answered r], s₃) := .dropNone
    apply Does.commit hm
    exact expireDone_handles hself (hm.base hb₃) (fun c h => (by cases h))
  | some c =>
    rw [hpc] at hb₃
    have hc₃ : c < s₃.nconn := (hb.pc r c hpc).trans_le hf₃.nconn
    apply Does.assoc
    apply Does.get_bind
    split
    · next hact =>
        have hm : Act cfg ([.expiring r (some c)], s₃) [] ([.cancelling r c], s₃) := .cancel hact
        have hrem := cancelThenRemove_handles hself (hm.base hb₃) ⟨hlt₃, hc₃, hresp₃, .inl hact⟩ (hq₃.inRecv c)
        rw [hproto₃] at hrem
        apply Does.commit hm
        apply Does.bind hrem
        intro _ s₄ o₄ ht₄ _
        apply expireDone_handles hself (Acts.base ht₄ (hm.base hb₃))
        rintro _ ⟨⟩
        exact hc₃.trans_le (Acts.frame ht₄).nconn
    · next hact =>
        have hm : Act cfg ([.expiring r (some c)], s₃) []
            ([.answered r], s₃.setWaiting c ((s₃.conn c).waiting.remove r)) := .dropWaiting hact
        apply Does.modify_bind
        apply Does.commit hm
        apply expireDone_handles hself (hm.base hb₃)
        rintro _ ⟨⟩
        exact hc₃

theorem poolSweepCb_goes (hb : Base (H, s)) : Goes cfg H s (poolSweepCb cfg) H := by
  apply Does.get_bind
  apply Does.forEach (fun _ => H) (fun _ => True) _ trivial
  intro i is s' o' ht _
  apply Does.get_bind
  apply Does.whenSome
  · intro c hc
    apply Does.when
    · intro hclose
      exact poolIdleClose_goes ((Moves.base ht hb).conns c (List.mem_of_getElem? hc))
        (of_decide_eq_true hclose).2.1
    · exact fun _ => trivial
  · exact fun _ => trivial

/-! ## Runs -/

/-- **An event is a sequence of moves**, from an empty hand to an empty hand. -/
theorem poolInput_turns (hself : Enters cfg self) {i : PoolInput} (hb : Base ([], s)) (hq : Quiet s)
    (hen : poolEnabled s i = true) :
    Does (Turn cfg) ([], s) [] s (poolInput cfg self i) [] (fun _ s' => Quiet s') := by
  cases i <;> simp only [poolEnabled, Bool.and_eq_true, decide_eq_true_eq] at hen
  case call k => exact Handles.turns (Goes.handles (hself (.call k) [] s hb trivial)) hb hq
  case h2Ready c res session reads =>
      obtain ⟨⟨hc, hproto⟩, hstate⟩ := hen
      exact Handles.turns (poolH2OnReady_handles hself hb (hb.conns c hc) hproto (hq.inRecv c) hstate) hb hq
  case h2Readable c reads =>
      obtain ⟨⟨hc, hproto⟩, _⟩ := hen
      exact Handles.turns (Goes.handles (poolH2Drain_goes hself hb (hb.conns c hc) hproto (hq.inRecv c))) hb hq
  case h2Closed c err =>
      obtain ⟨⟨hc, _⟩, _⟩ := hen
      apply Handles.turns _ hb hq
      apply Goes.handles
      exact Does.forget (poolConnFailAll_goes hself hb (hb.conns c hc) (.inl (hq.inRecv c)))
  case h1Ready c res =>
      obtain ⟨⟨hc, hproto⟩, hstate⟩ := hen
      exact Handles.turns (poolH1OnReady_handles hself hb (hb.conns c hc) hproto hstate) hb hq
  case h1Readable c reads =>
      obtain ⟨⟨⟨hc, hproto⟩, _⟩, _⟩ := hen
      exact poolH1Drain_turns hself ⟨hb, hb.conns c hc, hproto, hq.inRecv c, hq.weaken c⟩ hq
  case h1Closed c err =>
      obtain ⟨⟨hc, hproto⟩, _⟩ := hen
      exact poolH1OnClosed_turns hself ⟨hb, hb.conns c hc, hproto, hq.inRecv c, hq.weaken c⟩ hq
  case quicRecv c frames readFail sendFail =>
      obtain ⟨⟨hc, _⟩, hlive⟩ := hen
      exact quicRecvCb_turns hself hb (hb.conns c hc) hq hlive
  case quicFailed c err =>
      obtain ⟨⟨hc, _⟩, _⟩ := hen
      exact Handles.turns (quicFail_handles hself hb (hb.conns c hc) (hq.inRecv c)) hb hq
  case fullyClosed c =>
      exact Handles.turns (Goes.handles (Does.modify (.remove hen.2) trivial)) hb hq
  case timeout r => exact Handles.turns (poolReqTimeout_handles hself hb hq hen.1 hen.2) hb hq
  case sweep => exact Handles.turns (Goes.handles (poolSweepCb_goes hb)) hb hq
  case tick ms => exact Handles.turns (Does.modify (.tick ms) trivial) hb hq

end

variable {cfg : PoolCfg}

theorem Turn.lasts (h : Turn cfg w o w') : Lasts w.2 w'.2 := by
  cases h with
  | act h => exact h.frame.toLasts
  | setInRecv b hc hb | h1Ignore data hc hnone | h1Closed hc hproto =>
    dsimp only
    exact .updConn ⟨rfl, rfl, rfl, rfl, id, id⟩
  | @h1Feed H s c r h data hproto hopen hhead hh1 =>
    have hread : Lasts s (s.readH1 c data (h1SessionRecv cfg.phr h data).ok) :=
      .updConn ⟨rfl, rfl, rfl, rfl, id, id⟩
    dsimp only
    exact hread.trans (Lasts.updReq ⟨rfl, rfl, rfl, rfl, rfl, rfl, id, id⟩)
  | @h1Eof H s c r h hproto hopen hhead hh1 =>
    have hend : Lasts s (s.endH1 c) := .updConn ⟨rfl, rfl, rfl, rfl, id, id⟩
    dsimp only
    exact hend.trans (Lasts.updReq ⟨rfl, rfl, rfl, rfl, rfl, rfl, id, id⟩)

/-- A request that was there before is not a new one. -/
theorem Turn.not_unborn {q : Prop} {r : ReqId} (h : Turn cfg w o w') (hlt : r < w.2.nreq) (hr : w'.2.nreq ≤ r) : q :=
  absurd (hlt.trans_le (h.lasts.nreq.trans hr)) (Nat.lt_irrefl _)

theorem Turns.lasts (h : Turns cfg w o w') : Lasts w.2 w'.2 :=
  h.related (R := fun w w' => Lasts w.2 w'.2) (fun _ => .refl _) (fun _ _ _ => Lasts.trans)
    (fun _ _ _ hm => hm.lasts)

/-- What every move preserves, as long as the log meets `ok`, a run preserves. -/
theorem Turns.invariant (ok : List PoolEvent → Prop) {I : List PoolEvent → PoolWorld → Prop}
    (hpre : ∀ l l', ok (l ++ l') → ok l)
    (hstep : ∀ l w o w', Base w → I l w → Turn cfg w o w' → ok (l ++ o) → I (l ++ o) w')
    (h : Turns cfg w o w') (hb : Base w) (l : List PoolEvent) (hI : I l w) (hok : ok (l ++ o)) :
    I (l ++ o) w' := by
  refine (Runs.Trace.invariant (I := fun l w => Base w ∧ I l w) hpre ?_ h l ⟨hb, hI⟩ hok).2
  rintro l w o w' ⟨hb, hI⟩ hm hok
  exact ⟨hm.base hb, hstep l w o w' hb hI hm hok⟩

/-- The same for a property of states that every move preserves. -/
theorem Turns.preserves {I : PoolWorld → Prop} (hstep : ∀ w o w', Base w → I w → Turn cfg w o w' → I w')
    (h : Turns cfg w o w') (hb : Base w) (hI : I w) : I w' :=
  Turns.invariant (fun _ => True) (I := fun _ w => I w) (fun _ _ _ => trivial)
    (fun _ w o w' hb hI hm _ => hstep w o w' hb hI hm) h hb [] hI trivial

theorem poolStep_turns {w w' : PoolRun} {t : PoolTurn} (hb : Base ([], w.pool)) (hq : Quiet w.pool)
    (hstep : poolStep cfg w t = some w') :
    ∃ o, w'.log = w.log ++ o ∧ Turns cfg ([], w.pool) o ([], w'.pool) ∧ Quiet w'.pool := by
  unfold poolStep at hstep
  split at hstep
  · next hen =>
      obtain ⟨res, hres, rfl⟩ := Option.map_eq_some_iff.mp hstep
      have hdoes := poolInput_turns (poolRec_enters cfg t.depth) hb hq hen
      obtain ⟨ht, hq'⟩ := run_sound hdoes hres (fun _ _ => trivial)
      exact ⟨res.out, rfl, ht, hq'⟩
  · cases hstep

theorem Base.empty : Base ([], Pool.empty) := by
  refine ⟨fun h hh => (by cases hh), fun c hc => (by cases hc), fun r c h => (by cases h), fun c _ => rfl, ?_⟩
  rintro c r (h | h | h) <;> cases h

/-- **A run of the pool is a sequence of moves** that shows the run's log. -/
theorem PoolReach.turns {w : PoolRun} (h : PoolReach cfg w) :
    Turns cfg ([], .empty) w.log ([], w.pool) ∧ Quiet w.pool := by
  refine Runs.Reach.invariant (I := fun w => Turns cfg ([], .empty) w.log ([], w.pool) ∧ Quiet w.pool) ?_ ?_ h
  · rintro _ rfl
    exact ⟨Runs.Trace.refl _, fun _ h => (by cases h), fun _ h => (by cases h)⟩
  · rintro w t w' ⟨ht, hq⟩ _ hstep
    obtain ⟨o, hlog, ht', hq'⟩ := poolStep_turns (Turns.base ht .empty) hq hstep
    rw [hlog]
    exact ⟨ht.trans ht', hq'⟩

end HolyTls

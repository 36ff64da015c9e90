import HolyTls.Pool.Change
import HolyTls.Pool.Events

/-!
# `Pool.Origin` — which connection a request rides

A request comes onto a connection in two ways only: `pool_acquire` picks one whose key is the request's, or
opens one for the request's own host and port. Everything after that, the retries and the re-routing
included, goes through these two again. `Turn.on` says so for a single move, and the invariant `Routed`
follows from it.

The key of a connection is cut to 255 bytes, the key of a request is not. So a request can ride a
connection that was opened for another host, whose longer key starts with the request's.
-/

namespace HolyTls

open Slots

variable {cfg : PoolCfg} {w w' : PoolWorld} {o : List PoolEvent} {r : ReqId} {c : ConnId} {p : PoolProto}

/-! ## How requests come onto connections -/

/-- The request is linked on the connection. -/
def PoolConn.links (pc : PoolConn) (r : ReqId) : Prop := r ∈ pc.waiting.nodes ∨ r ∈ pc.active

/-- The connection that a request in hand is bound for. -/
def Held.conn? : Held → Option ConnId
  | opened _ c => some c
  | sub _ c => some c
  | streamed _ c => some c
  | sent _ c => some c
  | _ => none

/-- The request is linked on the connection, or on its way onto it. -/
def On (w : PoolWorld) (r : ReqId) (c : ConnId) : Prop :=
  (w.2.conn c).links r ∨ ∃ h ∈ w.1, h.req = r ∧ h.conn? = some c

section

variable {s s' : Pool} {H H' : List Held} {x : ReqId} {y : ConnId}

/-- Every list of `s'` is part of the same list of `s`. -/
def Loses (s s' : Pool) : Prop := ∀ c r, (s'.conn c).links r → (s.conn c).links r

theorem Loses.refl (s : Pool) : Loses s s := fun _ _ h => h

theorem Loses.trans {s₁ : Pool} (h : Loses s s₁) (h' : Loses s₁ s') : Loses s s' :=
  fun c r hl => h c r (h' c r hl)

theorem Loses.updConn {g : PoolConn → PoolConn} (hg : ∀ r, (g (s.conn c)).links r → (s.conn c).links r) :
    Loses s (s.updConn c g) := by
  intro x r h
  rw [Pool.updConn_conn] at h
  split at h
  · next hx => exact hx ▸ hg r h
  · exact h

theorem Loses.activeRemove : Loses s (s.activeRemove r c) :=
  .updConn (fun _ h => h.imp_right List.mem_of_mem_erase)

theorem Loses.setWaiting {v : Waiting} (hv : ∀ r ∈ v.nodes, r ∈ (s.conn c).waiting.nodes) :
    Loses s (s.setWaiting c v) :=
  .updConn (fun r h => h.imp_left (hv r))

theorem Loses.detachWaiting : Loses s (s.detachWaiting c) :=
  .updConn (fun _ h => h.imp_left (fun h => (by cases h)))

theorem Loses.detachAll : Loses s (s.detachAll c) := by
  apply Loses.updConn
  rintro r (h | h) <;> cases h

/-- What is in hand now was in hand before, or is not bound for a connection. -/
def HandLoses (H H' : List Held) : Prop := ∀ h ∈ H', h ∈ H ∨ h.conn? = none

theorem HandLoses.refl (H : List Held) : HandLoses H H := fun _ hh => Or.inl hh

theorem HandLoses.drop {h₀ : Held} : HandLoses (h₀ :: H) H := fun _ hh => Or.inl (List.mem_cons_of_mem _ hh)

theorem HandLoses.push {h₁ : Held} (h : HandLoses H H') (hno : h₁.conn? = none) : HandLoses H (h₁ :: H') := by
  intro x hx
  rcases List.mem_cons.mp hx with rfl | hx
  · exact Or.inr hno
  · exact h x hx

theorem HandLoses.pushMap {g : ReqId → Held} {l : List ReqId} (h : HandLoses H H')
    (hno : ∀ z, (g z).conn? = none) : HandLoses H (l.map g ++ H') := by
  induction l with
  | nil => exact h
  | cons z l ih => exact ih.push (hno z)

/-- A change that only takes requests off the lists. -/
theorem On.of_loses (h : On (H', s') r c) (hl : Loses s s') (hh : HandLoses H H') : On (H, s) r c := by
  rcases h with h | ⟨x, hx, hr, hc⟩
  · exact Or.inl (hl c r h)
  · rcases hh x hx with hx | hno
    · exact Or.inr ⟨x, hx, hr, hc⟩
    · rw [hno] at hc
      cases hc

/-- The request on top of the hand changes its state, and stays bound for the same connection or is not
    bound for one any more. -/
theorem On.of_head {h₀ h₁ : Held} (h : On (h₁ :: H, s') r c) (hl : Loses s s') (hreq : h₀.req = h₁.req)
    (hconn : h₀.conn? = h₁.conn?) : On (h₀ :: H, s) r c := by
  rcases h with h | ⟨x, hx, hr, hc⟩
  · exact Or.inl (hl c r h)
  · rcases List.mem_cons.mp hx with rfl | hx
    · exact Or.inr ⟨h₀, List.mem_cons_self, hreq.trans hr, hconn.trans hc⟩
    · exact Or.inr ⟨x, List.mem_cons_of_mem _ hx, hr, hc⟩

theorem links_waitingPush (h : ((s.waitingPush x y).conn c).links r) :
    (s.conn c).links r ∨ r = x ∧ c = y := by
  unfold Pool.waitingPush at h
  rw [Pool.updConn_conn] at h
  split at h
  · next hc =>
      subst hc
      rcases h with h | h
      · exact (Waiting.mem_push h).imp Or.inl (fun h => ⟨h, rfl⟩)
      · exact Or.inl (Or.inr h)
  · exact Or.inl h

theorem links_afterSubmit (h : ((s.afterSubmit x y).conn c).links r) :
    (s.conn c).links r ∨ r = x ∧ c = y := by
  unfold Pool.afterSubmit at h
  rw [Pool.updConn_conn] at h
  split at h
  · next hc =>
      subst hc
      rcases h with h | h
      · exact Or.inl (Or.inl h)
      · exact (List.mem_cons.mp h).elim (fun h => Or.inr ⟨h, rfl⟩) (fun h => Or.inl (Or.inr h))
  · exact Or.inl h

theorem On.of_joins {h₀ : Held} (h : On (H, s') r c)
    (hjoin : ∀ c r, (s'.conn c).links r → (s.conn c).links r ∨ r = x ∧ c = y)
    (hreq : h₀.req = x) (hconn : h₀.conn? = some y) : On (h₀ :: H, s) r c := by
  rcases h with h | ⟨z, hz, hr, hc⟩
  · rcases hjoin c r h with h | ⟨rfl, rfl⟩
    · exact Or.inl h
    · exact Or.inr ⟨h₀, List.mem_cons_self, hreq, hconn⟩
  · exact Or.inr ⟨z, List.mem_cons_of_mem _ hz, hr, hc⟩

end

/-- **How a request comes onto a connection.** Whatever is on a connection after a move was on it before,
    or was looking for one and was given this one: by its key, or because it was opened for the request. -/
theorem Move.on (h : Move cfg w o w') (hon : On w' r c) :
    On w r c ∨ ∃ p, .free r p ∈ w.1 ∧ (c ∈ poolCandidates w.2 p (w.2.reqs r).origin ∨
      c = w.2.nconn ∧ w'.2 = w.2.addConn p (w.2.reqs r)) := by
  cases h with
  | @assign H s x p y hc =>
    rcases hon with h | ⟨z, hz, hr, hzc⟩
    · exact Or.inl (Or.inl h)
    · rcases List.mem_cons.mp hz with rfl | hz
      · cases hr
        cases hzc
        exact Or.inr ⟨p, List.mem_cons_self, Or.inl hc⟩
      · exact Or.inl (Or.inr ⟨z, List.mem_cons_of_mem _ hz, hr, hzc⟩)
  | @«open» H s x p hroom =>
    rcases hon with h | ⟨z, hz, hr, hzc⟩
    · rw [Pool.addConn_conn] at h
      split at h
      · rcases h with h | h <;> cases h
      · exact Or.inl (Or.inl h)
    · rcases List.mem_cons.mp hz with rfl | hz
      · cases hr
        cases hzc
        exact Or.inr ⟨p, List.mem_cons_self, Or.inr ⟨rfl, rfl⟩⟩
      · exact Or.inl (Or.inr ⟨z, List.mem_cons_of_mem _ hz, hr, hzc⟩)
  | @pop H s x y v hcalm hpop hcap =>
    left
    have hnodes := Waiting.nodes_of_pop hpop
    rcases hon with h | ⟨z, hz, hr, hzc⟩
    · exact Or.inl (Loses.setWaiting (fun r hr => hnodes ▸ List.mem_cons_of_mem x hr) c r h)
    · rcases List.mem_cons.mp hz with rfl | hz
      · cases hr
        cases hzc
        exact Or.inl (Or.inl (hnodes ▸ List.mem_cons_self))
      · exact Or.inr ⟨z, hz, hr, hzc⟩
  -- a request joins a list of the connection it was bound for
  | park ev hev => exact Or.inl (hon.of_joins (fun _ _ => links_waitingPush) rfl rfl)
  | @parkNew H s x y ev hev => exact Or.inl (hon.of_joins (s := s) (fun _ _ => links_waitingPush) rfl rfl)
  | @writeH1 H s x y hproto hcap =>
    have hstart : Loses s (s.startH1 x y) := Loses.updConn (s := s.updReq x _) (fun _ h => h)
    exact Or.inl (hon.of_joins (fun c r h => (links_afterSubmit h).imp_left (hstart c r)) rfl rfl)
  | activate ev hproto hev => exact Or.inl (hon.of_joins (fun _ _ => links_afterSubmit) rfl rfl)
  | @activateH3 H s x y ev hproto hrecv hh3c hev =>
    have hpush : Loses s (s.pushStream x y) := .updConn (fun _ h => h)
    exact Or.inl (hon.of_joins (fun c r h => (links_afterSubmit h).imp_left (hpush c r)) rfl rfl)
  | @write H s x y hproto => exact Or.inl (hon.of_head (.refl s) rfl rfl)
  | reassign => exact Or.inl hon
  | reject url => exact Or.inl hon
  | unassign => exact Or.inl hon
  | refuse => exact Or.inl hon
  | remove hclosing => exact Or.inl hon
  | @openStream H s x y hproto =>
    have hnext : Loses s (s.updConn y (fun pc => { pc with nextStream := pc.nextStream + 1 })) :=
      .updConn (fun _ h => h)
    exact Or.inl (hon.of_head (hnext.trans (fun _ _ h => h)) rfl rfl)
  | @writeH3 H s x y hproto => exact Or.inl (hon.of_head (.refl s) rfl rfl)
  | @evict H s =>
    have hmark : Loses s s.markAllBroken := by
      intro c r h
      rw [Pool.markAllBroken_conn] at h
      split at h <;> exact h
    exact Or.inl (hon.of_loses hmark (.refl _))
  | @touch H s y pc' hc hmild =>
    have htouch : Loses s (s.updConn y (fun _ => pc')) := by
      apply Loses.updConn
      intro r h
      unfold PoolConn.links at h ⊢
      rwa [hmild.waiting, hmild.active] at h
    exact Or.inl (hon.of_loses htouch (.refl _))
  | closeDrained hdrained hempty => exact Or.inl (hon.of_loses (.updConn (fun _ h => h)) (.refl _))
  | idleClose hc hempty => exact Or.inl (hon.of_loses (.updConn (fun _ h => h)) (.refl _))
  -- a request goes off a list, or on in hand without a connection
  | @dispatch H s proto method url deadline hok =>
    exact Or.inl (hon.of_loses (.refl s) (.push (.refl _) rfl))
  | @giveUp H s x p => exact Or.inl (hon.of_loses (.refl s) (.push .drop rfl))
  | @withdraw H s x y => exact Or.inl (hon.of_loses (.refl s) (.push .drop rfl))
  | @abandon H s x y => exact Or.inl (hon.of_loses (.refl s) (.push .drop rfl))
  | take got hact hh2 hpc hresp =>
    exact Or.inl (hon.of_loses .activeRemove (.push (.refl _) rfl))
  | takeH1 hact hproto hpc hresp hh1 hdel =>
    exact Or.inl (hon.of_loses .activeRemove (.push (.refl _) rfl))
  | takeStray got hproto hpc hresp =>
    exact Or.inl (hon.of_loses .activeRemove (.push (.refl _) rfl))
  | @retry H s x got hleft hresp =>
    exact Or.inl (hon.of_loses (s := s) (fun _ _ h => h) (.push .drop rfl))
  | @answer H s x got resp hopen hresp =>
    exact Or.inl (hon.of_loses (s := s) (fun _ _ h => h) (.push .drop rfl))
  | @release H s x => exact Or.inl (hon.of_loses (s := s) (fun _ _ h => h) .drop)
  | @releaseOff H s x got hresp => exact Or.inl (hon.of_loses (s := s) (fun _ _ h => h) .drop)
  | @failAll H s y hc hlive hrecv =>
    have hcl : Loses (s.detachAll y) ((s.detachAll y).close y) := .updConn (fun _ h => h)
    rw [List.append_assoc] at hon
    exact Or.inl (hon.of_loses (Loses.detachAll.trans hcl)
      (.pushMap (.pushMap (.refl _) (fun _ => rfl)) (fun _ => rfl)))
  | rehome hcalm hbroken =>
    exact Or.inl (hon.of_loses .detachWaiting (.pushMap (.refl _) (fun _ => rfl)))

theorem Turn.on (h : Turn cfg w o w') (hon : On w' r c) :
    On w r c ∨ ∃ p, .free r p ∈ w.1 ∧ (c ∈ poolCandidates w.2 p (w.2.reqs r).origin ∨
      c = w.2.nconn ∧ w'.2 = w.2.addConn p (w.2.reqs r)) := by
  cases h with
  | setInRecv b hc hb | h1Ignore data hc hnone | h1Closed hc hproto =>
    exact Or.inl (hon.of_loses (.updConn (fun _ h => h)) (.refl _))
  | @h1Feed H s y x h data hproto hopen hhead hh1 =>
    have hread : Loses s (s.readH1 y data (h1SessionRecv cfg.phr h data).ok) := .updConn (fun _ h => h)
    exact Or.inl (hon.of_loses (hread.trans (fun _ _ h => h)) (.refl _))
  | @h1Eof H s y x h hproto hopen hhead hh1 =>
    have hend : Loses s (s.endH1 y) := .updConn (fun _ h => h)
    exact Or.inl (hon.of_loses (hend.trans (fun _ _ h => h)) (.refl _))
  | act h =>
    cases h
    case move h => exact h.on hon
    all_goals left
    case ready h2 h3c hc hstate hh2 hh3 => exact hon.of_loses (.updConn (fun _ h => h)) (.refl _)
    case fallback hc hstate => exact hon.of_loses .detachWaiting (.pushMap (.refl _) (fun _ => rfl))
    case legacy H s x got =>
        exact hon.of_loses (s := s) (fun _ _ h => h) (.push .drop rfl)
    case takeStream s x y sid got hfind hrecv hresp hev =>
        have hrm : Loses s ((s.updReq x (fun q => { q with h3Fin := true })).removeStream
          (s.reqs x).h3StreamId y) := Loses.updConn (s := s.updReq x _) (fun _ h => h)
        exact hon.of_loses (hrm.trans .activeRemove) (.push (.refl _) rfl)
    case expire s x hlt harmed hresp => exact hon.of_loses (s := s) (fun _ _ h => h) (.push (.refl _) rfl)
    case cancel s x y hact => exact hon.of_loses (.refl s) (.push .drop rfl)
    case dropActive ev hproto hact hev => exact hon.of_loses .activeRemove (.push .drop rfl)
    case dropStream s x y hproto hact =>
        have hrm : Loses s (s.dropStream x y) := .updConn (fun _ h => h)
        exact hon.of_loses (hrm.trans .activeRemove) (.push .drop rfl)
    case dropWaiting hact =>
        exact hon.of_loses (.setWaiting (fun _ h => Waiting.mem_of_mem_remove h)) (.push .drop rfl)
    case dropNone s x => exact hon.of_loses (.refl s) (.push .drop rfl)
    -- the lists stay as they are
    all_goals exact hon

/-- Only a request on its way onto a connection is written to it. -/
theorem Turn.on_of_write (h : Turn cfg w o w') (hw : .write r c ∈ o) : On w r c := by
  rcases h.shown_of_mem hw rfl with ⟨hmem, -⟩ | ⟨hmem, -⟩
  · exact Or.inr ⟨_, hmem, rfl, rfl⟩
  · exact Or.inr ⟨_, hmem, rfl, rfl⟩

theorem Turn.newReq (h : Turn cfg w o w') (hr : r < w'.2.nreq) :
    r < w.2.nreq ∨ ∃ proto method url deadline, (urlParse url).ok = true ∧
      w'.2.reqs r = .ofUrl proto method url deadline := by
  cases h with
  | setInRecv _ _ _ | h1Ignore _ _ _ | h1Feed _ _ _ _ _ | h1Closed _ _ | h1Eof _ _ _ _ => exact Or.inl hr
  | act h =>
    cases h
    case move h =>
        cases h
        case dispatch H s proto method url deadline hok =>
            rcases Nat.lt_or_eq_of_le (Nat.lt_succ_iff.mp hr) with hr | rfl
            · exact Or.inl hr
            · exact Or.inr ⟨proto, method, url, deadline, hok, by rw [Pool.addReq_reqs, if_pos rfl]⟩
        all_goals exact Or.inl hr
    all_goals exact Or.inl hr

theorem Turn.newConn (h : Turn cfg w o w') (hc : c < w'.2.nconn) :
    c < w.2.nconn ∨ ∃ r p, .free r p ∈ w.1 ∧ w'.2.reqs r = w.2.reqs r ∧ w'.2.conn c =
      { proto := p, origin := (w.2.reqs r).origin.take 255, host := (w.2.reqs r).host
        port := (w.2.reqs r).port } := by
  cases h with
  | setInRecv _ _ _ | h1Ignore _ _ _ | h1Feed _ _ _ _ _ | h1Closed _ _ | h1Eof _ _ _ _ => exact Or.inl hc
  | act h =>
    cases h
    case move h =>
        cases h
        case «open» H s x p hroom =>
            rcases Nat.lt_or_eq_of_le (Nat.lt_succ_iff.mp hc) with hc | rfl
            · exact Or.inl hc
            · exact Or.inr ⟨x, p, List.mem_cons_self, rfl, by rw [Pool.addConn_conn, if_pos rfl]⟩
        all_goals exact Or.inl hc
    all_goals exact Or.inl hc

/-! ## The invariant -/

theorem Base.on_lt (hb : Base w) (h : On w r c) : r < w.2.nreq ∧ c < w.2.nconn := by
  obtain ⟨H, s⟩ := w
  rcases h with h | ⟨x, hx, rfl, hc⟩
  · have href : (s.conn c).refers r := h.elim Or.inl (fun h => Or.inr (Or.inl h))
    exact ⟨hb.lists c r href, hb.lt_of_refers href⟩
  · have hex := hb.hand x hx
    cases x <;> cases hc
    all_goals exact hex

/-- The connection has the request's protocol, and its host and port, or at least its key. -/
structure Rides (s : Pool) (r : ReqId) (c : ConnId) : Prop where
  proto : (s.conn c).proto = (s.reqs r).proto
  key : (s.conn c).host = (s.reqs r).host ∧ (s.conn c).port = (s.reqs r).port ∨
    (s.conn c).originKey = (s.reqs r).origin

/-- Requests keep what `url_parse` found in their URL, connections what the request had that they were
    opened for, and requests ride connections that suit them. -/
structure Routed (w : PoolWorld) : Prop where
  req : ∀ r, r < w.2.nreq → (urlParse (w.2.reqs r).url).ok = true ∧
    (w.2.reqs r).host = (urlParse (w.2.reqs r).url).host ∧
    (w.2.reqs r).port = (urlParse (w.2.reqs r).url).port ∧
    (w.2.reqs r).origin = originOf (urlParse (w.2.reqs r).url)
  conn : ∀ c, c < w.2.nconn → ∃ r, r < w.2.nreq ∧ (w.2.conn c).proto = (w.2.reqs r).proto ∧
    (w.2.conn c).host = (w.2.reqs r).host ∧ (w.2.conn c).port = (w.2.reqs r).port ∧
    (w.2.conn c).origin = (w.2.reqs r).origin.take 255
  free : ∀ r p, .free r p ∈ w.1 → p = (w.2.reqs r).proto
  on : ∀ r c, On w r c → Rides w.2 r c

theorem Rides.lasts {s s' : Pool} (h : Rides s r c) (hl : Lasts s s') (hr : r < s.nreq) (hc : c < s.nconn) :
    Rides s' r c := by
  have hreq := hl.req r hr
  have hconn := hl.conn c hc
  refine ⟨by rw [hconn.proto, hreq.proto, h.proto], ?_⟩
  rcases h.key with ⟨hhost, hport⟩ | hkey
  · exact Or.inl ⟨by rw [hconn.host, hreq.host, hhost], by rw [hconn.port, hreq.port, hport]⟩
  · refine Or.inr ?_
    unfold PoolConn.originKey at hkey ⊢
    rw [hconn.origin, hreq.origin, hkey]

theorem Routed.empty : Routed ([], Pool.empty) := by
  refine ⟨fun r hr => (by cases hr), fun c hc => (by cases hc), fun r p h => (by cases h), ?_⟩
  rintro r c ((h | h) | ⟨x, hx, _⟩)
  · cases h
  · cases h
  · cases hx

theorem Turn.routed (h : Turn cfg w o w') (hb : Base w) (hi : Routed w) : Routed w' := by
  have hl := h.lasts
  refine ⟨?_, ?_, ?_, ?_⟩
  · intro r hr
    rcases h.newReq hr with hr | ⟨proto, method, url, deadline, hok, heq⟩
    · have hf := hl.req r hr
      rw [hf.url, hf.host, hf.port, hf.origin]
      exact hi.req r hr
    · rw [heq]
      exact ⟨hok, rfl, rfl, rfl⟩
  · intro c hc
    rcases h.newConn hc with hc | ⟨r, p, hfree, hreq, heq⟩
    · obtain ⟨r, hr, hproto, hhost, hport, horigin⟩ := hi.conn c hc
      have hf := hl.req r hr
      have hconn := hl.conn c hc
      refine ⟨r, hr.trans_le hl.nreq, ?_⟩
      rw [hconn.proto, hconn.host, hconn.port, hconn.origin, hf.proto, hf.host, hf.port, hf.origin]
      exact ⟨hproto, hhost, hport, horigin⟩
    · have hr : r < w.2.nreq := hb.hand _ hfree
      refine ⟨r, hr.trans_le hl.nreq, ?_⟩
      rw [heq, hreq]
      exact ⟨hi.free r p hfree, rfl, rfl, rfl⟩
  · intro r p hfree
    rcases h.comes hfree with hfree | ⟨rfl, hp⟩ | ⟨got, hoff, hp⟩ | ⟨c, hwait, hp⟩
    · rw [(hl.req r (hb.hand _ hfree)).proto]
      exact hi.free r p hfree
    · exact hp.symm
    · rw [(hl.req r (hb.hand _ hoff)).proto]
      exact hp
    · have hon : On w r c := Or.inl (Or.inl hwait)
      rw [(hl.req r (hb.on_lt hon).1).proto, ← (hi.on r c hon).proto]
      exact hp
  · intro r c hon
    rcases h.on hon with hon | ⟨p, hfree, hc | ⟨rfl, hopen⟩⟩
    · exact (hi.on r c hon).lasts hl (hb.on_lt hon).1 (hb.on_lt hon).2
    · -- picked by its key
      obtain ⟨hmem, hcond⟩ := List.mem_filter.mp hc
      simp only [Bool.and_eq_true, decide_eq_true_eq, str8Match_iff] at hcond
      have hrides : Rides w.2 r c := ⟨hcond.1.1.1.trans (hi.free r p hfree), Or.inr hcond.2.symm⟩
      exact hrides.lasts hl (hb.hand _ hfree) (hb.conns c hmem)
    · -- opened for the request
      rw [hopen]
      constructor <;> simp [hi.free r p hfree]

theorem Turns.routed (h : Turns cfg w o w') (hb : Base w) (hi : Routed w) : Routed w' :=
  Turns.preserves (fun _ _ _ hb hi hm => hm.routed hb hi) h hb hi

/-! ## Keys -/

/-- Two lists that are equal are equal around the last occurrence of an element. -/
theorem append_cons_inj_of_notMem {α : Type} {a b d e : List α} {x : α} (hd : x ∉ d) (he : x ∉ e)
    (h : a ++ x :: d = b ++ x :: e) : a = b ∧ d = e := by
  rcases List.append_eq_append_iff.mp h with ⟨t, rfl, ht⟩ | ⟨t, rfl, ht⟩
  · cases t with
    | nil =>
      cases ht
      exact ⟨(List.append_nil a).symm, rfl⟩
    | cons y t =>
      obtain ⟨_, rfl⟩ := List.cons.inj ht
      exact absurd (List.mem_append_right t List.mem_cons_self) hd
  · cases t with
    | nil =>
      cases ht
      exact ⟨List.append_nil b, rfl⟩
    | cons y t =>
      obtain ⟨_, rfl⟩ := List.cons.inj ht
      exact absurd (List.mem_append_right t List.mem_cons_self) he

theorem notMem_decimal {n : Nat} {b : UInt8} (hb : charIsDigit b = false) : b ∉ decimal n := by
  intro h
  rw [charIsDigit_of_mem_decimal h] at hb
  cases hb

/-- The key of an accepted URL tells its host and port. -/
theorem originOf_inj {u v : Str8} (hu : (urlParse u).ok = true) (hv : (urlParse v).ok = true)
    (h : originOf (urlParse u) = originOf (urlParse v)) :
    (urlParse u).host = (urlParse v).host ∧ (urlParse u).port = (urlParse v).port := by
  unfold originOf at h
  rw [fmtS_host hu, fmtS_host hv, List.append_assoc, List.append_assoc] at h
  obtain ⟨hhost, hport⟩ := append_cons_inj_of_notMem (x := 58) (notMem_decimal (by decide))
    (notMem_decimal (by decide)) h
  exact ⟨hhost, decimal_inj hport⟩

theorem originOf_ne_zero {u : Str8} (hu : (urlParse u).ok = true) : ∀ b ∈ originOf (urlParse u), b ≠ 0 := by
  unfold originOf
  rw [fmtS_host hu, List.append_assoc]
  rintro b hb rfl
  rcases List.mem_append.mp hb with hb | hb
  · exact absurd (urlParse_host_bytes hu 0 hb) (by decide)
  · rcases List.mem_append.mp hb with hb | hb
    · exact absurd hb (by decide)
    · exact notMem_decimal (by decide) hb

/-- No request has a key that is longer than 255 bytes and begins with the whole key of another request of
    its protocol, 255 bytes long. -/
def KeysApart (s : Pool) : Prop :=
  ∀ r r', r < s.nreq → r' < s.nreq → (s.reqs r).proto = (s.reqs r').proto →
    255 < (originOf (urlParse (s.reqs r).url)).length →
    (originOf (urlParse (s.reqs r).url)).take 255 ≠ originOf (urlParse (s.reqs r').url)

theorem Routed.same_origin (hb : Base w) (hi : Routed w) (hk : KeysApart w.2) (hon : On w r c) :
    (w.2.conn c).host = (w.2.reqs r).host ∧ (w.2.conn c).port = (w.2.reqs r).port := by
  obtain ⟨hr, hc⟩ := hb.on_lt hon
  have hrides := hi.on r c hon
  rcases hrides.key with hsame | hkey
  · exact hsame
  · -- the connection was opened for `r₀`, and the cut key of `r₀` is the key of `r`
    obtain ⟨r₀, hr₀, hproto, hhost, hport, horigin⟩ := hi.conn c hc
    obtain ⟨hok, hh, hp, ho⟩ := hi.req r hr
    obtain ⟨hok₀, hh₀, hp₀, ho₀⟩ := hi.req r₀ hr₀
    have hcut : (originOf (urlParse (w.2.reqs r₀).url)).take 255 = originOf (urlParse (w.2.reqs r).url) := by
      rw [← ho₀, ← ho, ← hkey, PoolConn.originKey, horigin, fmtS_eq_self]
      intro b hb
      exact originOf_ne_zero hok₀ b (ho₀ ▸ List.mem_of_mem_take hb)
    rcases Nat.lt_or_ge 255 (originOf (urlParse (w.2.reqs r₀).url)).length with hlong | hshort
    · exact absurd hcut (hk r₀ r hr₀ hr (hproto.symm.trans hrides.proto) hlong)
    · rw [List.take_of_length_le hshort] at hcut
      obtain ⟨hhost', hport'⟩ := originOf_inj hok₀ hok hcut
      rw [hhost, hport, hh₀, hp₀, hh, hp]
      exact ⟨hhost', hport'⟩

/-! ## After an eviction -/

/-- The connections opened before the `n`-th take no requests any more. -/
def Retired (n : Nat) (s : Pool) : Prop :=
  n ≤ s.nconn ∧ ∀ c, c < n → (s.conn c).broken = true ∨ (s.conn c).state = .closing

theorem Retired.lasts {n : Nat} {s s' : Pool} (h : Retired n s) (hl : Lasts s s') : Retired n s' := by
  refine ⟨h.1.trans hl.nconn, ?_⟩
  intro c hc
  have hf := hl.conn c (hc.trans_le h.1)
  exact (h.2 c hc).imp hf.broken hf.closing

/-- A connection that is not closed is in `conns[]`. -/
def Listed (w : PoolWorld) : Prop := ∀ c, c < w.2.nconn → (w.2.conn c).state ≠ .closing → c ∈ w.2.conns

theorem Turn.listed (h : Turn cfg w o w') (hi : Listed w) : Listed w' := by
  intro c hc hlive
  have hl := h.lasts
  have hold : c < w.2.nconn → c ∈ w.2.conns :=
    fun hc => hi c hc (fun hcl => hlive ((hl.conn c hc).closing hcl))
  cases h with
  | setInRecv _ _ _ | h1Ignore _ _ _ | h1Feed _ _ _ _ _ | h1Closed _ _ | h1Eof _ _ _ _ => exact hold hc
  | act h =>
    cases h
    case move h =>
        cases h
        case «open» H s x p hroom =>
            rcases Nat.lt_or_eq_of_le (Nat.lt_succ_iff.mp hc) with hc | rfl
            · exact List.mem_append_left _ (hold hc)
            · exact List.mem_append_right _ List.mem_cons_self
        case remove H s y hclosing =>
            apply mem_swapRemove_of_not (hold hc)
            have hne : c ≠ y := fun h => hlive (h ▸ hclosing)
            simpa using hne
        all_goals exact hold hc
    all_goals exact hold hc

theorem Turns.listed (h : Turns cfg w o w') (hb : Base w) (hi : Listed w) : Listed w' :=
  Turns.preserves (fun _ _ _ _ hi hm => hm.listed hi) h hb hi

theorem Turn.retired_of_evicted {n : Nat} (h : Turn cfg w [.evicted n] w') (hi : Listed w) : Retired n w'.2 := by
  obtain ⟨rfl, hs⟩ := h.shown_of_mem List.mem_cons_self rfl
  rw [hs]
  refine ⟨Nat.le_refl _, ?_⟩
  intro c hc
  rw [Pool.markAllBroken_conn]
  by_cases hcl : (w.2.conn c).state = .closing
  · rw [if_neg (fun h => h.2 hcl)]
    exact Or.inr hcl
  · rw [if_pos ⟨hi c hc hcl, hcl⟩]
    exact Or.inl rfl

/-- The request is on connections from the `n`-th on only. -/
def Young (n : Nat) (r : ReqId) (w : PoolWorld) : Prop := ∀ c, On w r c → n ≤ c

theorem Turn.young {n : Nat} (h : Turn cfg w o w') (hret : Retired n w.2) (hy : Young n r w) :
    Young n r w' := by
  intro c hon
  rcases h.on hon with hon | ⟨p, _, hc | ⟨rfl, _⟩⟩
  · exact hy c hon
  · -- a connection that was there at the eviction is broken or closed, so it is not picked
    by_contra hlt
    obtain ⟨hsound, hlive, _⟩ := mem_candidates hc
    rcases hret.2 c (Nat.lt_of_not_le hlt) with hbr | hcl
    · rw [hsound] at hbr
      cases hbr
    · exact hlive hcl
  · exact hret.1

theorem Turn.young_of_dispatched {n : Nat} (h : Turn cfg w [.dispatched r] w') (hb : Base w) : Young n r w' := by
  have hr : r = w.2.nreq := h.shown_of_mem List.mem_cons_self rfl
  intro c hon
  subst hr
  rcases h.on hon with hon | ⟨p, hfree, _⟩
  · exact absurd (hb.on_lt hon).1 (Nat.lt_irrefl _)
  · exact absurd (hb.hand _ hfree) (Nat.lt_irrefl _)

/-- After the eviction the request is only written to connections that are younger. -/
theorem Turns.writes_young {n : Nat} (h : Turns cfg w o w') (hret : Retired n w.2) (hb : Base w)
    (hy : Young n r w) : ∀ c, .write r c ∈ o → n ≤ c := by
  have hI := Turns.invariant (fun _ => True)
    (I := fun l w => Retired n w.2 ∧ Young n r w ∧ ∀ c, .write r c ∈ l → n ≤ c) (fun _ _ _ => trivial) ?_ h hb []
    ⟨hret, hy, fun c hc => (by cases hc)⟩ trivial
  · exact hI.2.2
  · rintro l w o w' hb ⟨hret, hy, hw⟩ hm -
    refine ⟨hret.lasts hm.lasts, hm.young hret hy, ?_⟩
    intro c hc
    rcases List.mem_append.mp hc with hc | hc
    · exact hw c hc
    · exact hy c (hm.on_of_write hc)

theorem Listed.empty : Listed ([], Pool.empty) := fun c hc => (by cases hc)

/-- **A request rides only a connection to its own origin and protocol**, in every state of every run in
    which keys stay apart; and after `pool_evict_all`, whatever the keys, a new request is never written to
    a connection that existed at the call. -/
theorem pool_rides_own_origin {w : PoolRun} (h : PoolReach cfg w) :
    (KeysApart w.pool → ∀ r c, (w.pool.conn c).links r →
      (w.pool.conn c).proto = (w.pool.reqs r).proto ∧
      (w.pool.conn c).host = (urlParse (w.pool.reqs r).url).host ∧
      (w.pool.conn c).port = (urlParse (w.pool.reqs r).url).port) ∧
    ∀ n r c pre mid post, w.log = pre ++ .evicted n :: (mid ++ .dispatched r :: post) →
      .write r c ∈ post → n ≤ c := by
  obtain ⟨ht, _⟩ := h.turns
  constructor
  · intro hk r c hlink
    have hb := Turns.base ht .empty
    have hi := Turns.routed ht .empty .empty
    have hon : On ([], w.pool) r c := Or.inl hlink
    obtain ⟨hhost, hport⟩ := hi.same_origin hb hk hon
    obtain ⟨_, hh, hp, _⟩ := hi.req r (hb.on_lt hon).1
    exact ⟨(hi.on r c hon).proto, hhost.trans hh, hport.trans hp⟩
  · intro n r c pre mid post hlog hw
    -- cut the run at the eviction and at the dispatch
    have hone : ∀ u e v, Turn cfg u e v → e.length ≤ 1 := fun _ _ _ => Turn.length_le_one
    obtain ⟨w₁, w₂, ht₁, hevict, ht₂⟩ := ht.split hone hlog
    obtain ⟨w₃, w₄, ht₃, hdisp, ht₄⟩ := ht₂.split hone rfl
    have hb₁ := Turns.base ht₁ .empty
    have hb₃ := Turns.base ht₃ (hevict.base hb₁)
    have hret : Retired n w₂.2 := hevict.retired_of_evicted (Turns.listed ht₁ .empty .empty)
    have hret₄ : Retired n w₄.2 := hret.lasts ((Turns.lasts ht₃).trans hdisp.lasts)
    exact Turns.writes_young ht₄ hret₄ (hdisp.base hb₃) (hdisp.young_of_dispatched hb₃) c hw

theorem KeysApart.of_short {s : Pool} (h : ∀ r, r < s.nreq → (originOf (urlParse (s.reqs r).url)).length ≤ 255) :
    KeysApart s :=
  fun r _ hr _ _ hlong => absurd (h r hr) (Nat.not_le.mpr hlong)

/-- A request on its way, an eviction, and another request to the same origin. -/
def evictRun : List PoolTurn :=
  [⟨.call (.dispatch .h1 .get (lit "https://a/") false), 5, [.connect none]⟩,
   ⟨.h1Ready 0 (.ok []), 5, [.h1Alloc true]⟩,
   ⟨.call .evictAll, 5, []⟩,
   ⟨.call (.dispatch .h1 .get (lit "https://a/x") false), 5, [.connect none]⟩,
   ⟨.h1Ready 1 (.ok []), 5, [.h1Alloc true]⟩]

theorem pool_rides_own_origin_after_evict :
    ∃ w, PoolReach plainCfg w ∧ (w.pool.conn 1).links 1 ∧ (w.pool.conn 1).host = (urlParse (lit "https://a/x")).host ∧
      ∃ pre mid post, w.log = pre ++ .evicted 1 :: (mid ++ .dispatched 1 :: post) ∧ .write 1 1 ∈ post ∧ 1 ≤ 1 := by
  have hrun : (poolPlay plainCfg evictRun).map (fun w => (w.pool.nreq, (w.pool.conn 1).active)) = some (2, [1]) := by
    decide +kernel
  have hurls : (poolPlay plainCfg evictRun).map (fun w => ((w.pool.reqs 0).url, (w.pool.reqs 1).url)) =
      some (lit "https://a/", lit "https://a/x") := by decide +kernel
  have hlog : (poolPlay plainCfg evictRun).map (·.log) = some ([.dispatched 0, .opened 0 0, .write 0 0] ++
      .evicted 1 :: ([] ++ .dispatched 1 :: [.opened 1 1, .write 1 1])) := by decide +kernel
  obtain ⟨w, hplay, hw⟩ := Option.map_eq_some_iff.mp hrun
  rw [hplay] at hurls hlog
  simp only [Option.map_some, Option.some.injEq, Prod.mk.injEq] at hw hurls hlog
  obtain ⟨hn, hact⟩ := hw
  obtain ⟨hu₀, hu₁⟩ := hurls
  have hreach := PoolReach.of_play hplay
  have hshort : KeysApart w.pool := by
    apply KeysApart.of_short
    intro r hr
    rw [hn] at hr
    match r, hr with
    | 0, _ => rw [hu₀]; decide +kernel
    | 1, _ => rw [hu₁]; decide +kernel
  have hlinks : (w.pool.conn 1).links 1 := Or.inr (by rw [hact]; decide)
  obtain ⟨horigin, hevict⟩ := pool_rides_own_origin hreach
  have hwrite : PoolEvent.write 1 1 ∈ [PoolEvent.opened 1 1, .write 1 1] := by decide
  refine ⟨w, hreach, hlinks, ?_, _, _, _, hlog, hwrite, hevict _ _ _ _ _ _ hlog hwrite⟩
  rw [← hu₁]
  exact (horigin hshort 1 1 hlinks).2.1

/-- 251 times the letter `a`. -/
def longHost : Str8 := List.replicate 251 97

/-- The first request's key is cut behind `:443`, and is then the key of the second request. -/
def cutKeyRun : List PoolTurn :=
  [⟨.call (.dispatch .h2 .get (lit "https://" ++ longHost ++ lit ":443bbbb:443/") false), 5, [.connect none]⟩,
   ⟨.call (.dispatch .h2 .get (lit "https://" ++ longHost ++ lit "/") false), 5, []⟩]

/-- The second request waits on the connection that was opened for the first one's host. -/
theorem rides_foreign_connection :
    ∃ w, PoolReach plainCfg w ∧ (w.pool.conn 0).links 1 ∧
      (w.pool.conn 0).host ≠ (urlParse (w.pool.reqs 1).url).host := by
  have hrun : (poolPlay plainCfg cutKeyRun).map (fun w => ((w.pool.conn 0).waiting.nodes, (w.pool.conn 0).host.length,
      (urlParse (w.pool.reqs 1).url).host.length)) = some ([0, 1], 259, 251) := by decide +kernel
  obtain ⟨w, hplay, hw⟩ := Option.map_eq_some_iff.mp hrun
  simp only [Prod.mk.injEq] at hw
  obtain ⟨hnodes, hlen₀, hlen₁⟩ := hw
  refine ⟨w, PoolReach.of_play hplay, Or.inl (by rw [hnodes]; decide), ?_⟩
  intro heq
  rw [heq, hlen₁] at hlen₀
  cases hlen₀

end HolyTls

import HolyTls.Pool.Place

/-!
# `Pool.Fate` — how requests go on

Every move takes every request from its place to the next one (`Turn.fate`), so what holds of a request along
a run is an invariant of `Fate`. The one exception is a stream that nghttp2 closes before its request has
joined an active list (`strayClose`): the request is then off and on its way at once.
-/

namespace HolyTls

/-! ## Every move -/

section

variable {r x : ReqId} {H H' : List Held} {s s' : Pool} {p : Place} {o : List PoolEvent} {c : ConnId}
  {cfg : PoolCfg} {w w' : PoolWorld} {s₁ : Pool}

variable {h : Held} {t : Pool} {e : PoolEvent}

theorem silent_nil : Silent r [] := fun _ h => (by cases h)

theorem silent_singleton (h : e.req? ≠ some r) : Silent r [e] := by
  intro e' he'
  rw [List.mem_singleton.mp he']
  exact h

/-- A move that leaves the request where it is, without a word about it. -/
theorem Placed.stays (hp : Placed r (H, s) p) (hown : own r H' = own r H) (hl : SameLists r s s')
    (hq : SameReq r s s') (ho : Silent r o) : ∃ p', Placed r (H', s') p' ∧ Fate (H, s) (H', s') r p o p' :=
  ⟨p, hp.keep hown hl hq, .stay ho hq.flags⟩

theorem SameLists.activeRemove (hx : x ≠ r) : SameLists r s (s.activeRemove x c) :=
  .updConn rfl (List.count_erase_of_ne hx.symm)

/-- A request that was on the lists of `c` only, and is taken off them. -/
theorem off_lists {g : PoolConn → PoolConn}
    (hother : ∀ y, y ≠ c → (s.conn y).waiting.nodes.count r = 0 ∧ (s.conn y).active.count r = 0)
    (hw : (g (s.conn c)).waiting.nodes.count r = 0) (ha : (g (s.conn c)).active.count r = 0) :
    (∀ y, ((s.updConn c g).conn y).waiting.nodes.count r = 0) ∧
      ∀ y, ((s.updConn c g).conn y).active.count r = 0 := by
  refine forall_and.mp fun y => ?_
  rw [Pool.updConn_conn]
  split
  · exact ⟨hw, ha⟩
  · next hy => exact hother y hy

theorem activeRemove_off
    (hother : ∀ y, y ≠ c → (s.conn y).waiting.nodes.count r = 0 ∧ (s.conn y).active.count r = 0)
    (hw : (s.conn c).waiting.nodes.count r = 0) (ha : (s.conn c).active.count r ≤ 1) :
    (∀ y, ((s.activeRemove r c).conn y).waiting.nodes.count r = 0) ∧
      ∀ y, ((s.activeRemove r c).conn y).active.count r = 0 := by
  refine off_lists hother hw ?_
  show ((s.conn c).active.erase r).count r = 0
  rw [List.count_erase_self]
  omega

/-- A request that is at most on the lists of `c`. -/
theorem Placed.nowhere_else (hp : Placed r (H, s) p) (hat : p = .nowhere ∨ p = .waiting c ∨ p = .active c)
    (y : ConnId) (hy : y ≠ c) : (s.conn y).waiting.nodes.count r = 0 ∧ (s.conn y).active.count r = 0 := by
  rw [hp.waits y, hp.acts y]
  rcases hat with rfl | rfl | rfl <;> simp [Place.waits, Place.acts, hy]

theorem SameLists.afterSubmit (hx : x ≠ r) : SameLists r s (s.afterSubmit x c) :=
  .updConn rfl (List.count_cons_of_ne hx)

theorem SameLists.trans {s₁ : Pool} (h : SameLists r s s₁) (h' : SameLists r s₁ s') : SameLists r s s' :=
  ⟨fun c => (h'.waits c).trans (h.waits c), fun c => (h'.acts c).trans (h.acts c)⟩

theorem afterSubmit_count (y : ConnId) :
    ((s.afterSubmit r c).conn y).active.count r = (s.conn y).active.count r + if y = c then 1 else 0 := by
  rw [Pool.afterSubmit, Pool.updConn_conn]
  by_cases hy : y = c
  · rw [if_pos hy, if_pos hy, hy]
    exact List.count_cons_self
  · rw [if_neg hy, if_neg hy, Nat.add_zero]

theorem SameFlags.updReq {f : PoolReq → PoolReq} (hf : ∀ q, SameFlags q (f q)) :
    SameFlags (s.reqs r) ((s.updReq x f).reqs r) := by
  rw [Pool.updReq_reqs]
  split
  · next hx => exact hx ▸ hf _
  · exact .refl _

theorem SameReq.of_reqs (h : s'.reqs r = s.reqs r) : SameReq r s s' :=
  ⟨by rw [h], by rw [h]; exact .refl _⟩

theorem silent_of_none (h : e.req? = none) : Silent r [e] :=
  silent_singleton (by rw [h]; exact fun h => (by cases h))

theorem silent_of_or {q : Prop} (h : e.req? = none) (hev : o = [e] ∨ o = [] ∧ q) : Silent r o := by
  rcases hev with rfl | ⟨rfl, _⟩
  · exact silent_of_none h
  · exact silent_nil

theorem silent_of_ne (h : e.req? = some x) (hx : x ≠ r) : Silent r [e] :=
  silent_singleton (by rw [h]; exact fun h => hx (Option.some.inj h))

/-- A dispatched request is on no list yet. -/
theorem Placed.unborn (hb : Base (H, s)) (hr : s.nreq ≤ r) (hp : Placed r (H, s) p) : p = .nowhere := by
  cases p with
  | nowhere => rfl
  | hand h =>
    have hlt := (hb.hand h hp.mem_hand.1).req_lt
    rw [hp.mem_hand.2] at hlt
    exact absurd hlt (Nat.not_lt.mpr hr)
  | waiting c => exact absurd (hb.lists c r (.inl hp.mem_waiting)) (Nat.not_lt.mpr hr)
  | active c => exact absurd (hb.lists c r (.inr (.inl hp.mem_active))) (Nat.not_lt.mpr hr)

theorem Placed.born {q : PoolReq} (proto : PoolProto) (hb : Base (H, s)) (hp : Placed s.nreq (H, s) p)
    (hresp : q.responded = false) (hleg : q.legacy = false) :
    p = .nowhere ∧ Placed s.nreq (.free s.nreq proto :: H, s.addReq q) (.hand (.free s.nreq proto)) := by
  have hnow := hp.unborn hb (Nat.le_refl _)
  subst hnow
  have hempty : own s.nreq H = [] := by
    apply List.filter_eq_nil_iff.mpr
    intro h hh
    have hlt := (hb.hand h hh).req_lt
    simpa using Nat.ne_of_lt hlt
  have hown : own s.nreq (.free s.nreq proto :: H) = [.free s.nreq proto] :=
    (own_cons_self (h := .free s.nreq proto) (r := s.nreq) rfl).trans (by rw [hempty])
  have hq : (s.addReq q).reqs s.nreq = q := by rw [Pool.addReq_reqs, if_pos rfl]
  refine ⟨rfl, ⟨?_, hp.waits, hp.acts, fun c hc => (by cases hc), ?_, fun h => (by cases h), ?_, ?_,
    fun c x _ h => (by cases h)⟩⟩
  · exact (congrArg (List.filter _) hown).trans rfl
  · exact fun _ => (congrArg PoolReq.responded hq).trans hresp
  · exact fun _ => (congrArg PoolReq.legacy hq).trans hleg
  · intro h hh he
    rw [hown, List.mem_singleton] at hh
    rw [hh] at he
    cases he

/-- A request that is popped or rehomed leaves its waiting list while no deadline is handled. -/
theorem Placed.unwait {g : PoolConn → PoolConn} (hp : Placed r (H, s) p) (hcalm : Calm H)
    (hmem : r ∈ (s.conn c).waiting.nodes) (hown : own r H' = h :: own r H) (hx : h.expires = false)
    (hv : (g (s.conn c)).waiting.nodes.count r = 0) (hact : (g (s.conn c)).active = (s.conn c).active)
    (hpc : ∀ y, (Place.hand h).conn? = some y → y = c) :
    p = .waiting c ∧ Placed r (H', s.updConn c g) (.hand h) := by
  have hwait := hp.at_waiting hmem
  obtain ⟨hw, ha⟩ := off_lists (hp.nowhere_else (.inr (.inl hwait))) hv (by rw [hact, hp.acts c, hwait]; rfl)
  subst hwait
  have hresp : (s.reqs r).responded = false := (hp.listed rfl).resolve_right hcalm.own
  refine ⟨rfl, hp.leave hown hx rfl hw ha ⟨?_, fun _ => hresp, fun _ => hp.legacy rfl⟩ (fun h => ⟨h, rfl⟩)⟩
  intro y hy
  rw [hpc y hy]
  exact hp.pc c rfl

/-- The request joins the active list of the connection it was bound for. -/
theorem Placed.activate (hp : Placed r (h :: H, s) p) (hh : h = .sub r c ∨ h = .sent r c)
    (hl : SameLists r s s₁) (hq : SameReq r s s₁) :
    p = .hand h ∧ Placed r (H, s₁.afterSubmit r c) (.active c) := by
  have hr : h.req = r := by rcases hh with rfl | rfl <;> rfl
  have hx : h.expires = false := by rcases hh with rfl | rfl <;> rfl
  have hbusy : (Place.hand h).busy = true := by rcases hh with rfl | rfl <;> rfl
  have hset : (Place.hand h).settled = false := by rcases hh with rfl | rfl <;> rfl
  have hconn : (Place.hand h).conn? = some c := by rcases hh with rfl | rfl <;> rfl
  obtain ⟨rfl, _⟩ := hp.at_hand hr hx
  have hresp := hp.busy hbusy
  refine ⟨rfl, hp.go hr hx rfl (fun z hz => (by cases hz)) ?_ ?_ ⟨?_, ?_, ?_⟩ ?_⟩
  · intro y
    have hwait : ((s₁.afterSubmit r c).conn y).waiting = (s₁.conn y).waiting :=
      Pool.updConn_part PoolConn.waiting rfl y
    rw [hwait, hl.waits y]
    rfl
  · intro y
    rw [afterSubmit_count, hl.acts y]
    rfl
  · rintro y ⟨⟩
    exact hq.pc.trans (hp.pc c hconn)
  · exact fun _ => hq.flags.responded.trans hresp
  · exact fun _ => hq.flags.legacy.trans (hp.legacy hset)
  · intro h
    rw [hresp] at h
    cases h

/-- An active request that has not been told anything is taken off its connection. -/
theorem Placed.take {c₀ : ConnId} (hp : Placed r (H, s) p) (hact : r ∈ (s.conn c₀).active)
    (hpc : (s.reqs r).pc = some c) (hresp : (s.reqs r).responded = false) (got : Option Response) :
    p = .active c ∧ Placed r (.off r got :: H, s.activeRemove r c) (.hand (.off r got)) := by
  have hactive := hp.at_active hact
  subst hactive
  have hc : c = c₀ := Option.some.inj (hpc.symm.trans (hp.pc c₀ rfl))
  subst hc
  obtain ⟨hw, ha⟩ := activeRemove_off (hp.nowhere_else (.inr (.inr rfl))) (hp.waits c)
    (by rw [hp.acts c]; simp [Place.acts])
  exact ⟨rfl, hp.leave (own_cons_self rfl) rfl rfl hw ha
    ⟨fun y hy => (by cases hy), fun _ => hresp, fun _ => hp.legacy rfl⟩ (fun h => ⟨h, rfl⟩)⟩

/-- The requests that wait on a connection come into hand, while no deadline is handled. -/
theorem Placed.detachWaiting (hp : Placed r (H, s) p) {g : ReqId → Held} (hcalm : Calm H)
    (hg : ∀ x, (g x).req = x) (hx : (g r).expires = false) (hconn : (Place.hand (g r)).conn? = none) :
    p = .waiting c ∧ Placed r ((s.conn c).waiting.nodes.map g ++ H, s.detachWaiting c) (.hand (g r)) ∨
      Placed r ((s.conn c).waiting.nodes.map g ++ H, s.detachWaiting c) p := by
  have hown := own_map_append (r := r) (H := H) hg (s.conn c).waiting.nodes
  by_cases hmem : r ∈ (s.conn c).waiting.nodes
  · left
    have hone : (s.conn c).waiting.nodes.count r = 1 := by
      rw [hp.waits c, hp.at_waiting hmem]
      simp [Place.waits]
    rw [hone] at hown
    exact hp.unwait hcalm hmem hown hx rfl rfl (fun y hy => (by rw [hconn] at hy; cases hy))
  · right
    have hzero := List.count_eq_zero.mpr hmem
    rw [hzero] at hown
    exact hp.keep hown (.updConn hzero.symm rfl) (.of_reqs rfl)

/-- All requests of a connection that fails come into hand, also one whose deadline is being handled. -/
theorem Placed.failAll (hp : Placed r (H, s) p) :
    (p = .waiting c ∨ p = .active c) ∧
      Placed r ((s.conn c).active.map (.off · none) ++ (s.conn c).waiting.nodes.map (.off · none) ++ H,
        (s.detachAll c).close c) (.hand (.off r none)) ∨
      Placed r ((s.conn c).active.map (.off · none) ++ (s.conn c).waiting.nodes.map (.off · none) ++ H,
        (s.detachAll c).close c) p := by
  rw [Pool.close, Pool.detachAll, Pool.updConn_updConn]
  have hown : own r ((s.conn c).active.map (.off · none) ++ (s.conn c).waiting.nodes.map (.off · none) ++ H) =
      List.replicate ((s.conn c).active.count r) (.off r none) ++
        (List.replicate ((s.conn c).waiting.nodes.count r) (.off r none) ++ own r H) := by
    rw [List.append_assoc, own_map_append (fun _ => rfl), own_map_append (fun _ => rfl)]
  by_cases hlist : p = .waiting c ∨ p = .active c
  · left
    have hsingle : own r ((s.conn c).active.map (.off · none) ++ (s.conn c).waiting.nodes.map (.off · none) ++ H) =
        .off r none :: own r H := by
      rw [hown, hp.acts c, hp.waits c]
      rcases hlist with rfl | rfl <;> simp [Place.acts, Place.waits]
    obtain ⟨hw, ha⟩ := off_lists
      (g := fun pc => { pc with broken := true, inflight := 0, active := [], waiting := {}, state := .closing })
      (hp.nowhere_else (.inr hlist)) rfl rfl
    refine ⟨hlist, hp.leave hsingle rfl ?_ hw ha ⟨fun y hy => (by cases hy), ?_, ?_⟩ (fun h => ⟨h, rfl⟩)⟩
    · rcases hlist with rfl | rfl <;> rfl
    · exact fun h => (by rcases h with h | h <;> cases h)
    · exact fun _ => hp.legacy (by rcases hlist with rfl | rfl <;> rfl)
  · right
    have hwaits : (s.conn c).waiting.nodes.count r = 0 :=
      List.count_eq_zero.mpr (fun h => hlist (.inl (hp.at_waiting h)))
    have hacts : (s.conn c).active.count r = 0 :=
      List.count_eq_zero.mpr (fun h => hlist (.inr (hp.at_active h)))
    rw [hwaits, hacts] at hown
    exact hp.keep hown (.updConn hwaits.symm hacts.symm) (.of_reqs rfl)

/-- A request on its way passes into another role, and every other request stays. -/
theorem Placed.pass {g : Held} (hp : Placed r (h :: H, s) p) (hbusy : (Place.hand h).busy = true)
    (hg : g.req = h.req) (hx : g.expires = false) (hl : SameLists r s t)
    (hflags : SameFlags (s.reqs r) (t.reqs r)) (hstay : h.req ≠ r → (t.reqs r).pc = (s.reqs r).pc)
    (hpc : h.req = r → ∀ c, (Place.hand g).conn? = some c → (t.reqs r).pc = some c)
    (ho : h.req ≠ r → Silent r o) (hgo : h.req = r → Fate (h :: H, s) (g :: H, t) r (.hand h) o (.hand g)) :
    ∃ p', Placed r (g :: H, t) p' ∧ Fate (h :: H, s) (g :: H, t) r p o p' := by
  rcases eq_or_ne h.req r with hr | hr
  · obtain ⟨rfl, hp'⟩ := hp.swap_busy hr hbusy (hg.trans hr) hx hl hflags (hpc hr)
    exact ⟨_, hp', hgo hr⟩
  · exact hp.stays (own_swap_ne hr (hg ▸ hr)) hl ⟨hstay hr, hflags⟩ (ho hr)

/-- A request on its way is given up. -/
theorem Placed.quit (hp : Placed r (h :: H, s) p) (hbusy : (Place.hand h).busy = true)
    (hgo : h.req = r → Hop s r (.hand h) (.hand (.off h.req none))) :
    ∃ p', Placed r (.off h.req none :: H, s) p' ∧ Fate (h :: H, s) (.off h.req none :: H, s) r p [] p' :=
  hp.pass hbusy rfl rfl (.refl _ _) (.refl _) (fun _ => rfl) (fun _ _ hc => (by cases hc)) (fun _ => silent_nil)
    (fun hr => .hop (hgo hr) silent_nil (.refl _))

/-- The request is written on the connection it is bound for, and has yet to join the active list. -/
theorem Placed.written (hp : Placed r (h :: H, s) p) (hh : h = .sub x c ∨ h = .streamed x c) :
    ∃ p', Placed r (.sent x c :: H, s) p' ∧ Fate (h :: H, s) (.sent x c :: H, s) r p [.write x c] p' := by
  have hx : h.req = x := by rcases hh with rfl | rfl <;> rfl
  have hexp : h.expires = false := by rcases hh with rfl | rfl <;> rfl
  have hconn : (Place.hand h).conn? = some c := by rcases hh with rfl | rfl <;> rfl
  refine hp.pass (by rcases hh with rfl | rfl <;> rfl) hx.symm rfl (.refl _ _) (.refl _) (fun _ => rfl) ?_ ?_ ?_
  · rintro hr y ⟨⟩
    exact hp.pc c (by rw [(hp.at_hand hr hexp).1, hconn])
  · exact fun hr => silent_of_ne rfl (hx ▸ hr)
  · intro hr
    rw [hx] at hr
    subst hr
    exact .write (hh.imp (congrArg Place.hand) (congrArg Place.hand)) (.inl rfl) (.refl _)

/-- A request in hand is queued on a connection; on a list that does not end at its tail this loses requests. -/
theorem Placed.queue (hp : Placed r (h :: H, s) p) (hh : h = .sub x c ∨ h = .opened x c)
    (hpc : x = r → (t.reqs r).pc = some c) (hflags : SameFlags (s.reqs r) (t.reqs r))
    (hstay : x ≠ r → (t.reqs r).pc = (s.reqs r).pc) (hconn : t.conn = s.conn) (ho : Silent r o) :
    ∃ p', Placed r (H, t.waitingPush x c) p' ∧ Fate (h :: H, s) (H, t.waitingPush x c) r p o p' := by
  rcases eq_or_ne x r with rfl | hx
  · obtain ⟨p', hp', rfl, hgo⟩ := hp.push_self hh (hpc rfl) hflags hconn
    refine ⟨p', hp', ?_⟩
    rcases hgo with rfl | hgo
    · refine .hop ?_ ho hflags
      rcases hh with rfl | rfl
      · exact .park
      · exact .parkNew
    · exact .hop hgo ho hflags
  · have hown : own r H = own r (h :: H) := (own_cons_ne (by rcases hh with rfl | rfl <;> exact hx)).symm
    obtain ⟨p', hp', hgo⟩ := hp.beside_push (c := c) hx hown ⟨hstay hx, hflags⟩ hconn
    refine ⟨p', hp', ?_⟩
    rcases hgo with rfl | hgo
    · exact .stay ho hflags
    · exact .hop hgo ho hflags

/-- A request with the connection it is on gone from hand joins the active list there. -/
theorem Placed.joins (hp : Placed r (h :: H, s) p) (hh : h = .sub x c ∨ h = .sent x c) (hl : SameLists r s s₁)
    (hq : SameReq r s s₁) (ho : x ≠ r → Silent r o)
    (hgo : x = r → Fate (h :: H, s) (H, s₁.afterSubmit x c) r (.hand h) o (.active c)) :
    ∃ p', Placed r (H, s₁.afterSubmit x c) p' ∧ Fate (h :: H, s) (H, s₁.afterSubmit x c) r p o p' := by
  rcases eq_or_ne x r with rfl | hx
  · obtain ⟨rfl, hp'⟩ := hp.activate hh hl hq
    exact ⟨_, hp', hgo rfl⟩
  · have hown : own r H = own r (h :: H) := (own_cons_ne (by rcases hh with rfl | rfl <;> exact hx)).symm
    exact hp.stays hown (hl.trans (.afterSubmit hx)) ⟨hq.pc, hq.flags⟩ (ho hx)

/-- A request is taken off its connection before it has been told anything. -/
theorem Placed.taken {c₀ : ConnId} (hp : Placed r (H, s) p) (hact : x ∈ (s.conn c₀).active)
    (hpc : (s.reqs x).pc = some c) (hresp : (s.reqs x).responded = false) (got : Option Response) :
    ∃ p', Placed r (.off x got :: H, s.activeRemove x c) p' ∧
      Fate (H, s) (.off x got :: H, s.activeRemove x c) r p [] p' := by
  rcases eq_or_ne x r with rfl | hx
  · obtain ⟨rfl, hp'⟩ := hp.take hact hpc hresp got
    exact ⟨_, hp', .hop (.take got hresp) silent_nil (.refl _)⟩
  · exact hp.stays (own_cons_ne hx) (.activeRemove hx) (.of_reqs rfl) silent_nil

/-- A request in hand has been answered. -/
theorem Placed.settle (hp : Placed r (h :: H, s) p) (hr : h.req = r) (hx : h.expires = false)
    (hl : SameLists r s t)
    (hkeep : (s.reqs r).responded = true → (t.reqs r).responded = true ∧ (t.reqs r).pc = (s.reqs r).pc) :
    p = .hand h ∧ Placed r (.answered r :: H, t) (.hand (.answered r)) :=
  hp.swap hr hx rfl rfl hl
    ⟨fun c hc => (by cases hc), fun h => (by rcases h with h | h <;> cases h), fun h => (by cases h)⟩ hkeep

theorem Placed.released (hp : Placed r (h :: H, s) p)
    (hh : h = .answered x ∨ ∃ got, h = .off x got ∧ (s.reqs x).responded = true) :
    ∃ p', Placed r (H, s.release x) p' ∧ Fate (h :: H, s) (H, s.release x) r p [.released x] p' := by
  have hx : h.req = x := by rcases hh with rfl | ⟨got, rfl, -⟩ <;> rfl
  have hexp : h.expires = false := by rcases hh with rfl | ⟨got, rfl, -⟩ <;> rfl
  rcases eq_or_ne x r with rfl | hr
  · have hq : (s.release x).reqs x = { s.reqs x with h1 := none, timerArmed := false, released := true } :=
      Pool.updReq_self ..
    obtain ⟨rfl, hp'⟩ := hp.gone (t := s.release x) hx hexp (.of_conn rfl) (fun h => (by rw [hq]; exact ⟨h, rfl⟩))
    exact ⟨_, hp', .release hh (by rw [hq]) (by rw [hq]) (by rw [hq]) (by rw [hq])⟩
  · exact hp.stays (own_cons_ne (by rwa [hx])).symm (.of_conn rfl) (.updReq_ne hr) (silent_of_ne rfl hr)

theorem Move.fate (h : Move cfg w o w') (hb : Base w) (hp : Placed r w p) (hstray : .strayClose r ∉ o) :
    ∃ p', Placed r w' p' ∧ Fate w w' r p o p' := by
  cases h with
  | @dispatch H s proto method url deadline hok =>
    rcases eq_or_ne s.nreq r with rfl | hr
    · obtain ⟨rfl, hp'⟩ := hp.born (q := .ofUrl proto method url deadline) proto hb rfl rfl
      have hq : (s.addReq (.ofUrl proto method url deadline)).reqs s.nreq = .ofUrl proto method url deadline := by
        rw [Pool.addReq_reqs, if_pos rfl]
      exact ⟨_, hp', .born rfl (by rw [hq]; rfl) (by rw [hq]; rfl) (by rw [hq]; rfl)⟩
    · exact hp.stays (own_cons_ne hr) (.of_conn rfl)
        (.of_reqs (by rw [Pool.addReq_reqs, if_neg hr.symm])) (silent_of_ne rfl hr)
  | reject url => exact hp.stays rfl (.refl _ _) (.refl _ _) (silent_of_none rfl)
  | @«open» H s x q hroom =>
    have hl : SameLists r s (s.addConn q (s.reqs x)) := by
      constructor
      all_goals
        intro y
        rw [Pool.addConn_conn]
        split
        · next hy => rw [hy, hb.fresh s.nconn (Nat.le_refl _)]
        · rfl
    refine hp.pass rfl rfl rfl hl (.refl _) (fun _ => rfl) (fun _ _ hc => (by cases hc))
      (fun _ => silent_of_none rfl) ?_
    rintro rfl
    exact .hop (.open _) (silent_of_none rfl) (.refl _)
  | @assign H s x q y hc =>
    have hflags : SameFlags (s.reqs r) ((s.setPc x y).reqs r) := .updReq (fun _ => ⟨rfl, rfl, rfl, id⟩)
    refine hp.pass (t := s.setPc x y) rfl rfl rfl (.of_conn rfl) hflags (fun hx => (SameReq.updReq_ne hx).pc) ?_
      (fun _ => silent_nil) ?_
    · rintro rfl c hc
      exact (congrArg PoolReq.pc (Pool.updReq_self ..)).trans hc
    · rintro rfl
      exact .hop (.assign _) silent_nil hflags
  | @reassign H s x y =>
    rcases eq_or_ne x r with rfl | hx
    · obtain ⟨rfl, _⟩ := hp.at_hand rfl rfl
      have hpc := hp.pc y rfl
      exact hp.stays rfl (.of_conn rfl) (.updReq hpc.symm ⟨rfl, rfl, rfl, id⟩) silent_nil
    · exact hp.stays rfl (.of_conn rfl) (.updReq_ne hx) silent_nil
  | @park H s x y ev hev =>
    refine hp.queue (t := s) (.inl rfl) ?_ (.refl _) (fun _ => rfl) rfl (silent_of_or rfl hev)
    rintro rfl
    obtain ⟨rfl, _⟩ := hp.at_hand rfl rfl
    exact hp.pc y rfl
  | @parkNew H s x y ev hev =>
    refine hp.queue (t := s.setPc x y) (.inr rfl) ?_ (.updReq (fun _ => ⟨rfl, rfl, rfl, id⟩))
      (fun hx => (SameReq.updReq_ne hx).pc) rfl (silent_of_or rfl hev)
    rintro rfl
    exact congrArg PoolReq.pc (Pool.updReq_self ..)
  | @pop H s x y v hcalm hpop hcap =>
    have hnodes := Waiting.nodes_of_pop hpop
    rcases eq_or_ne x r with rfl | hx
    · have hmem : x ∈ (s.conn y).waiting.nodes := hnodes ▸ List.mem_cons_self
      have hv : v.nodes.count x = 0 := by
        have hcount := hp.waits y
        rw [hp.at_waiting hmem, hnodes, List.count_cons_self] at hcount
        simp only [Place.waits, if_pos] at hcount
        omega
      obtain ⟨rfl, hp'⟩ := hp.unwait (g := fun pc => { pc with waiting := v }) (h := .sub x y) hcalm hmem
        (own_cons_self rfl) rfl hv rfl (fun z hz => (Option.some.inj hz).symm)
      exact ⟨_, hp', .hop .pop silent_nil (.refl _)⟩
    · exact hp.stays (own_cons_ne hx) (.updConn (by rw [hnodes, List.count_cons_of_ne hx]) rfl) (.of_reqs rfl)
        silent_nil
  | write hproto => exact hp.written (.inl rfl)
  | @writeH1 H s x y hproto hcap =>
    have hl : SameLists r s (s.startH1 x y) := by
      have hreq : SameLists r s (s.updReq x (fun q => { q with h1 := some (h1SessionStart (q.method = .head)) })) :=
        .of_conn rfl
      exact hreq.trans (.updConn rfl rfl)
    have hq : SameReq r s (s.startH1 x y) := by
      have hreq : SameReq r s (s.updReq x (fun q => { q with h1 := some (h1SessionStart (q.method = .head)) })) :=
        .updReq rfl ⟨rfl, rfl, rfl, id⟩
      exact ⟨hreq.pc, hreq.flags⟩
    refine hp.joins (.inl rfl) hl hq (fun hx => silent_of_ne rfl hx) ?_
    rintro rfl
    exact .write (.inl rfl) (.inr rfl) hq.flags
  | @openStream H s x y hproto =>
    have hl : SameLists r s (s.openStream x y) := by
      have hnext : SameLists r s (s.updConn y (fun pc => { pc with nextStream := pc.nextStream + 1 })) :=
        .updConn rfl rfl
      exact ⟨hnext.waits, hnext.acts⟩
    have hq : SameReq r s (s.openStream x y) := by
      have hreq : SameReq r s (s.updReq x (fun q => { q with h3StreamId := 4 * (s.conn y).nextStream })) :=
        .updReq rfl ⟨rfl, rfl, rfl, id⟩
      exact ⟨hreq.pc, hreq.flags⟩
    refine hp.pass rfl rfl rfl hl hq.flags (fun _ => hq.pc) ?_ (fun _ => silent_nil) ?_
    · rintro rfl c hc
      exact hq.pc.trans (hp.pc c (by rw [(hp.at_hand rfl rfl).1]; exact hc))
    · rintro rfl
      exact .hop .openStream silent_nil hq.flags
  | writeH3 hproto => exact hp.written (.inr rfl)
  | @activate H s x y ev hproto hev =>
    have ho : Silent r o := by
      rcases hev with ⟨rfl, _⟩ | ⟨rfl, _⟩
      · exact silent_of_none rfl
      · exact silent_nil
    refine hp.joins (.inr rfl) (.refl r s) (.refl r s) (fun _ => ho) ?_
    rintro rfl
    exact .hop .activate ho (.refl _)
  | @activateH3 H s x y ev hproto hrecv hh3c hev =>
    have ho : Silent r o := by
      rcases hev with ⟨rfl, _⟩ | ⟨rfl, _⟩
      · exact silent_of_none rfl
      · exact silent_nil
    have hl : SameLists r s (s.pushStream x y) := .updConn rfl rfl
    refine hp.joins (.inr rfl) hl (.of_reqs rfl) (fun _ => ho) ?_
    rintro rfl
    exact .hop .activate ho (.refl _)
  | giveUp => exact hp.quit rfl (by rintro rfl; exact .giveUp)
  | withdraw => exact hp.quit rfl (by rintro rfl; exact .withdraw)
  | abandon => exact hp.quit rfl (by rintro rfl; exact .abandon)
  | take got hact hh2 hpc hresp => exact hp.taken hact hpc hresp got
  | takeH1 hact hproto hpc hresp hh1 hdel => exact hp.taken hact hpc hresp _
  | @takeStray H s x c₀ y got hproto hpc hresp =>
    have hx : x ≠ r := fun h => hstray (by rw [h]; exact List.mem_singleton.mpr rfl)
    exact hp.stays (own_cons_ne hx) (.activeRemove hx) (.of_reqs rfl) (silent_of_none rfl)
  | @refuse H s x got =>
    rcases eq_or_ne x r with rfl | hx
    · obtain ⟨rfl, _⟩ := hp.at_hand rfl rfl
      exact ⟨_, hp, .refuse (.refl _)⟩
    · exact hp.stays rfl (.refl _ _) (.refl _ _) (silent_of_ne rfl hx)
  | @retry H s x got hleft hresp =>
    rcases eq_or_ne x r with rfl | hx
    · have hflags : SameFlags (s.reqs x) ((s.resetForRetry x).reqs x) := .updReq (fun _ => ⟨rfl, rfl, rfl, id⟩)
      have hoff := (hp.at_hand rfl rfl).1
      subst hoff
      obtain ⟨_, hp'⟩ := hp.swap (g := .free x (s.reqs x).proto) (t := s.resetForRetry x) rfl rfl rfl rfl
        (.of_conn rfl) ⟨fun c hc => (by cases hc), fun _ => hflags.responded.trans hresp,
          fun _ => hflags.legacy.trans (hp.legacy rfl)⟩ (fun h => (by rw [hresp] at h; cases h))
      exact ⟨_, hp', .retry hresp hflags⟩
    · exact hp.stays (own_swap_ne hx hx) (.of_conn rfl) (.updReq_ne hx) (silent_of_ne rfl hx)
  | @answer H s x got resp hopen hresp =>
    rcases eq_or_ne x r with rfl | hx
    · have hq : (s.respond x).reqs x = { s.reqs x with responded := true } := Pool.updReq_self ..
      obtain ⟨rfl, hp'⟩ := hp.settle (t := s.respond x) rfl rfl (.of_conn rfl) (fun _ => (by rw [hq]; exact ⟨rfl, rfl⟩))
      exact ⟨_, hp', .answer hopen (by rw [hq]) (by rw [hq]; exact ⟨rfl, rfl, rfl, id⟩)⟩
    · exact hp.stays (own_swap_ne hx hx) (.of_conn rfl) (.updReq_ne hx) (silent_of_ne rfl hx)
  | release => exact hp.released (.inl rfl)
  | releaseOff hresp => exact hp.released (.inr ⟨_, rfl, hresp⟩)
  | @unassign H s x q =>
    have hflags : SameFlags (s.reqs r) ((s.clearPc x).reqs r) := .updReq (fun _ => ⟨rfl, rfl, rfl, id⟩)
    refine hp.pass (t := s.clearPc x) rfl rfl rfl (.of_conn rfl) hflags (fun hx => (SameReq.updReq_ne hx).pc)
      (fun _ _ hc => (by cases hc)) (fun _ => silent_nil) (fun _ => .stay silent_nil hflags)
  | @failAll H s y hc hlive hrecv =>
    rcases hp.failAll (c := y) with ⟨hlist, hp'⟩ | hp'
    · refine ⟨_, hp', .fail _ _ hlist ?_ (.refl _)⟩
      intro hresp
      refine List.any_eq_true.mpr ⟨r, List.mem_append.mpr ?_, hresp⟩
      rcases hlist with rfl | rfl
      · exact .inr hp.mem_waiting
      · exact .inl hp.mem_active
    · exact ⟨p, hp', .stay (silent_of_none rfl) (.refl _)⟩
  | @rehome H s y hcalm hbroken =>
    rcases hp.detachWaiting (c := y) (g := (.free · (s.conn y).proto)) hcalm (fun _ => rfl) rfl rfl with
      ⟨rfl, hp'⟩ | hp'
    · exact ⟨_, hp', .hop .rehome silent_nil (.refl _)⟩
    · exact ⟨p, hp', .stay silent_nil (.refl _)⟩
  | closeDrained hdrained hempty => exact hp.stays rfl (.updConn rfl rfl) (.of_reqs rfl) silent_nil
  | idleClose hc hempty => exact hp.stays rfl (.updConn rfl rfl) (.of_reqs rfl) (silent_of_none rfl)
  | remove hclosing => exact hp.stays rfl (.of_conn rfl) (.of_reqs rfl) silent_nil
  | @evict H s =>
    refine hp.stays rfl ⟨?_, ?_⟩ (.of_reqs rfl) (silent_of_none rfl)
    all_goals
      intro y
      rw [Pool.markAllBroken_conn]
      split <;> rfl
  | @touch H s y pc' hc hmild =>
    refine hp.stays rfl (.updConn ?_ ?_) (.of_reqs rfl) silent_nil
    · rw [hmild.waiting]
    · rw [hmild.active]

/-! ## Every act -/

/-- While only a deadline is handled, the request is on a list or nowhere. -/
theorem Placed.held_nil (hp : Placed r ([h], s) p) (hr : h.req = r) (hx : h.expires = true) : p.held = [] := by
  have hhand := hp.hand
  rw [own_cons_self hr, List.filter_cons_of_neg (by rw [hx]; decide)] at hhand
  exact hhand.symm

/-- It is on a list of the connection that the handler works with. -/
theorem Placed.at_bound (hp : Placed r ([h], s) p) (hr : h.req = r) (hx : h.expires = true) :
    p = .nowhere ∨ ∃ c, h.bound = some c ∧ (p = .waiting c ∨ p = .active c) := by
  have hnil := hp.held_nil hr hx
  have hpc := (hp.late h (mem_own_of hr List.mem_cons_self) hx).2
  cases p with
  | nowhere => exact .inl rfl
  | hand h => cases hnil
  | waiting z => exact .inr ⟨z, hpc.symm.trans (hp.pc z rfl), .inl rfl⟩
  | active z => exact .inr ⟨z, hpc.symm.trans (hp.pc z rfl), .inr rfl⟩

/-- The handler of a deadline has taken the request off its list. -/
theorem Placed.drop (hp : Placed r ([h], s) p) (hr : h.req = r) (hx : h.expires = true)
    (hw : ∀ c, (t.conn c).waiting.nodes.count r = 0) (ha : ∀ c, (t.conn c).active.count r = 0)
    (hreq : t.reqs = s.reqs) (ho : Silent r o) :
    ∃ p', Placed r ([.answered r], t) p' ∧ Fate ([h], s) ([.answered r], t) r p o p' := by
  have hresp := (hp.late h (mem_own_of hr List.mem_cons_self) hx).1
  have hown : own r [.answered r] = [.answered r] := own_cons_self (H := []) rfl
  refine ⟨.hand (.answered r), ⟨?_, hw, ha, fun c hc => (by cases hc), fun h => (by cases h), fun h => (by cases h),
    fun h => (by cases h), ?_, fun c x _ h => (by cases h)⟩,
    .drop (hp.held_nil hr hx) ⟨h, mem_own_of hr List.mem_cons_self, hx⟩ ?_ hresp ho
      (by dsimp only; rw [hreq]; exact .refl _)⟩
  · exact (congrArg (List.filter _) hown).trans rfl
  · intro z hz he
    rw [hown] at hz
    rw [List.mem_singleton.mp hz] at he
    cases he
  · intro z hz
    rw [List.mem_singleton.mp hz]
    rfl

/-- A request whose stream was cancelled is on no list once it has left the active list. -/
theorem Placed.cancelled (hp : Placed r ([.cancelling r c], s) p) (hl : SameLists r s s₁) :
    (∀ y, ((s₁.activeRemove r c).conn y).waiting.nodes.count r = 0) ∧
      ∀ y, ((s₁.activeRemove r c).conn y).active.count r = 0 := by
  have hat : p = .nowhere ∨ p = .active c := by
    rcases hp.at_bound rfl rfl with hp' | ⟨z, ⟨⟩, hp' | hp'⟩
    · exact .inl hp'
    · exact absurd hp' (hp.cancel c c List.mem_cons_self)
    · exact .inr hp'
  refine activeRemove_off ?_ ?_ ?_
  · intro y hy
    rw [hl.waits y, hl.acts y]
    exact hp.nowhere_else (hat.imp_right .inr) y hy
  · rw [hl.waits c, hp.waits c]
    rcases hat with rfl | rfl <;> rfl
  · rw [hl.acts c, hp.acts c]
    rcases hat with rfl | rfl <;> simp [Place.acts]

theorem Act.fate (h : Act cfg w o w') (hb : Base w) (hp : Placed r w p) (hstray : .strayClose r ∉ o)
    (htab : ∀ c, (w.2.conn c).inRecv = true → (w.2.reqs r).responded = false → r ∈ (w.2.conn c).streams →
      r ∈ (w.2.conn c).active) : ∃ p', Placed r w' p' ∧ Fate w w' r p o p' := by
  cases h with
  | move h => exact h.fate hb hp hstray
  | ready h2 h3c hc hstate hh2 hh3 => exact hp.stays rfl (.updConn rfl rfl) (.of_reqs rfl) silent_nil
  | h3Fin => exact hp.stays rfl (.of_conn rfl) (.updReq rfl ⟨rfl, rfl, rfl, id⟩) silent_nil
  | @fallback s y hc hstate =>
    rcases hp.detachWaiting (c := y) (g := (.off · none)) Calm.nil (fun _ => rfl) rfl rfl with ⟨rfl, hp'⟩ | hp'
    · have hopen := (hp.listed rfl).resolve_right Calm.nil.own
      exact ⟨_, hp', .hop (.detach hopen) silent_nil (.refl _)⟩
    · exact ⟨p, hp', .stay silent_nil (.refl _)⟩
  | @legacy H s x got =>
    rcases eq_or_ne x r with rfl | hx
    · have hq : (s.updReq x (fun q => { q with legacy := true })).reqs x = { s.reqs x with legacy := true } :=
        Pool.updReq_self ..
      obtain ⟨rfl, hp'⟩ := hp.settle (t := s.updReq x (fun q => { q with legacy := true })) rfl rfl (.of_conn rfl)
        (fun h => (by rw [hq]; exact ⟨h, rfl⟩))
      exact ⟨_, hp', .legacy (by rw [hq]) (by rw [hq]; exact ⟨rfl, rfl, rfl, id⟩)⟩
    · exact hp.stays (own_swap_ne hx hx) (.of_conn rfl) (.updReq_ne hx) (silent_of_ne rfl hx)
  | @takeStream s x y sid ev got hfind hrecv hresp hev =>
    have ho : Silent r o := by
      rcases hev with rfl | ⟨rfl, _⟩
      · exact silent_nil
      · exact silent_of_none rfl
    have hl : SameLists r s ((s.updReq x (fun q => { q with h3Fin := true })).removeStream
        (s.reqs x).h3StreamId y) := by
      have hreq : SameLists r s (s.updReq x (fun q => { q with h3Fin := true })) := .of_conn rfl
      exact hreq.trans (.updConn rfl rfl)
    have hq : SameReq r s (s.updReq x (fun q => { q with h3Fin := true })) := .updReq rfl ⟨rfl, rfl, rfl, id⟩
    have hp₁ := hp.keep (t := (s.updReq x (fun q => { q with h3Fin := true })).removeStream
      (s.reqs x).h3StreamId y) rfl hl ⟨hq.pc, hq.flags⟩
    rcases eq_or_ne x r with rfl | hx
    · have hact : x ∈ (s.conn y).active := htab y hrecv hresp (List.mem_of_find?_eq_some hfind)
      have hactive := hp.at_active hact
      subst hactive
      have hact₁ : x ∈ (((s.updReq x (fun q => { q with h3Fin := true })).removeStream
          (s.reqs x).h3StreamId y).conn y).active := by
        rw [Pool.removeStream, Pool.updConn_conn, if_pos rfl]
        exact hact
      obtain ⟨_, hp'⟩ := hp₁.take hact₁ (hp₁.pc y rfl) (hq.flags.responded.trans hresp) got
      exact ⟨_, hp', .hop (.take got hresp) ho hq.flags⟩
    · exact hp.stays (own_cons_ne hx) (hl.trans (.activeRemove hx)) ⟨hq.pc, hq.flags⟩ ho
  | streamClosed hsid hnone => exact hp.stays rfl (.refl _ _) (.refl _ _) (silent_of_none rfl)
  | disarm =>
    exact hp.stays rfl (.of_conn rfl) (.updReq rfl ⟨rfl, rfl, rfl, fun h => (by cases h)⟩) silent_nil
  | @expire s x hlt harmed hopen =>
    rcases eq_or_ne x r with rfl | hx
    · have hq : ((s.updReq x (fun q => { q with timerArmed := false })).respond x).reqs x =
          { s.reqs x with timerArmed := false, responded := true } := by
        simp only [Pool.respond, Pool.updReq_reqs, if_pos]
      have hown : own x [.expiring x (s.reqs x).pc] = [.expiring x (s.reqs x).pc] := own_cons_self (H := []) rfl
      have hnil : p.held = [] := hp.hand.symm
      refine ⟨p, ⟨?_, hp.waits, hp.acts, ?_, ?_, ?_, ?_, ?_, ?_⟩,
        .expire hnil hlt harmed hopen (by rw [hq]) (by rw [hq]; exact ⟨rfl, rfl, rfl, fun h => (by cases h)⟩)⟩
      · exact (congrArg (List.filter _) hown).trans hnil.symm
      · intro c hc
        rw [hq]
        exact hp.pc c hc
      · intro hbusy
        cases p <;> first | cases hbusy | cases hnil
      · exact fun _ => .inr ⟨_, hown ▸ List.mem_cons_self, rfl⟩
      · intro hset
        rw [hq]
        exact hp.legacy hset
      · intro z hz he
        rw [hown] at hz
        rw [List.mem_singleton.mp hz, hq]
        exact ⟨rfl, rfl⟩
      · intro c z hc
        cases List.mem_singleton.mp hc
    · have hq : SameReq r s ((s.updReq x (fun q => { q with timerArmed := false })).respond x) := by
        apply SameReq.of_reqs
        simp only [Pool.respond, Pool.updReq_reqs, if_neg hx.symm]
      exact hp.stays (own_cons_ne hx) (.of_conn rfl) hq (silent_of_ne rfl hx)
  | @cancel s x y hact =>
    rcases eq_or_ne x r with rfl | hx
    · have hactive := hp.at_active hact
      subst hactive
      have hown : own x [.cancelling x y] = [.cancelling x y] := own_cons_self (H := []) rfl
      obtain ⟨hresp, hpc⟩ := hp.late (.expiring x (some y)) (mem_own_of rfl List.mem_cons_self) rfl
      refine ⟨_, ⟨?_, hp.waits, hp.acts, hp.pc, hp.busy, ?_, hp.legacy, ?_, fun c z _ h => (by cases h)⟩,
        .stay silent_nil (.refl _)⟩
      · exact (congrArg (List.filter _) hown).trans rfl
      · exact fun _ => .inr ⟨_, hown ▸ List.mem_cons_self, rfl⟩
      · intro z hz he
        rw [hown] at hz
        rw [List.mem_singleton.mp hz]
        exact ⟨hresp, hpc⟩
    · exact hp.stays (own_swap_ne hx hx) (.refl _ _) (.refl _ _) silent_nil
  | @dropActive s x y ev hproto hact hev =>
    have ho : Silent r o := silent_of_or rfl hev
    rcases eq_or_ne x r with rfl | hx
    · obtain ⟨hw, ha⟩ := hp.cancelled (.refl x s)
      exact hp.drop rfl rfl hw ha rfl ho
    · exact hp.stays (own_swap_ne hx hx) (.activeRemove hx) (.of_reqs rfl) ho
  | @dropStream s x y hproto hact =>
    have hl : SameLists r s (s.dropStream x y) := .updConn rfl rfl
    rcases eq_or_ne x r with rfl | hx
    · obtain ⟨hw, ha⟩ := hp.cancelled hl
      exact hp.drop rfl rfl hw ha rfl silent_nil
    · exact hp.stays (own_swap_ne hx hx) (hl.trans (.activeRemove hx)) (.of_reqs rfl) silent_nil
  | @dropWaiting s x y hact =>
    rcases eq_or_ne x r with rfl | hx
    · -- the request can only be on the lists of the connection that its `pc` points at
      have hat : p = .nowhere ∨ p = .waiting y := by
        rcases hp.at_bound rfl rfl with hp' | ⟨z, ⟨⟩, hp' | hp'⟩
        · exact .inl hp'
        · exact .inr hp'
        · exact absurd (hp' ▸ hp).mem_active hact
      obtain ⟨hw, ha⟩ := off_lists (g := fun pc => { pc with waiting := (s.conn y).waiting.remove x })
        (hp.nowhere_else (hat.imp_right .inl)) (by
          show ((s.conn y).waiting.remove x).nodes.count x = 0
          rw [Waiting.remove]
          split
          · next hin =>
              have hcount := hp.waits y
              rw [hp.at_waiting hin] at hcount
              rw [List.count_erase_self, hcount]
              simp [Place.waits]
          · next hin => exact List.count_eq_zero.mpr hin)
        (List.count_eq_zero.mpr hact)
      exact hp.drop (t := s.setWaiting y ((s.conn y).waiting.remove x)) rfl rfl hw ha rfl silent_nil
    · refine hp.stays (own_swap_ne hx hx) (.updConn ?_ rfl) (.of_reqs rfl) silent_nil
      show ((s.conn y).waiting.remove x).nodes.count r = _
      rw [Waiting.remove]
      split
      · exact List.count_erase_of_ne hx.symm
      · rfl
  | @dropNone s x =>
    rcases eq_or_ne x r with rfl | hx
    · rcases hp.at_bound rfl rfl with rfl | ⟨z, hz, -⟩
      · exact hp.drop rfl rfl hp.waits hp.acts rfl silent_nil
      · cases hz
    · exact hp.stays (own_swap_ne hx hx) (.refl _ _) (.refl _ _) silent_nil
  | tick ms => exact hp.stays rfl (.of_conn rfl) (.of_reqs rfl) silent_nil

/-- **How a request goes on in a move.** -/
theorem Turn.fate (h : Turn cfg w o w') (hb : Base w) (hp : Placed r w p) (hstray : .strayClose r ∉ o)
    (htab : ∀ c, (w.2.conn c).inRecv = true → (w.2.reqs r).responded = false → r ∈ (w.2.conn c).streams →
      r ∈ (w.2.conn c).active) : ∃ p', Placed r w' p' ∧ Fate w w' r p o p' := by
  cases h with
  | act h => exact h.fate hb hp hstray htab
  | setInRecv b hc hb' => exact hp.stays rfl (.updConn rfl rfl) (.of_reqs rfl) silent_nil
  | h1Ignore data hc hnone | h1Closed hc hproto =>
    exact hp.stays rfl (.updConn rfl rfl) (.of_reqs rfl) (silent_of_none rfl)
  | @h1Feed H s y x h data hproto hopen hhead hh1 =>
    have hl : SameLists r s (s.readH1 y data (h1SessionRecv cfg.phr h data).ok) := .updConn rfl rfl
    have hq : SameReq r s (s.updReq x (fun q => { q with h1 := some (h1SessionRecv cfg.phr h data).sess })) :=
      .updReq rfl ⟨rfl, rfl, rfl, id⟩
    exact hp.stays rfl (hl.trans (.of_conn rfl)) ⟨hq.pc, hq.flags⟩ (silent_of_none rfl)
  | @h1Eof H s y x h hproto hopen hhead hh1 =>
    have hl : SameLists r s (s.endH1 y) := .updConn rfl rfl
    have hq : SameReq r s (s.updReq x (fun q => { q with h1 := some (h1SessionEof h).sess })) :=
      .updReq rfl ⟨rfl, rfl, rfl, id⟩
    exact hp.stays rfl (hl.trans (.of_conn rfl)) ⟨hq.pc, hq.flags⟩ (silent_of_none rfl)

end

end HolyTls

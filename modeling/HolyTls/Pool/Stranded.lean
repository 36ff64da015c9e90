import HolyTls.Pool.Books

/-!
# `Pool.Stranded` — no unanswered request is left behind

A request that nobody has answered is on a list of a connection that is open, as long as connections are
closed and lists taken over only when no such request is on them. The source breaks this in five ways, each
of which leaves an event: an eviction or a sweep closes a connection with requests waiting on it, a request
is queued on a connection whose connect has failed already or whose waiting list has been taken over, it
joins the active list of a connection that failed during the submit, and its stream closes astray.
-/

namespace HolyTls

/-- Requests are queued and submitted only where they are looked after, and no connection is closed under
    them. -/
structure NoStranding (l : List PoolEvent) : Prop where
  stray : NoStray l
  failed : ∀ r c, .queuedOnFailed r c ∉ l
  drained : ∀ r c, .queuedOnDrained r c ∉ l
  late : ∀ r c, .lateSubmit r c ∉ l
  idle : ∀ c, .idleClose c true ∉ l

/-- Where unanswered requests are not. -/
structure Kept (w : PoolWorld) : Prop where
  drained : ∀ c, (w.2.conn c).drained = true → (w.2.conn c).waiting.nodes = []
  closing : ∀ c r, (w.2.conn c).state = .closing → (w.2.conn c).links r → (w.2.reqs r).unanswered = false
  placed : ∀ r, ∃ p, Placed r w p ∧ (p.settled = true → r < w.2.nreq → (w.2.reqs r).unanswered = false)

section

variable {cfg : PoolCfg} {w w' : PoolWorld} {o l : List PoolEvent} {r x : ReqId} {c : ConnId} {p : Place}

theorem NoStranding.left (h : NoStranding (l ++ o)) : NoStranding l where
  stray := h.stray.left
  failed := fun r c hm => h.failed r c (List.mem_append_left o hm)
  drained := fun r c hm => h.drained r c (List.mem_append_left o hm)
  late := fun r c hm => h.late r c (List.mem_append_left o hm)
  idle := fun c hm => h.idle c (List.mem_append_left o hm)

theorem NoStranding.right (h : NoStranding (l ++ o)) : NoStranding o where
  stray := fun r hm => h.stray r (List.mem_append_right l hm)
  failed := fun r c hm => h.failed r c (List.mem_append_right l hm)
  drained := fun r c hm => h.drained r c (List.mem_append_right l hm)
  late := fun r c hm => h.late r c (List.mem_append_right l hm)
  idle := fun c hm => h.idle c (List.mem_append_right l hm)

theorem Kept.empty : Kept ([], Pool.empty) where
  drained := fun _ h => (by cases h)
  closing := fun _ _ h => (by cases h)
  placed := fun r => ⟨.nowhere, .empty r, fun _ h => (by cases h)⟩

theorem PoolReq.unanswered_of {q : PoolReq} (h : q.responded = true ∨ q.legacy = true) : q.unanswered = false := by
  unfold PoolReq.unanswered
  rcases h with h | h <;> rw [h] <;> simp

theorem Turn.answered_stays (h : Turn cfg w o w') (hr : r < w.2.nreq) (ha : (w.2.reqs r).unanswered = false) :
    (w'.2.reqs r).unanswered = false := by
  have hf := h.lasts.req r hr
  apply PoolReq.unanswered_of
  unfold PoolReq.unanswered at ha
  cases hresp : (w.2.reqs r).responded with
  | true => exact Or.inl (hf.responded hresp)
  | false =>
    rw [hresp] at ha
    exact Or.inr (hf.legacy (by simpa using ha))

/-! ## Lists -/

theorem Kept.drained_step (hk : Kept w) (h : Turn cfg w o w') (hok : NoStranding o)
    (hc : (w'.2.conn c).drained = true) : (w'.2.conn c).waiting.nodes = [] := by
  have hold := hk.drained c
  have hch := h.change (c := c)
  generalize w'.2.conn c = pc' at hch hc
  cases hch with
  | quiet h => rw [h.waiting]; exact hold (h.drained ▸ hc)
  | born _ _ heq | emptied heq | failed _ _ _ heq => subst heq; rfl
  | @queued r _ hev heq =>
    subst heq
    rcases hev with hev | hev | hq
    · exact absurd (hev ▸ List.mem_cons_self) (hok.drained r c)
    · exact absurd (hev ▸ List.mem_cons_self) (hok.failed r c)
    · rw [hq.kept] at hc
      cases hc
  | popped hpop _ heq =>
    subst heq
    have hnodes := Waiting.nodes_of_pop hpop
    rw [hold hc] at hnodes
    cases hnodes
  | @forgot r _ heq =>
    subst heq
    exact List.eq_nil_of_subset_nil (hold hc ▸ (Waiting.remove_sublist _ r).subset)
  | _ => subst_vars; exact hold hc

/-- A request joins a list of an open connection only. -/
theorem Change.links {pc' : PoolConn} (h : Change cfg w o c pc') (hok : NoStranding o) (hl : pc'.links r) :
    (w.2.conn c).links r ∨ pc'.state ≠ .closing := by
  cases h with
  | quiet h =>
    left
    rwa [PoolConn.links, h.waiting, h.active] at hl
  | born _ _ heq => subst heq; exact Or.inr (by simp)
  | @queued x _ hev heq =>
    subst heq
    rcases hev with hev | hev | hq
    · exact absurd (hev ▸ List.mem_cons_self) (hok.drained x c)
    · exact absurd (hev ▸ List.mem_cons_self) (hok.failed x c)
    · exact Or.inr hq.live
  | popped hpop _ heq =>
    subst heq
    refine Or.inl (hl.imp_left fun h => ?_)
    rw [Waiting.nodes_of_pop hpop]
    exact List.mem_cons_of_mem _ h
  | forgot _ heq => subst heq; exact Or.inl (hl.imp_left Waiting.mem_of_mem_remove)
  | emptied heq => subst heq; exact Or.inl (hl.imp_left fun h => (by cases h))
  | written _ _ hcap _ heq =>
    subst heq
    exact Or.inr (by rw [(ready_of_capacity hcap).1]; decide)
  | @activated x _ _ hev heq | @activatedH3 x _ _ _ _ hev heq =>
    subst heq
    rcases hev with ⟨hev, _⟩ | hsub
    · exact absurd (hev ▸ List.mem_cons_self) (hok.late x c)
    · exact Or.inr (by rw [hsub.ready]; decide)
  | taken | takenH1 | takenStray | dropped | streamTaken | streamDropped =>
    subst_vars
    exact Or.inl (hl.imp_right List.mem_of_mem_erase)
  | failed _ _ _ heq => subst heq; exact absurd hl (by simp [PoolConn.links])
  | _ => subst_vars; exact Or.inl hl

/-- A connection is closed when no unanswered request is on it. -/
theorem Change.closes {pc' : PoolConn} (h : Change cfg w o c pc') (hok : NoStranding o) (hk : Kept w) (hb : Books w)
    (hl : Laid l w) (hlive : (w.2.conn c).state ≠ .closing) (hc : pc'.state = .closing) (hr : pc'.links r) :
    (w.2.reqs r).unanswered = false := by
  cases h with
  | quiet h => exact absurd (h.state ▸ hc) hlive
  | failed _ _ _ heq => subst heq; exact absurd hr (by simp [PoolConn.links])
  | closed hwhy heq =>
    subst heq
    have hempty : (w.2.conn c).inflight = 0 → (w.2.conn c).active = [] := fun h0 =>
      List.eq_nil_of_length_eq_zero ((hb.inflight c hlive).symm.trans h0)
    rcases hwhy with ⟨hdrained, hwhy⟩ | ⟨hev, h0⟩
    · -- the waiting list has been taken over, and nothing is active
      have hactive : (w.2.conn c).active = [] := hwhy.elim hempty fun h => (hl.young c h).1
      rcases hr with hr | hr
      · rw [show (w.2.conn c).waiting.nodes = [] from hk.drained c hdrained] at hr
        cases hr
      · rw [show (w.2.conn c).active = [] from hactive] at hr
        cases hr
    · rcases hr with hr | hr
      · by_contra hun
        have hstrands : w.2.strands c = true :=
          List.any_eq_true.mpr ⟨r, hr, Bool.eq_true_of_not_eq_false hun⟩
        rw [hstrands] at hev
        exact hok.idle c (hev ▸ List.mem_cons_self)
      · rw [show (w.2.conn c).active = [] from hempty h0] at hr
        cases hr
  | born _ _ heq | readied _ _ _ _ _ heq => subst heq; cases hc
  | _ => subst_vars; exact absurd hc hlive

theorem Kept.closing_step (hk : Kept w) (hb : Base w) (hbk : Books w) (hl : Laid l w) (h : Turn cfg w o w')
    (hok : NoStranding o) (hc : (w'.2.conn c).state = .closing) (hr : (w'.2.conn c).links r) :
    (w'.2.reqs r).unanswered = false := by
  have hold : (w.2.conn c).links r := (h.change.links hok hr).resolve_right (fun hne => hne hc)
  have hlt : r < w.2.nreq := hb.lists c r (hold.imp_right Or.inl)
  apply h.answered_stays hlt
  by_cases hcl : (w.2.conn c).state = .closing
  · exact hk.closing c r hcl hold
  · exact h.change.closes hok hk hbk hl hcl hc hr

/-! ## Requests -/

theorem Turn.dispatched (h : Turn cfg w o w') (hr : r < w'.2.nreq) : r < w.2.nreq ∨ .dispatched r ∈ o := by
  cases h with
  | act h =>
    cases h
    case move h =>
        cases h
        case dispatch H s proto method url deadline hok =>
            rcases Nat.lt_succ_iff_lt_or_eq.mp hr with hr | rfl
            · exact Or.inl hr
            · exact Or.inr List.mem_cons_self
        all_goals exact Or.inl hr
    all_goals exact Or.inl hr
  | _ => exact Or.inl hr

theorem Hop.not_settled {s : Pool} {p' : Place} (h : Hop s r p p') (hwf : ∀ c, (s.conn c).waiting.Wf) :
    p'.settled = false := by
  cases h with
  | lose c hbad hp => exact absurd (hwf c) hbad
  | _ => rfl

theorem SameFlags.unanswered {q q' : PoolReq} (h : SameFlags q q') : q'.unanswered = q.unanswered := by
  unfold PoolReq.unanswered
  rw [h.responded, h.legacy]

/-- **A request that is gone has been answered.** -/
theorem Kept.placed_step (hk : Kept w) (hb : Base w) (hbk : Books w) (hl : Laid l w) (h : Turn cfg w o w')
    (hok : NoStranding o) :
    ∃ p, Placed r w' p ∧ (p.settled = true → r < w'.2.nreq → (w'.2.reqs r).unanswered = false) := by
  obtain ⟨p, hp, hset⟩ := hk.placed r
  obtain ⟨p', hp', hfate⟩ := h.fate hb hp (hok.stray r)
    (fun _ hrecv _ hmem => hl.active_of_mem (hl.intact (Or.inr hrecv)) hmem)
  refine ⟨p', hp', ?_⟩
  cases hfate with
  | stay ho hq =>
    intro hs hr
    rw [hq.unanswered]
    exact hset hs ((h.dispatched hr).resolve_right fun hd => ho _ hd rfl)
  | hop hhop ho hq =>
    intro hs
    rw [hhop.not_settled hbk.wf] at hs
    cases hs
  | fail | born | refuse | retry => exact fun hs => (by cases hs)
  | write hp hsent hq =>
    intro hs
    rcases hsent with rfl | rfl <;> cases hs
  | answer hopen hresp hq | expire hheld hlt harmed hopen hresp hq =>
    exact fun _ _ => PoolReq.unanswered_of (Or.inl hresp)
  | legacy hleg hq => exact fun _ _ => PoolReq.unanswered_of (Or.inr hleg)
  | release hh hrel harmed hresp hleg =>
    intro _ _
    rcases hh with rfl | ⟨got, rfl, hdone⟩
    · have hlt : r < w.2.nreq := by
        have hh := hp.mem_hand
        exact hh.2 ▸ (hb.hand _ hh.1).req_lt
      have hun := hset rfl hlt
      unfold PoolReq.unanswered at hun ⊢
      rwa [hresp, hleg]
    · exact PoolReq.unanswered_of (Or.inl (hresp.trans hdone))
  | drop hheld hin hout hresp ho hq =>
    exact fun _ _ => PoolReq.unanswered_of (Or.inl (hq.responded.trans hresp))

theorem Turn.kept (h : Turn cfg w o w') (hb : Base w) (hbk : Books w) (hl : Laid l w) (hk : Kept w)
    (hok : NoStranding o) : Kept w' where
  drained := fun _ hc => hk.drained_step h hok hc
  closing := fun _ _ hc hr => hk.closing_step hb hbk hl h hok hc hr
  placed := fun _ => hk.placed_step hb hbk hl h hok

/-! ## Every run -/

theorem Turns.kept (h : Turns cfg ([], .empty) l w) (hok : NoStranding l) : Listed w ∧ Kept w := by
  have hI := Turns.invariant NoStranding (I := fun l w => (Routed w ∧ Laid l w ∧ Books w) ∧ Listed w ∧ Kept w) ?_ ?_ h
    .empty [] ⟨⟨.empty, .empty, .empty⟩, .empty, .empty⟩ hok
  · exact hI.2
  · exact fun l l' h => h.left
  · rintro l w o w' hb ⟨⟨hi, hl, hbk⟩, hli, hk⟩ hm hok
    exact ⟨⟨hm.routed hb hi, hm.laid hb hi hl, hm.books hb hi hl hbk hok.stray⟩, hm.listed hli,
      hm.kept hb hbk hl hk hok.right⟩

/-- **No request is stranded**: in every state of every run that meets `NoStranding`, a request that nobody has
    answered is linked once, on the lists of the open connection in `conns[]` that its `pc` points at. -/
theorem pool_strands_nothing {w : PoolRun} (h : PoolReach cfg w) (hok : NoStranding w.log) :
    ∀ r, r < w.pool.nreq → (w.pool.reqs r).unanswered = true →
      ∃ c, c ∈ w.pool.conns ∧ (w.pool.conn c).state ≠ .closing ∧ (w.pool.reqs r).pc = some c ∧
        ∀ x, (w.pool.conn x).waiting.nodes.count r + (w.pool.conn x).active.count r = if x = c then 1 else 0 := by
  intro r hr hun
  obtain ⟨ht, -⟩ := h.turns
  obtain ⟨hli, hk⟩ := Turns.kept ht hok
  have hb := Turns.base ht .empty
  obtain ⟨p, hp, hset⟩ := hk.placed r
  have hlive : ∀ c, (w.pool.conn c).links r → c ∈ w.pool.conns ∧ (w.pool.conn c).state ≠ .closing := by
    intro c hlinks
    have hne : (w.pool.conn c).state ≠ .closing := by
      intro hcl
      rw [hk.closing c r hcl hlinks] at hun
      cases hun
    exact ⟨hli c (hb.lt_of_refers (hlinks.imp_right Or.inl)) hne, hne⟩
  have hcount : ∀ x, (w.pool.conn x).waiting.nodes.count r + (w.pool.conn x).active.count r = p.waits x + p.acts x :=
    fun x => congrArg₂ (· + ·) (hp.waits x) (hp.acts x)
  cases p with
  | nowhere =>
    rw [hset rfl hr] at hun
    cases hun
  | hand h => cases hp.mem_hand.1
  | waiting c =>
    obtain ⟨hin, hne⟩ := hlive c (Or.inl hp.mem_waiting)
    exact ⟨c, hin, hne, hp.pc c rfl, hcount⟩
  | active c =>
    obtain ⟨hin, hne⟩ := hlive c (Or.inr hp.mem_active)
    exact ⟨c, hin, hne, hp.pc c rfl, fun x => (hcount x).trans (Nat.zero_add _)⟩

end

/-- One request is active on an HTTP/1.1 connection, and another one waits for it. -/
def queueRun : List PoolTurn :=
  [⟨.call (.dispatch .h1 .get (lit "https://a/") false), 5, [.connect none]⟩,
   ⟨.h1Ready 0 (.ok []), 5, [.h1Alloc true]⟩,
   ⟨.call (.dispatch .h1 .get (lit "https://a/b") false), 5, []⟩]

theorem pool_strands_nothing_queued :
    ∃ w, PoolReach plainCfg w ∧ (w.pool.conn 0).waiting.nodes = [1] ∧ (w.pool.reqs 1).unanswered = true ∧
      ∃ c, c ∈ w.pool.conns ∧ (w.pool.conn c).state ≠ .closing ∧ (w.pool.reqs 1).pc = some c ∧
        ∀ x, (w.pool.conn x).waiting.nodes.count 1 + (w.pool.conn x).active.count 1 = if x = c then 1 else 0 := by
  have hrun : (poolPlay plainCfg queueRun).map (fun w => (w.pool.nreq, (w.pool.conn 0).waiting.nodes,
      (w.pool.reqs 1).unanswered, w.log)) = some (2, [1], true,
        [.dispatched 0, .opened 0 0, .write 0 0, .dispatched 1]) := by decide +kernel
  obtain ⟨w, hplay, hw⟩ := Option.map_eq_some_iff.mp hrun
  simp only [Prod.mk.injEq] at hw
  obtain ⟨hn, hnodes, hun, hlog⟩ := hw
  have hreach := PoolReach.of_play hplay
  have hok : NoStranding w.log := by
    rw [hlog]
    exact ⟨fun r => by simp, fun r c => by simp, fun r c => by simp, fun r c => by simp, fun c => by simp⟩
  exact ⟨w, hreach, hnodes, hun, pool_strands_nothing hreach hok 1 (by rw [hn]; decide) hun⟩

/-- The proxy is switched while a request waits for the handshake. -/
def evictWaitingRun : List PoolTurn :=
  [⟨.call (.dispatch .h2 .get (lit "https://a/") false), 5, [.connect none]⟩,
   ⟨.call .evictAll, 5, []⟩]

theorem evicted_while_waiting :
    ∃ w, PoolReach plainCfg w ∧ 0 < w.pool.nreq ∧ (w.pool.reqs 0).unanswered = true ∧
      (w.pool.reqs 0).pc = some 0 ∧ 0 ∈ (w.pool.conn 0).waiting.nodes ∧ (w.pool.conn 0).state = .closing := by
  have hrun : (poolPlay plainCfg evictWaitingRun).map (fun w => (w.pool.nreq, (w.pool.reqs 0).unanswered,
      (w.pool.reqs 0).pc, (w.pool.conn 0).waiting.nodes, (w.pool.conn 0).state)) =
      some (1, true, some 0, [0], .closing) := by decide +kernel
  obtain ⟨w, hplay, hw⟩ := Option.map_eq_some_iff.mp hrun
  simp only [Prod.mk.injEq] at hw
  obtain ⟨hn, hun, hpc, hnodes, hstate⟩ := hw
  exact ⟨w, PoolReach.of_play hplay, by rw [hn]; decide, hun, hpc, by rw [hnodes]; decide, hstate⟩

end HolyTls

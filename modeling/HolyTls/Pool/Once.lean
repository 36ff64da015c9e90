import HolyTls.Pool.Table

/-!
# `Pool.Once` — a request is finished once

The user hears of a request through its callback, or through the per-request path that it is handed to;
`pool_req_done` releases it. `Finish` says how often either has happened, by the flags of the request, and
where a released request is: nowhere.

Two behaviours of the source stand apart. A connection that fails while the deadline of one of its requests
is being handled releases that request, and the handler releases it once more; and `pool_conn_fail_all`
leaves the entries of `streams[]` in place.
-/

namespace HolyTls

/-- The user hears of the request. -/
def PoolEvent.tells (r : ReqId) : PoolEvent → Bool
  | callback x _ => x == r
  | legacy x => x == r
  | _ => false

/-- What has been shown of the request, and what follows for its place. -/
structure Finish (r : ReqId) (l : List PoolEvent) (w : PoolWorld) (p : Place) : Prop where
  placed : Placed r w p
  told : l.countP (·.tells r) = (w.2.reqs r).responded.toNat + (w.2.reqs r).legacy.toNat
  freed : l.count (.released r) = (w.2.reqs r).released.toNat
  single : (w.2.reqs r).responded = true → (w.2.reqs r).legacy = false
  gone : (w.2.reqs r).released = true → p = .nowhere ∧ (w.2.reqs r).timerArmed = false
  kept : p = .nowhere → (w.2.reqs r).released = false → (w.2.reqs r).legacy = false
  off : ∀ got, p = .hand (.off r got) → (w.2.reqs r).responded = false
  late : (∃ h ∈ own r w.1, h.expires = true) → p.held = [] ∧ (w.2.reqs r).released = false
  unborn : w.2.nreq ≤ r → (w.2.reqs r).responded = false ∧ (w.2.reqs r).legacy = false ∧
    (w.2.reqs r).released = false

section

variable {cfg : PoolCfg} {w w' : PoolWorld} {o l : List PoolEvent} {r : ReqId} {c : ConnId} {p p' : Place}

theorem Finish.empty : Finish r [] ([], Pool.empty) .nowhere where
  placed := .empty r
  told := rfl
  freed := rfl
  single := fun h => (by cases h)
  gone := fun h => (by cases h)
  kept := fun _ _ => rfl
  off := fun _ h => (by cases h)
  late := fun ⟨_, h, _⟩ => (by cases h)
  unborn := fun _ => ⟨rfl, rfl, rfl⟩

/-! ## Deadlines in hand -/

/-- A deadline comes into hand when it passes, and leaves it when its handler is done with the lists. -/
theorem Turn.expiring (h : Turn cfg w o w') :
    w'.1.filter (·.expires) = w.1.filter (·.expires) ∨ Calm w'.1 ∨
      (∃ r c, w.1 = [.expiring r (some c)] ∧ w'.1 = [.cancelling r c]) ∨
      ∃ r pc, w.1 = [] ∧ (w.2.reqs r).timerArmed = true ∧ w'.1 = [.expiring r pc] := by
  cases h with
  | setInRecv _ _ _ | h1Ignore _ _ _ | h1Feed _ _ _ _ _ | h1Closed _ _ | h1Eof _ _ _ _ => exact Or.inl rfl
  | act h =>
    cases h
    case move h =>
        left
        cases h
        case failAll => simp [List.filter_map, Function.comp_def, Held.expires]
        case rehome => simp [List.filter_map, Function.comp_def, Held.expires]
        all_goals rfl
    case fallback => left; simp [List.filter_map, Function.comp_def, Held.expires]
    case expire s x hlt harmed hresp => exact Or.inr (Or.inr (Or.inr ⟨x, _, rfl, harmed, rfl⟩))
    case cancel s x y hact => exact Or.inr (Or.inr (Or.inl ⟨x, y, rfl, rfl⟩))
    case dropActive | dropStream | dropWaiting | dropNone =>
        right; left
        intro h hh
        rw [List.mem_singleton.mp hh]
        rfl
    all_goals exact Or.inl rfl

theorem Turn.late (h : Turn cfg w o w') (hlate : ∃ h ∈ own r w'.1, h.expires = true) :
    (∃ h ∈ own r w.1, h.expires = true) ∨ w.1 = [] ∧ (w.2.reqs r).timerArmed = true := by
  obtain ⟨x, hx, he⟩ := hlate
  obtain ⟨hmem, hreq⟩ := mem_own hx
  rcases h.expiring with heq | hcalm | ⟨y, c, hw, hw'⟩ | ⟨y, pc, hw, harmed, hw'⟩
  · have hin : x ∈ w.1.filter (·.expires) := heq ▸ List.mem_filter.mpr ⟨hmem, he⟩
    exact Or.inl ⟨x, mem_own_of hreq (List.mem_filter.mp hin).1, he⟩
  · rw [hcalm x hmem] at he
    cases he
  · rw [hw', List.mem_singleton] at hmem
    subst hmem
    refine Or.inl ⟨.expiring y (some c), mem_own_of hreq ?_, rfl⟩
    rw [hw]
    exact List.mem_cons_self
  · rw [hw', List.mem_singleton] at hmem
    subst hmem
    cases hreq
    exact Or.inr ⟨hw, harmed⟩

/-- While a deadline is handled, the request is not in hand otherwise, unless it is answered. -/
theorem Placed.held_of_late (hp : Placed r w p) (hlate : ∃ h ∈ own r w.1, h.expires = true)
    (hoff : ∀ got, p = .hand (.off r got) → (w.2.reqs r).responded = false) (hans : p ≠ .hand (.answered r)) :
    p.held = [] := by
  obtain ⟨x, hx, he⟩ := hlate
  have hresp := (hp.late x hx he).1
  have hbusy : p.busy = false := by
    by_contra hb
    rw [hp.busy (Bool.eq_true_of_not_eq_false hb)] at hresp
    cases hresp
  cases p with
  | hand h =>
    have hin : h ∈ (own r w.1).filter (fun h => !h.expires) := by
      rw [hp.hand]
      exact List.mem_singleton_self h
    have hne := (List.mem_filter.mp hin).2
    have hreq := hp.mem_hand.2
    cases h with
    | off y got =>
      cases hreq
      rw [hoff got rfl] at hresp
      cases hresp
    | answered y =>
      cases hreq
      exact absurd rfl hans
    | expiring y pc | cancelling y c => cases hne
    | _ => cases hbusy
  | _ => rfl

theorem Finish.late_before (hf : Finish r l w p) (h : Turn cfg w o w')
    (hlate : ∃ h ∈ own r w'.1, h.expires = true) : p.held = [] ∧ (w.2.reqs r).released = false := by
  rcases h.late hlate with hlate | ⟨hw, harmed⟩
  · exact hf.late hlate
  · constructor
    · rw [← hf.placed.hand, hw]
      rfl
    · by_contra hrel
      rw [(hf.gone (Bool.eq_true_of_not_eq_false hrel)).2] at harmed
      cases harmed

/-! ## One step -/

theorem not_tells_of_silent (ho : Silent r o) : o.countP (·.tells r) = 0 ∧ o.count (.released r) = 0 := by
  constructor
  · refine List.countP_eq_zero.mpr fun e he htells => ho e he ?_
    cases e <;> simp_all [PoolEvent.tells, PoolEvent.req?]
  · exact List.count_eq_zero.mpr fun he => ho _ he rfl

/-- The user hears nothing and nothing is released. -/
theorem Finish.quiet (hf : Finish r l w p) (h : Turn cfg w o w') (hp' : Placed r w' p')
    (ho : o.countP (·.tells r) = 0 ∧ o.count (.released r) = 0) (hq : SameFlags (w.2.reqs r) (w'.2.reqs r))
    (hrel : (w.2.reqs r).released = true → p' = .nowhere) (hkept : p' = .nowhere → p = .nowhere ∨ p.settled = false)
    (hoff : ∀ got, p' = .hand (.off r got) → (w.2.reqs r).responded = false)
    (hans : p' = .hand (.answered r) → p = .hand (.answered r) ∨ Calm w'.1) : Finish r (l ++ o) w' p' where
  placed := hp'
  told := by rw [List.countP_append, ho.1, hf.told, hq.responded, hq.legacy, Nat.add_zero]
  freed := by rw [List.count_append, ho.2, hf.freed, hq.released, Nat.add_zero]
  single := by
    rw [hq.responded, hq.legacy]
    exact hf.single
  gone := by
    rw [hq.released]
    intro h
    refine ⟨hrel h, Bool.eq_false_iff.mpr fun harmed => ?_⟩
    have hno := (hf.gone h).2
    rw [hq.armed harmed] at hno
    cases hno
  kept := by
    rw [hq.released, hq.legacy]
    intro hnow hrel
    rcases hkept hnow with hp | hset
    · exact hf.kept hp hrel
    · exact hf.placed.legacy hset
  off := by
    rw [hq.responded]
    exact hoff
  late := by
    intro hlate
    obtain ⟨hheld, hrel⟩ := hf.late_before h hlate
    refine ⟨hp'.held_of_late hlate (by rw [hq.responded]; exact hoff) fun hp => ?_, hq.released.trans hrel⟩
    rcases hans hp with hp | hcalm
    · rw [hp] at hheld
      cases hheld
    · exact hcalm.own hlate
  unborn := by
    intro hr
    rw [hq.responded, hq.legacy, hq.released]
    exact hf.unborn (h.lasts.nreq.trans hr)

theorem Hop.not_nowhere {s : Pool} (h : Hop s r p p') : p ≠ .nowhere ∧ p.settled = false := by
  cases h with
  | lose c hbad hp => rcases hp with rfl | rfl | rfl <;> exact ⟨by simp, rfl⟩
  | _ => exact ⟨by simp, rfl⟩

/-- A request is taken off before the user has heard of it. -/
theorem Hop.open_of_off {s : Pool} {got : Option Response} (h : Hop s r p (.hand (.off r got)))
    (hbusy : p.busy = true → (s.reqs r).responded = false) : (s.reqs r).responded = false := by
  cases h with
  | giveUp | withdraw | abandon => exact hbusy rfl
  | take _ hopen | detach hopen => exact hopen

theorem Hop.not_answered {s : Pool} (h : Hop s r p p') : p' ≠ .hand (.answered r) := by
  cases h <;> simp

/-- A request in hand is not released, and is not waiting for its birth. -/
theorem Finish.held (hf : Finish r l w p) (hb : Base w) (hp : p ≠ .nowhere) :
    (w.2.reqs r).released = false ∧ r < w.2.nreq := by
  constructor
  · by_contra hrel
    exact hp (hf.gone (Bool.eq_true_of_not_eq_false hrel)).1
  · by_contra hr
    exact hp (hf.placed.unborn (H := w.1) hb (Nat.le_of_not_lt hr))

/-- **The user hears of a request once, and it is released once.** -/
theorem Turn.finish (h : Turn cfg w o w') (hb : Base w) (hl : Laid l w) (hf : Finish r l w p)
    (hstray : .strayClose r ∉ o) (hans : ∀ c t, .failed c t true ∉ o) : ∃ p', Finish r (l ++ o) w' p' := by
  obtain ⟨p', hp', hfate⟩ := h.fate hb hf.placed hstray
    (fun _ hrecv _ hmem => hl.active_of_mem (hl.intact (Or.inr hrecv)) hmem)
  refine ⟨p', ?_⟩
  cases hfate with
  | stay ho hq =>
    exact hf.quiet h hp' (not_tells_of_silent ho) hq (fun hrel => (hf.gone hrel).1) Or.inl hf.off Or.inl
  | hop hhop ho hq =>
    obtain ⟨hne, hset⟩ := hhop.not_nowhere
    refine hf.quiet h hp' (not_tells_of_silent ho) hq (fun hrel => absurd (hf.gone hrel).1 hne)
      (fun _ => Or.inr hset) ?_ (fun hp => absurd hp hhop.not_answered)
    rintro got rfl
    exact hhop.open_of_off hf.placed.busy
  | fail tabled answered hlist hresp hq =>
    have hne : p ≠ .nowhere := by rcases hlist with rfl | rfl <;> simp
    refine hf.quiet h hp' ⟨rfl, rfl⟩ hq (fun hrel => absurd (hf.gone hrel).1 hne) (fun hp => by cases hp) ?_
      (fun hp => by cases hp)
    -- none of the requests of the connection is answered
    intro got _
    by_contra hopen
    have htrue := hresp (Bool.eq_true_of_not_eq_false hopen)
    subst htrue
    exact hans _ _ List.mem_cons_self
  | born hr hresp hleg hrel =>
    obtain ⟨hresp₀, hleg₀, hrel₀⟩ := hf.unborn hr.ge
    have htold := hf.told
    have hfreed := hf.freed
    rw [hresp₀, hleg₀] at htold
    rw [hrel₀] at hfreed
    refine ⟨hp', ?_, ?_, fun _ => hleg, ?_, fun hp => (by cases hp), fun _ hp => (by cases hp), ?_,
      fun _ => ⟨hresp, hleg, hrel⟩⟩
    · rw [List.countP_append, htold, hresp, hleg]
      rfl
    · rw [List.count_append, hfreed, hrel]
      rfl
    · intro h
      rw [hrel] at h
      cases h
    · exact fun hlate => ⟨hp'.held_of_late hlate (fun _ hp => (by cases hp)) (fun hp => (by cases hp)), hrel⟩
  | @write _ _ c hp hsent hq =>
    have hne : p ≠ .nowhere := by rcases hp with rfl | rfl <;> simp
    refine hf.quiet h hp' ⟨rfl, by simp⟩ hq (fun hrel => absurd (hf.gone hrel).1 hne) ?_ ?_ ?_
    · rcases hsent with rfl | rfl <;> exact fun hp => (by cases hp)
    · rcases hsent with rfl | rfl <;> exact fun _ hp => (by cases hp)
    · rcases hsent with rfl | rfl <;> exact fun hp => (by cases hp)
  | @refuse got hq =>
    exact hf.quiet h hp' ⟨rfl, by simp⟩ hq (fun hrel => absurd (hf.gone hrel).1 (by simp)) (fun hp => (by cases hp))
      hf.off Or.inl
  | @retry got p hopen hq =>
    exact hf.quiet h hp' ⟨rfl, by simp⟩ hq (fun hrel => absurd (hf.gone hrel).1 (by simp)) (fun hp => (by cases hp))
      (fun _ _ => hopen) (fun hp => (by cases hp))
  | @answer got resp hopen hresp hq =>
    obtain ⟨hrel, hlt⟩ := hf.held hb (by simp)
    have hleg : (w'.2.reqs r).legacy = false := hq.legacy.trans (hf.placed.legacy rfl)
    have hrel' : (w'.2.reqs r).released = false := hq.released.trans hrel
    refine ⟨hp', ?_, ?_, fun _ => hleg, ?_, fun hp => (by cases hp), fun _ hp => (by cases hp), ?_,
      h.not_unborn hlt⟩
    · rw [List.countP_append, hf.told, hopen, hf.placed.legacy rfl, hresp, hleg]
      simp [PoolEvent.tells]
    · rw [List.count_append, hf.freed, hrel, hrel']
      simp
    · intro h
      rw [hrel'] at h
      cases h
    · intro hlate
      cases (hf.late_before h hlate).1
  | @legacy got hleg hq =>
    obtain ⟨hrel, hlt⟩ := hf.held hb (by simp)
    have hresp : (w'.2.reqs r).responded = false := hq.responded.trans (hf.off got rfl)
    have hrel' : (w'.2.reqs r).released = false := hq.released.trans hrel
    refine ⟨hp', ?_, ?_, fun h => ?_, ?_, fun hp => (by cases hp), fun _ hp => (by cases hp), ?_,
      h.not_unborn hlt⟩
    · rw [List.countP_append, hf.told, hf.off got rfl, hf.placed.legacy rfl, hresp, hleg]
      simp [PoolEvent.tells]
    · rw [List.count_append, hf.freed, hrel, hrel']
      simp
    · rw [hresp] at h
      cases h
    · intro h
      rw [hrel'] at h
      cases h
    · intro hlate
      cases (hf.late_before h hlate).1
  | @release h₀ hh hrel harmed hresp hleg =>
    obtain ⟨hrel₀, hlt⟩ := hf.held hb (by simp)
    refine ⟨hp', ?_, ?_, ?_, fun _ => ⟨rfl, harmed⟩, ?_, fun _ hp => (by cases hp), ?_, h.not_unborn hlt⟩
    · rw [List.countP_append, hf.told, hresp, hleg]
      simp [PoolEvent.tells]
    · rw [List.count_append, hf.freed, hrel₀, hrel]
      simp
    · rw [hresp, hleg]
      exact hf.single
    · intro _ h
      rw [hrel] at h
      cases h
    · intro hlate
      cases (hf.late_before h hlate).1
  | @expire _ resp hheld hlt harmed hopen hresp hq =>
    have hrel : (w.2.reqs r).released = false := by
      by_contra hrel
      rw [(hf.gone (Bool.eq_true_of_not_eq_false hrel)).2] at harmed
      cases harmed
    have hleg₀ : (w.2.reqs r).legacy = false := by
      cases p with
      | nowhere => exact hf.kept rfl hrel
      | hand h => cases hheld
      | waiting c | active c => exact hf.placed.legacy rfl
    have hleg : (w'.2.reqs r).legacy = false := hq.legacy.trans hleg₀
    have hrel' : (w'.2.reqs r).released = false := hq.released.trans hrel
    refine ⟨hp', ?_, ?_, fun _ => hleg, ?_, fun _ _ => hleg, ?_, fun _ => ⟨hheld, hrel'⟩, h.not_unborn hlt⟩
    · rw [List.countP_append, hf.told, hopen, hleg₀, hresp, hleg]
      simp [PoolEvent.tells]
    · rw [List.count_append, hf.freed, hrel, hrel']
      simp
    · intro h
      rw [hrel'] at h
      cases h
    · rintro got rfl
      cases hheld
  | drop hheld hin hout hresp ho hq =>
    have hrel := (hf.late hin).2
    refine hf.quiet h hp' (not_tells_of_silent ho) hq ?_ (fun hp => (by cases hp)) (fun _ hp => (by cases hp))
      (fun _ => Or.inr hout)
    intro h
    rw [hrel] at h
    cases h

/-- No stream of the request closes astray, and no connection fails while one of its requests is answered
    already, which it is when its deadline is being handled. -/
def NoLateFail (r : ReqId) (l : List PoolEvent) : Prop := .strayClose r ∉ l ∧ ∀ c t, .failed c t true ∉ l

theorem Turns.finish (h : Turns cfg ([], .empty) l w) (hok : NoLateFail r l) :
    Laid l w ∧ ∃ p, Finish r l w p := by
  refine (Turns.invariant (NoLateFail r) (I := fun l w => Routed w ∧ Laid l w ∧ ∃ p, Finish r l w p) ?_ ?_ h .empty []
    ⟨.empty, .empty, .nowhere, .empty⟩ hok).2
  · rintro l l' ⟨hstray, hans⟩
    exact ⟨fun h => hstray (List.mem_append_left l' h), fun c t h => hans c t (List.mem_append_left l' h)⟩
  · rintro l w o w' hb ⟨hi, hl, p, hf⟩ hm ⟨hstray, hans⟩
    exact ⟨hm.routed hb hi, hm.laid hb hi hl, hm.finish hb hl hf (fun h => hstray (List.mem_append_right l h))
      (fun c t h => hans c t (List.mem_append_right l h))⟩

/-- **A request is finished once**: in every run that meets `NoLateFail` the user hears of it at most once, it
    is released at most once, and then it is on no list. It is in no table either, except of a connection
    that failed with entries in its table. -/
theorem pool_finishes_once {w : PoolRun} (h : PoolReach cfg w) (hok : NoLateFail r w.log) :
    w.log.countP (·.tells r) ≤ 1 ∧ w.log.count (.released r) ≤ 1 ∧
      (.released r ∈ w.log → ∀ c, r ∉ (w.pool.conn c).waiting.nodes ∧ r ∉ (w.pool.conn c).active ∧
        ((∀ a, .failed c true a ∉ w.log) → r ∉ (w.pool.conn c).streams)) := by
  obtain ⟨hl, p, hf⟩ := Turns.finish h.turns.1 hok
  refine ⟨?_, ?_, ?_⟩
  · rw [hf.told]
    cases hresp : (w.pool.reqs r).responded with
    | false => exact (Nat.zero_add _).trans_le (Bool.toNat_le _)
    | true => rw [hf.single hresp]; exact le_rfl
  · rw [hf.freed]
    exact Bool.toNat_le _
  · intro hmem c
    have hrel : (w.pool.reqs r).released = true := by
      by_contra hno
      have hcount := hf.freed
      rw [Bool.eq_false_of_not_eq_true hno] at hcount
      exact List.count_eq_zero.mp hcount hmem
    obtain ⟨rfl, _⟩ := hf.gone hrel
    have hact : r ∉ (w.pool.conn c).active := fun h => (by cases hf.placed.at_active h)
    exact ⟨fun h => (by cases hf.placed.at_waiting h), hact, fun hint h => hact (hl.active_of_mem hint h)⟩

end

/-- The deadline of an active HTTP/3 request passes, and the user asks for another one from the callback. -/
def deadlineRun : List PoolTurn :=
  [⟨.call (.dispatch .h3 .get (lit "https://a/") true), 5, [.connect none]⟩,
   ⟨.quicRecv 0 [.ready (lit "h3") true] none none, 5, [.h3Submit {}]⟩,
   ⟨.timeout 0, 5, [.calls [.dispatch .h3 .get (lit "https://a/b") false], .h3Submit {}, .quicReset none]⟩]

theorem pool_finishes_once_deadline :
    ∃ w, PoolReach plainCfg w ∧ .released 0 ∈ w.log ∧ (w.pool.conn 0).streams = [1] ∧
      w.log.countP (·.tells 0) ≤ 1 ∧ w.log.count (.released 0) ≤ 1 ∧ 0 ∉ (w.pool.conn 0).streams := by
  have hrun : (poolPlay plainCfg deadlineRun).map (fun w => (w.log, (w.pool.conn 0).streams)) =
      some ([.dispatched 0, .opened 0 0, .write 0 0, .callback 0 { ok := false, error := lit "timeout" },
        .dispatched 1, .write 1 0, .released 0], [1]) := by decide +kernel
  obtain ⟨w, hplay, hw⟩ := Option.map_eq_some_iff.mp hrun
  simp only [Prod.mk.injEq] at hw
  obtain ⟨hlog, hstreams⟩ := hw
  have hreach := PoolReach.of_play hplay
  have hok : NoLateFail 0 w.log := by
    rw [hlog]
    exact ⟨by decide, by simp⟩
  have hmem : PoolEvent.released 0 ∈ w.log := by
    rw [hlog]
    decide
  obtain ⟨htold, hfreed, hgone⟩ := pool_finishes_once hreach hok
  exact ⟨w, hreach, hmem, hstreams, htold, hfreed, (hgone hmem 0).2.2 (by rw [hlog]; simp)⟩

/-- The reset of the stream fails the connection while the deadline is being handled. -/
def lateFailRun : List PoolTurn :=
  [⟨.call (.dispatch .h3 .get (lit "https://a/") true), 5, [.connect none]⟩,
   ⟨.quicRecv 0 [.ready (lit "h3") true] none none, 5, [.h3Submit {}]⟩,
   ⟨.timeout 0, 5, [.calls [], .quicReset (some (lit "send failed"))]⟩]

theorem released_twice : ∃ w, PoolReach plainCfg w ∧ w.log.count (.released 0) = 2 := by
  have hrun : (poolPlay plainCfg lateFailRun).map (fun w => w.log.count (.released 0)) = some 2 := by
    decide +kernel
  obtain ⟨w, hplay, hw⟩ := Option.map_eq_some_iff.mp hrun
  exact ⟨w, PoolReach.of_play hplay, hw⟩

end HolyTls

import HolyTls.Capi.Async

/-!
# `Capi.AsyncSafe` — the asynchronous C API loses and duplicates nothing

The two halves of the client have an invariant each. `SubmitInv a Q B` reads the submit queue as the list `Q`
and the detached batch as `B`: what was accepted is what was handled, then `B`, then `Q`. `CompletionInv c F`
reads the FIFO as `F`: what was delivered is what was drained, then `F`, and a non-empty FIFO has a wake-up on
its way. Every step of every thread keeps both.
-/

namespace HolyTls

open LinkedQueue

variable {κ ρ : Type}

variable {s : SubmitId}

/-! ## The submit queue -/

/-- `B` is the rest of the batch the loop thread has detached. -/
def LoopPc.Pending (next : SubmitId → Option SubmitId) : LoopPc → List SubmitId → Prop
  | .idle, B => B = []
  | .batch s _, B => Chain next s B

/-- The loop thread has read `stopping` as set. -/
def SubmitSide.SawStop (a : SubmitSide κ) : Prop := a.stopped = true ∨ ∃ s, a.loop = .batch s true

/-- `ids` are copies of thread `t` that are on its local list `sub` and not queued. -/
structure LocalList (next : SubmitId → Option SubmitId) (fresh : SubmitId) (owner : SubmitId → ThreadId)
    (accepted : List SubmitId) (t : ThreadId) (sub : Ends SubmitId) (ids : List SubmitId) : Prop where
  list : Holds next sub ids
  bound : ∀ s ∈ ids, s < fresh
  owner : ∀ s ∈ ids, owner s = t
  apart : ∀ s ∈ ids, s ∉ accepted

abbrev SubmitSide.Local (a : SubmitSide κ) : ThreadId → Ends SubmitId → List SubmitId → Prop :=
  LocalList a.next a.fresh a.owner a.accepted

/-- The submits of the calls of thread `t` that returned 1, in program order. -/
def SubmitSide.submitted (a : SubmitSide κ) (t : ThreadId) : List SubmitId :=
  ((a.results t).filter (·.2)).flatMap (·.1)

structure SubmitInv (a : SubmitSide κ) (Q B : List SubmitId) : Prop where
  queue : Holds a.next a.queue Q
  batch : a.loop.Pending a.next B
  locals : ∀ t sub ids, a.caller t = .copied sub ids → ids ≠ [] ∧ a.Local t sub ids
  accepted : a.accepted = a.handled.map (·.1) ++ B ++ Q
  nodup : a.accepted.Nodup
  bound : ∀ s ∈ a.accepted, s < a.fresh
  order : ∀ t, a.accepted.filter (a.owner · = t) = a.submitted t
  stopping : a.SawStop → a.stopping = true ∧ Q = []
  stopped : a.stopped = true → B = []
  closing : ∀ s told, (s, Outcome.closing told) ∈ a.handled → s ∈ a.atStop
  atStop : ∀ s, a.loop = .batch s true → ∀ x ∈ B, x ∈ a.atStop

section

variable {a : SubmitSide κ} {Q B : List SubmitId} {t : ThreadId} {sub : Ends SubmitId} {ids : List SubmitId}

theorem SubmitInv.init [Inhabited κ] : SubmitInv (asyncInit : AsyncClient κ ρ).sub [] [] where
  queue := Holds.empty
  batch := rfl
  locals := by
    intro t sub ids h
    cases h
  accepted := rfl
  nodup := List.nodup_nil
  bound := by
    intro s hs
    cases hs
  order := fun _ => rfl
  stopping := by
    rintro (h | ⟨s, h⟩) <;> cases h
  stopped := fun _ => rfl
  closing := by
    intro s told h
    cases h
  atStop := by
    intro s h
    cases h

theorem SubmitInv.mem_accepted_of_queue (h : SubmitInv a Q B) (hs : s ∈ Q) : s ∈ a.accepted := by
  rw [h.accepted]
  exact List.mem_append_right _ hs

theorem SubmitInv.mem_accepted_of_batch (h : SubmitInv a Q B) (hs : s ∈ B) : s ∈ a.accepted := by
  rw [h.accepted]
  exact List.mem_append_left _ (List.mem_append_right _ hs)

theorem SubmitInv.batch_apart (h : SubmitInv a Q B) (hs : s ∈ B) : s ∉ Q := by
  have hnodup := h.nodup
  rw [h.accepted] at hnodup
  intro hq
  exact (List.nodup_append.mp hnodup).2.2 s (List.mem_append_right _ hs) s hq rfl

/-- A change of the `next` pointers that spares the batch keeps it. -/
theorem LoopPc.Pending.of_eq_on {next next' : SubmitId → Option SubmitId} {l : LoopPc}
    (h : l.Pending next B) (heq : ∀ s ∈ B, next' s = next s) : l.Pending next' B := by
  cases l with
  | idle => exact h
  | batch s stopping => exact Chain.of_eq_on h heq

theorem LocalList.disjoint (h : a.Local t sub ids) {t' : ThreadId} {sub' : Ends SubmitId}
    {ids' : List SubmitId} (h' : a.Local t' sub' ids') (ht : t' ≠ t) (hs : s ∈ ids') : s ∉ ids := by
  intro hmem
  exact ht ((h'.owner s hs).symm.trans (h.owner s hmem))

/-- A thread with copies in its hands is not one that has just moved on without. -/
theorem copied_of_update {caller : ThreadId → CallerPc} {pc : CallerPc} {t' : ThreadId}
    (hpc : ∀ sub ids, pc ≠ .copied sub ids) (h : Function.update caller t pc t' = .copied sub ids) :
    t' ≠ t ∧ caller t' = .copied sub ids := by
  have ht : t' ≠ t := by
    rintro rfl
    rw [Function.update_self] at h
    exact hpc _ _ h
  rw [Function.update_of_ne ht] at h
  exact ⟨ht, h⟩

/-! ### A call up to its lock -/

/-- One copy: the queue, the batch and the local lists of other threads are untouched. -/
theorem SubmitInv.copy (h : SubmitInv a Q B) (hpc : a.caller t = .idle) (hl : a.Local t sub ids)
    (r : AsyncSubmit κ) :
    SubmitInv (asyncSubmitCopy t (a, sub, ids) r).1 Q B ∧
      (asyncSubmitCopy t (a, sub, ids) r).1.caller t = .idle ∧
      (asyncSubmitCopy t (a, sub, ids) r).1.Local t (asyncSubmitCopy t (a, sub, ids) r).2.1 (ids ++ [a.fresh]) := by
  have hfresh : a.fresh ∉ ids := fun hm => Nat.lt_irrefl _ (hl.bound _ hm)
  -- the two nodes whose pointers change are the new one and the last of the local list
  have hnext : ∀ s, s < a.fresh → s ∉ ids → (push a.next sub a.fresh).1 s = a.next s := fun s hs hm =>
    push_eq_on hl.list hfresh hm (Nat.ne_of_lt hs)
  have howner : ∀ s, s < a.fresh → Function.update a.owner a.fresh t s = a.owner s := fun s hs =>
    Function.update_of_ne (Nat.ne_of_lt hs) _ _
  have haccepted : ∀ s ∈ a.accepted, (push a.next sub a.fresh).1 s = a.next s := fun s hs =>
    hnext s (h.bound s hs) (fun hm => hl.apart s hm hs)
  refine ⟨⟨?_, ?_, ?_, h.accepted, h.nodup, ?_, ?_, h.stopping, h.stopped, h.closing, h.atStop⟩, hpc, ?_⟩
  · exact h.queue.of_eq_on (fun s hs => haccepted s (h.mem_accepted_of_queue hs))
  · exact h.batch.of_eq_on (fun s hs => haccepted s (h.mem_accepted_of_batch hs))
  · intro t' sub' ids' hpc'
    obtain ⟨hne, hl'⟩ := h.locals t' sub' ids' hpc'
    have ht : t' ≠ t := by
      rintro rfl
      rw [show a.caller t' = .copied sub' ids' from hpc'] at hpc
      cases hpc
    refine ⟨hne, ?_, ?_, ?_, hl'.apart⟩
    · exact hl'.list.of_eq_on (fun s hs => hnext s (hl'.bound s hs) (hl.disjoint hl' ht hs))
    · exact fun s hs => Nat.lt_succ_of_lt (hl'.bound s hs)
    · exact fun s hs => (howner s (hl'.bound s hs)).trans (hl'.owner s hs)
  · exact fun s hs => Nat.lt_succ_of_lt (h.bound s hs)
  · intro t'
    refine Eq.trans (List.filter_congr ?_) (h.order t')
    intro s hs
    show decide (Function.update a.owner a.fresh t s = t') = decide (a.owner s = t')
    rw [howner s (h.bound s hs)]
  · refine ⟨hl.list.push hfresh, ?_, ?_, ?_⟩ <;> intro s hs <;>
      rcases List.mem_append.mp hs with hs | hs
    · exact Nat.lt_succ_of_lt (hl.bound s hs)
    · rw [List.mem_singleton.mp hs]
      exact Nat.lt_succ_self _
    · exact (howner s (hl.bound s hs)).trans (hl.owner s hs)
    · rw [List.mem_singleton.mp hs]
      exact Function.update_self _ _ _
    · exact hl.apart s hs
    · rw [List.mem_singleton.mp hs]
      exact fun hm => Nat.lt_irrefl _ (h.bound _ hm)

theorem SubmitInv.copies (h : SubmitInv a Q B) (hpc : a.caller t = .idle) (hl : a.Local t sub ids)
    (reqs : List (AsyncSubmit κ)) :
    let c := reqs.foldl (asyncSubmitCopy t) (a, sub, ids)
    SubmitInv c.1 Q B ∧ c.1.caller t = .idle ∧ c.1.Local t c.2.1 c.2.2 ∧ ids.length + reqs.length = c.2.2.length := by
  induction reqs generalizing a sub ids with
  | nil => exact ⟨h, hpc, hl, rfl⟩
  | cons r reqs ih =>
    obtain ⟨h', hpc', hl'⟩ := h.copy hpc hl r
    obtain ⟨hi, hp, hlo, hlen⟩ := ih h' hpc' hl'
    refine ⟨hi, hp, hlo, Eq.trans ?_ hlen⟩
    simp only [List.length_append, List.length_cons, List.length_nil]
    omega

/-- A thread that returns without having queued anything. -/
theorem SubmitInv.returns (h : SubmitInv a Q B) {ok : Bool} (hids : ok = true → ids = []) :
    SubmitInv (a.returns t ids ok .idle) Q B := by
  refine ⟨h.queue, h.batch, ?_, h.accepted, h.nodup, h.bound, ?_, h.stopping, h.stopped, h.closing, h.atStop⟩
  · intro t' sub' ids' hpc'
    exact h.locals t' sub' ids' (copied_of_update (by simp) hpc').2
  · intro t'
    refine (h.order t').trans ?_
    by_cases ht : t' = t
    · subst ht
      cases ok with
      | false => simp [SubmitSide.submitted, SubmitSide.returns]
      | true =>
        rw [hids rfl]
        simp [SubmitSide.submitted, SubmitSide.returns]
    · simp [SubmitSide.submitted, SubmitSide.returns, ht]

variable {a' : SubmitSide κ}

theorem SubmitInv.submitMany (h : SubmitInv a Q B) {reqs : List (AsyncSubmit κ)} {ok : Bool}
    (hs : asyncSubmitMany a t reqs ok = some a') : SubmitInv a' Q B := by
  unfold asyncSubmitMany at hs
  cases hpc : a.caller t with
  | copied sub ids | sending => rw [hpc] at hs; cases hs
  | idle =>
    rw [hpc] at hs
    dsimp only at hs
    split_ifs at hs with hempty hok
    · cases hs
      exact h.returns (fun _ => rfl)
    · cases hs
      have hlocal : a.Local t {} [] := ⟨Holds.empty, by simp, by simp, by simp⟩
      obtain ⟨hi, hp, hl, hlen⟩ := h.copies hpc hlocal reqs
      refine ⟨hi.queue, hi.batch, ?_, hi.accepted, hi.nodup, hi.bound, hi.order, hi.stopping, hi.stopped,
        hi.closing, hi.atStop⟩
      intro t' sub' ids' hpc'
      dsimp only at hpc'
      by_cases ht : t' = t
      · subst ht
        rw [Function.update_self] at hpc'
        cases hpc'
        refine ⟨?_, hl⟩
        intro hnil
        rw [hnil] at hlen
        apply hempty
        rw [List.isEmpty_iff, ← List.length_eq_zero_iff]
        simpa using hlen
      · rw [Function.update_of_ne ht] at hpc'
        exact hi.locals t' sub' ids' hpc'
    · cases hs
      exact h.returns (by simp)

/-! ### The section under the lock -/

theorem SubmitInv.splice (h : SubmitInv a Q B) (hpc : a.caller t = .copied sub ids) (hstop : a.stopping = false) :
    SubmitInv { (a.returns t ids true .sending) with
      next := (link a.next a.queue sub).1
      queue := (link a.next a.queue sub).2
      accepted := a.accepted ++ ids } (Q ++ ids) B := by
  obtain ⟨hne, hl⟩ := h.locals t sub ids hpc
  have hapart : ∀ s ∈ ids, s ∉ Q := fun s hs hq => hl.apart s hs (h.mem_accepted_of_queue hq)
  -- only the last node of the queue is written
  have hnext : ∀ s, s ∉ Q → (link a.next a.queue sub).1 s = a.next s := fun s hs => link_eq_on h.queue hs
  -- the loop thread has not seen a stop that has not happened
  have hsaw : ¬ a.SawStop := by
    intro hsaw
    rw [(h.stopping hsaw).1] at hstop
    cases hstop
  refine ⟨h.queue.link hl.list hapart hne, ?_, ?_, ?_, ?_, ?_, ?_, ?_, h.stopped, h.closing, h.atStop⟩
  · exact h.batch.of_eq_on (fun s hs => hnext s (h.batch_apart hs))
  · intro t' sub' ids' hpc'
    obtain ⟨ht, hpc'⟩ := copied_of_update (by simp) hpc'
    obtain ⟨hne', hl'⟩ := h.locals t' sub' ids' hpc'
    refine ⟨hne', ?_, hl'.bound, hl'.owner, ?_⟩
    · exact hl'.list.of_eq_on (fun s hs => hnext s (fun hq => hl'.apart s hs (h.mem_accepted_of_queue hq)))
    · intro s hs hm
      rcases List.mem_append.mp hm with hm | hm
      · exact hl'.apart s hs hm
      · exact hl.disjoint hl' ht hs hm
  · show a.accepted ++ ids = _
    rw [h.accepted, List.append_assoc, List.append_assoc, List.append_assoc]
    rfl
  · exact List.nodup_append.mpr ⟨h.nodup, hl.list.nodup, fun x hx y hy hxy => hl.apart y hy (hxy ▸ hx)⟩
  · intro s hs
    rcases List.mem_append.mp hs with hs | hs
    · exact h.bound s hs
    · exact hl.bound s hs
  · intro t'
    show (a.accepted ++ ids).filter (a.owner · = t') = _
    rw [List.filter_append, h.order t']
    by_cases ht : t' = t
    · subst ht
      rw [List.filter_eq_self.mpr (fun s hs => by simpa using hl.owner s hs)]
      simp [SubmitSide.submitted, SubmitSide.returns]
    · rw [List.filter_eq_nil_iff.mpr (fun s hs => by simpa [hl.owner s hs] using Ne.symm ht)]
      simp [SubmitSide.submitted, SubmitSide.returns, ht]
  · exact fun hs => absurd hs hsaw

theorem SubmitInv.submitLocked (h : SubmitInv a Q B) (hs : asyncSubmitLocked a t = some a') :
    ∃ Q', SubmitInv a' Q' B := by
  unfold asyncSubmitLocked at hs
  cases hpc : a.caller t with
  | idle | sending => rw [hpc] at hs; cases hs
  | copied sub ids =>
    rw [hpc] at hs
    dsimp only at hs
    split_ifs at hs with hstop
    · cases hs
      exact ⟨Q, h.returns (by simp)⟩
    · cases hs
      exact ⟨Q ++ ids, h.splice hpc (by simpa using hstop)⟩

/-! ### Stopping and waking the loop -/

/-- A thread moves on, with nothing in its hands. -/
theorem SubmitInv.move (h : SubmitInv a Q B) {pc : CallerPc} (hpc : ∀ sub ids, pc ≠ .copied sub ids)
    (stopping wake : Bool) (hstop : a.stopping = true → stopping = true) :
    SubmitInv { a with stopping := stopping, wake := wake, caller := Function.update a.caller t pc } Q B := by
  refine ⟨h.queue, h.batch, ?_, h.accepted, h.nodup, h.bound, h.order, ?_, h.stopped, h.closing, h.atStop⟩
  · intro t' sub' ids' hpc'
    exact h.locals t' sub' ids' (copied_of_update hpc hpc').2
  · exact fun hsaw => ⟨hstop (h.stopping hsaw).1, (h.stopping hsaw).2⟩

theorem SubmitInv.stop (h : SubmitInv a Q B) (hs : asyncStop a t = some a') : SubmitInv a' Q B := by
  unfold asyncStop at hs
  cases hpc : a.caller t with
  | idle =>
    rw [hpc] at hs
    cases hs
    exact h.move (by simp) true a.wake (fun _ => rfl)
  | copied sub ids | sending => rw [hpc] at hs; cases hs

theorem SubmitInv.send (h : SubmitInv a Q B) (hs : uvAsyncSend a t = some a') : SubmitInv a' Q B := by
  unfold uvAsyncSend at hs
  cases hpc : a.caller t with
  | sending =>
    rw [hpc] at hs
    cases hs
    exact h.move (by simp) a.stopping true (fun hstop => hstop)
  | copied sub ids | idle => rw [hpc] at hs; cases hs

/-! ### The loop thread -/

theorem SubmitInv.queue_length (h : SubmitInv a Q B) : Q.length ≤ a.fresh := by
  have hsub : Q ⊆ List.range a.fresh := fun s hs => List.mem_range.mpr (h.bound s (h.mem_accepted_of_queue hs))
  simpa using (h.queue.nodup.subperm hsub).length_le

theorem SubmitInv.detach (h : SubmitInv a Q B) (hs : onAsyncDetach a = some a') : SubmitInv a' [] Q := by
  unfold onAsyncDetach at hs
  cases hloop : a.loop with
  | batch s stopping => rw [hloop] at hs; cases hs
  | idle =>
    rw [hloop] at hs
    dsimp only at hs
    by_cases hwake : a.wake = true
    case neg => rw [if_neg hwake] at hs; cases hs
    rw [if_pos hwake] at hs
    cases hs
    have hB : B = [] := by
      have hb := h.batch
      rw [hloop] at hb
      exact hb
    have hcontents : follow a.next a.fresh a.queue.head = Q := follow_chain h.queue.chain h.queue_length
    refine ⟨Holds.empty, h.queue.chain, ?_, ?_, h.nodup, h.bound, h.order, ?_, ?_, ?_, ?_⟩
    · exact h.locals
    · show a.accepted = a.handled.map (·.1) ++ Q ++ []
      rw [List.append_nil, h.accepted, hB, List.append_nil]
    · rintro (hst | ⟨s, hst⟩)
      · exact ⟨(h.stopping (.inl hst)).1, rfl⟩
      · exact ⟨(LoopPc.batch.inj hst).2, rfl⟩
    · exact fun hst => (h.stopping (.inl hst)).2
    · intro s told hmem
      have hat := h.closing s told hmem
      dsimp only
      split_ifs
      · exact List.mem_append_left _ hat
      · exact hat
    · intro s hst x hx
      dsimp only
      rw [if_pos (LoopPc.batch.inj hst).2, hcontents]
      exact List.mem_append_right _ hx

/-- The outcome of a round agrees with what the batch was read with. -/
theorem SubmitInv.item (h : SubmitInv a Q B) {stopping : Bool} (hloop : a.loop = .batch (some s) stopping)
    {o : Outcome} (ho : ∀ told, o = .closing told → stopping = true) :
    ∃ B', SubmitInv { a with loop := .batch (a.next s) stopping, handled := a.handled ++ [(s, o)] } Q B' := by
  have hchain : Chain a.next (some s) B := by
    have hb := h.batch
    rwa [hloop] at hb
  obtain _ | ⟨x, B'⟩ := B
  · cases hchain
  obtain ⟨hx, hrest⟩ := hchain
  cases hx
  refine ⟨B', h.queue, hrest, ?_, ?_, h.nodup, h.bound, h.order, ?_, ?_, ?_, ?_⟩
  · exact h.locals
  · show a.accepted = (a.handled ++ [(s, o)]).map (·.1) ++ B' ++ Q
    rw [h.accepted]
    simp
  · rintro (hst | ⟨s', hst⟩)
    · exact h.stopping (.inl hst)
    · exact h.stopping (.inr ⟨some s, by rw [hloop, (LoopPc.batch.inj hst).2]⟩)
  · intro hst
    cases h.stopped hst
  · intro x told hmem
    rcases List.mem_append.mp hmem with hmem | hmem
    · exact h.closing x told hmem
    · obtain ⟨rfl, ho'⟩ := Prod.mk.inj (List.mem_singleton.mp hmem)
      rw [ho told ho'.symm] at hloop
      exact h.atStop _ hloop x List.mem_cons_self
  · intro s' hst x hx
    rw [(LoopPc.batch.inj hst).2] at hloop
    exact h.atStop _ hloop x (List.mem_cons_of_mem s hx)

theorem SubmitInv.finish (h : SubmitInv a Q B) (hs : onAsyncEnd a = some a') : SubmitInv a' Q B := by
  unfold onAsyncEnd at hs
  cases hloop : a.loop with
  | idle => rw [hloop] at hs; cases hs
  | batch s stopping =>
    rw [hloop] at hs
    cases s with
    | some s => cases hs
    | none =>
      cases hs
      have hB : B = [] := by
        have hb := h.batch
        rw [hloop] at hb
        cases B with
        | nil => rfl
        | cons x B => cases hb.1
      refine ⟨h.queue, hB, ?_, h.accepted, h.nodup, h.bound, h.order, ?_, fun _ => hB, h.closing, ?_⟩
      · exact h.locals
      · rintro (hst | ⟨s, hst⟩)
        · rcases Bool.or_eq_true _ _ ▸ hst with hst | hst
          · exact h.stopping (.inl hst)
          · exact h.stopping (.inr ⟨none, by rw [hloop, hst]⟩)
        · cases hst
      · intro s hst
        cases hst

end

/-! ## The completion FIFO -/

structure CompletionInv (c : CompletionSide ρ) (F : List CtxId) : Prop where
  fifo : Holds c.cnext c.fifo F
  inflight : c.inflight.Nodup
  apart : ∀ x ∈ c.inflight, x ∉ F
  bound : ∀ x ∈ c.inflight ++ F, x < c.fresh
  delivered : c.drained ++ F.map c.completion = c.delivered
  wake : F ≠ [] → 0 < c.pipe ∨ c.signal = true ∨ c.drainer ≠ .waiting

section

variable {c : CompletionSide ρ} {F : List CtxId}

theorem CompletionInv.init [Inhabited κ] : CompletionInv (asyncInit : AsyncClient κ ρ).comp [] where
  fifo := Holds.empty
  inflight := List.nodup_nil
  apart := by
    intro x hx
    cases hx
  bound := by
    intro x hx
    cases hx
  delivered := rfl
  wake := fun h => absurd rfl h

/-- A context nobody has seen yet changes nothing on the FIFO. -/
theorem CompletionInv.track (h : CompletionInv c F) (r : AsyncSubmit κ) : CompletionInv (c.track r) F := by
  have hfresh : ∀ x ∈ c.inflight ++ F, x ≠ c.fresh := fun x hx => Nat.ne_of_lt (h.bound x hx)
  refine ⟨h.fifo, ?_, ?_, ?_, ?_, h.wake⟩
  · exact List.nodup_cons.mpr ⟨fun hm => hfresh _ (List.mem_append_left _ hm) rfl, h.inflight⟩
  · intro x hx hF
    rcases List.mem_cons.mp hx with rfl | hx
    · exact hfresh _ (List.mem_append_right _ hF) rfl
    · exact h.apart x hx hF
  · intro x hx
    rcases List.mem_cons.mp hx with rfl | hx
    · exact Nat.lt_succ_self _
    · exact Nat.lt_succ_of_lt (h.bound x hx)
  · refine Eq.trans (congrArg (c.drained ++ ·) (List.map_congr_left ?_)) h.delivered
    intro x hx
    have hne : x ≠ c.fresh := hfresh x (List.mem_append_right _ hx)
    simp [CompletionSide.completion, CompletionSide.track, hne]

variable {c' : CompletionSide ρ}

theorem CompletionInv.respond (h : CompletionInv c F) (hsignal : c.signal = false) {cx : CtxId}
    {resp : Option ρ} (hs : onAsyncResponse c cx resp = some c') : ∃ F', CompletionInv c' F' := by
  unfold onAsyncResponse at hs
  split_ifs at hs with hcx
  cases hs
  have hF : cx ∉ F := h.apart cx hcx
  refine ⟨F ++ [cx], h.fifo.push hF, h.inflight.erase cx, ?_, ?_, ?_, ?_⟩
  · intro x hx hmem
    obtain ⟨hne, hx⟩ := h.inflight.mem_erase_iff.mp hx
    rcases List.mem_append.mp hmem with hmem | hmem
    · exact h.apart x hx hmem
    · exact hne (List.mem_singleton.mp hmem)
  · intro x hx
    apply h.bound
    rcases List.mem_append.mp hx with hx | hx
    · exact List.mem_append_left _ (List.mem_of_mem_erase hx)
    · rcases List.mem_append.mp hx with hx | hx
      · exact List.mem_append_right _ hx
      · rw [List.mem_singleton.mp hx]
        exact List.mem_append_left _ hcx
  · -- the nodes ahead of `cx` keep their responses
    have hahead : ∀ x ∈ F, x ≠ cx := by
      rintro x hx rfl
      exact hF hx
    rw [List.map_append, ← List.append_assoc]
    refine congrArg₂ (· ++ ·) (Eq.trans (congrArg (c.drained ++ ·) (List.map_congr_left ?_)) h.delivered) ?_
    · intro x hx
      simp [CompletionSide.completion, hahead x hx]
    · simp [CompletionSide.completion]
  · -- a node pushed on the empty FIFO raises the signal; behind others it relies on theirs
    intro _
    dsimp only
    rw [h.fifo.head_isNone]
    cases F with
    | nil => exact .inr (.inl rfl)
    | cons x F =>
      rcases h.wake (List.cons_ne_nil x F) with hpipe | hsig | hdrainer
      · exact .inl hpipe
      · rw [hsignal] at hsig
        cases hsig
      · exact .inr (.inr hdrainer)

theorem CompletionInv.write (h : CompletionInv c F) {capacity : Nat} (hcap : 0 < capacity)
    (hs : asyncCompletionSignal capacity c = some c') : CompletionInv c' F := by
  unfold asyncCompletionSignal at hs
  by_cases hsignal : c.signal = true
  case neg => rw [if_neg hsignal] at hs; cases hs
  rw [if_pos hsignal] at hs
  cases hs
  refine ⟨h.fifo, h.inflight, h.apart, h.bound, h.delivered, fun _ => .inl ?_⟩
  -- the write is dropped only when the pipe is full, and a full pipe has a byte
  show 0 < if c.pipe < capacity then c.pipe + 1 else c.pipe
  split_ifs with hfull
  · exact Nat.succ_pos _
  · exact Nat.lt_of_lt_of_le hcap (Nat.le_of_not_lt hfull)

theorem CompletionInv.wakes (h : CompletionInv c F) (hs : drainerWakes c = some c') : CompletionInv c' F := by
  unfold drainerWakes at hs
  split_ifs at hs with hw
  cases hs
  exact ⟨h.fifo, h.inflight, h.apart, h.bound, h.delivered, fun _ => .inr (.inr (by simp))⟩

theorem CompletionInv.reads (h : CompletionInv c F) {k : Nat} (hs : drainerReads c k = some c') :
    CompletionInv c' F := by
  unfold drainerReads at hs
  by_cases hguard : c.drainer = .emptying ∧ 0 < k
  case neg => rw [if_neg hguard] at hs; cases hs
  rw [if_pos hguard] at hs
  cases hs
  refine ⟨h.fifo, h.inflight, h.apart, h.bound, h.delivered, fun _ => .inr (.inr ?_)⟩
  dsimp only
  split_ifs <;> simp

theorem CompletionInv.drain (h : CompletionInv c F) {max : Nat} (hs : asyncDrain c max = some c') :
    ∃ F', CompletionInv c' F' := by
  unfold asyncDrain at hs
  by_cases hguard : c.drainer = .draining ∧ 0 < max
  case neg => rw [if_neg hguard] at hs; cases hs
  rw [if_pos hguard] at hs
  cases hs
  obtain ⟨hrest, hchain, hn⟩ := h.fifo.takeUpTo hguard.2
  have hout : follow (takeUpTo c.cnext c.fifo max).1 (takeUpTo c.cnext c.fifo max).2.2 c.fifo.head = F.take max := by
    apply follow_chain hchain
    rw [hn, List.length_take]
  refine ⟨F.drop max, hrest, h.inflight, ?_, ?_, ?_, ?_⟩
  · exact fun x hx hm => h.apart x hx (List.mem_of_mem_drop hm)
  · intro x hx
    apply h.bound
    rcases List.mem_append.mp hx with hx | hx
    · exact List.mem_append_left _ hx
    · exact List.mem_append_right _ (List.mem_of_mem_drop hx)
  · show c.drained ++ List.map c.completion _ ++ (F.drop max).map c.completion = c.delivered
    rw [hout, List.append_assoc, ← List.map_append, List.take_append_drop]
    exact h.delivered
  · -- a call that returns fewer than `max` has emptied the FIFO
    intro hne
    refine .inr (.inr ?_)
    dsimp only
    rw [hout, List.length_map, List.length_take]
    have hlen : max < F.length := by
      by_contra hle
      exact hne (List.drop_eq_nil_of_le (Nat.le_of_not_lt hle))
    rw [if_neg (by omega)]
    simp

end

/-! ## Runs -/

/-- Both halves of the client are as they should be. -/
def AsyncInv (a : AsyncClient κ ρ) : Prop :=
  (∃ Q B, SubmitInv a.sub Q B) ∧ ∃ F, CompletionInv a.comp F

section

variable {capacity : Nat} {a a' : AsyncClient κ ρ}

theorem AsyncInv.of_sub (h : AsyncInv a) {s : Option (SubmitSide κ)}
    (hs : s.map (fun b => { a with sub := b }) = some a')
    (hkeep : ∀ Q B b, SubmitInv a.sub Q B → s = some b → ∃ Q' B', SubmitInv b Q' B') : AsyncInv a' := by
  obtain ⟨b, hb, rfl⟩ := Option.map_eq_some_iff.mp hs
  obtain ⟨⟨Q, B, hsub⟩, hcomp⟩ := h
  exact ⟨hkeep Q B b hsub hb, hcomp⟩

theorem AsyncInv.of_comp (h : AsyncInv a) {s : Option (CompletionSide ρ)}
    (hs : s.map (fun b => { a with comp := b }) = some a')
    (hkeep : ∀ F b, CompletionInv a.comp F → s = some b → ∃ F', CompletionInv b F') : AsyncInv a' := by
  obtain ⟨b, hb, rfl⟩ := Option.map_eq_some_iff.mp hs
  obtain ⟨hsub, F, hcomp⟩ := h
  exact ⟨hsub, hkeep F b hcomp hb⟩

/-- A round of `on_async`, which takes a submit off one half and may start a context in the other. -/
theorem AsyncInv.item (h : AsyncInv a) {alloc told : Bool} (hs : onAsyncItem a alloc told = some a') :
    AsyncInv a' := by
  unfold onAsyncItem at hs
  obtain ⟨⟨Q, B, hsub⟩, F, hcomp⟩ := h
  cases hloop : a.sub.loop with
  | idle => rw [hloop] at hs; cases hs
  | batch s stopping =>
    rw [hloop] at hs
    cases s with
    | none => cases hs
    | some s =>
      cases hs
      refine ⟨⟨Q, hsub.item hloop ?_⟩, F, ?_⟩
      · intro told' ho
        split_ifs at ho with hstop
        exact hstop
      · dsimp only
        split_ifs
        all_goals first | exact hcomp.track _ | exact hcomp

/-- **Every step of every thread keeps the invariant.** -/
theorem AsyncInv.step (hcap : 0 < capacity) (h : AsyncInv a) {e : AsyncEvent κ ρ}
    (hs : asyncStep capacity a e = some a') : AsyncInv a' := by
  cases e with
  | copy t reqs ok => exact h.of_sub hs (fun Q B b hi hb => ⟨Q, B, hi.submitMany hb⟩)
  | enqueue t =>
    refine h.of_sub hs (fun Q B b hi hb => ?_)
    obtain ⟨Q', hQ'⟩ := hi.submitLocked hb
    exact ⟨Q', B, hQ'⟩
  | stop t => exact h.of_sub hs (fun Q B b hi hb => ⟨Q, B, hi.stop hb⟩)
  | send t => exact h.of_sub hs (fun Q B b hi hb => ⟨Q, B, hi.send hb⟩)
  | detach =>
    rw [asyncStep] at hs
    split_ifs at hs
    exact h.of_sub hs (fun Q B b hi hb => ⟨[], Q, hi.detach hb⟩)
  | item alloc told =>
    rw [asyncStep] at hs
    split_ifs at hs
    exact h.item hs
  | finish =>
    rw [asyncStep] at hs
    split_ifs at hs
    exact h.of_sub hs (fun Q B b hi hb => ⟨Q, B, hi.finish hb⟩)
  | respond cx resp =>
    rw [asyncStep] at hs
    split_ifs at hs with hsignal
    exact h.of_comp hs (fun F b hi hb => hi.respond (by simpa using hsignal) hb)
  | write => exact h.of_comp hs (fun F b hi hb => ⟨F, hi.write hcap hb⟩)
  | wakes => exact h.of_comp hs (fun F b hi hb => ⟨F, hi.wakes hb⟩)
  | reads k => exact h.of_comp hs (fun F b hi hb => ⟨F, hi.reads hb⟩)
  | drain max => exact h.of_comp hs (fun F b hi hb => hi.drain hb)

/-- **Every reachable state meets the invariant.** -/
theorem AsyncReachable.inv [Inhabited κ] (hcap : 0 < capacity) (h : AsyncReachable capacity a) : AsyncInv a := by
  refine Runs.Reach.invariant ?_ (fun s e s' hi _ hs => AsyncInv.step hcap hi hs) h
  rintro s rfl
  exact ⟨⟨[], [], SubmitInv.init⟩, [], CompletionInv.init⟩

/-! ## What holds in every reachable state -/

/-- What has become of the submit `s`, when the submit queue is `Q` and the detached batch `B`. Exactly one
    case applies: a submit that is still queued was not handled, and one that was handled was handled once. -/
inductive SubmitFate (a : SubmitSide κ) (Q B : List SubmitId) (s : SubmitId) : Prop where
  | queued (hmem : s ∈ B ++ Q) (hhandled : a.handled.filter (·.1 = s) = [])
  | dispatched (hmem : s ∉ B ++ Q) (hhandled : a.handled.filter (·.1 = s) = [(s, .dispatched)])
  | closing (told : Bool) (hmem : s ∉ B ++ Q) (hhandled : a.handled.filter (·.1 = s) = [(s, .closing told)])
      (hstop : s ∈ a.atStop)
  | outOfMemory (told : Bool) (hmem : s ∉ B ++ Q) (hhandled : a.handled.filter (·.1 = s) = [(s, .outOfMemory told)])

/-- In a log without repetitions an entry is the only one of its key. -/
theorem filter_key_eq {α β : Type} [DecidableEq α] {l : List (α × β)} (hnodup : (l.map (·.1)).Nodup) {x : α × β}
    (hx : x ∈ l) : l.filter (·.1 = x.1) = [x] := by
  induction l with
  | nil => cases hx
  | cons y l ih =>
    rw [List.map_cons, List.nodup_cons] at hnodup
    rcases List.mem_cons.mp hx with rfl | hx
    · rw [List.filter_cons_of_pos (by simp), List.filter_eq_nil_iff.mpr ?_]
      intro z hz hzx
      exact hnodup.1 (List.mem_map.mpr ⟨z, hz, by simpa using hzx⟩)
    · have hne : y.1 ≠ x.1 := fun h => hnodup.1 (List.mem_map.mpr ⟨x, hx, h.symm⟩)
      rw [List.filter_cons_of_neg (by simpa using hne)]
      exact ih hnodup.2 hx

theorem SubmitInv.fate {a : SubmitSide κ} {Q B : List SubmitId} (h : SubmitInv a Q B) (hs : s ∈ a.accepted) :
    SubmitFate a Q B s := by
  have hnodup := h.nodup
  rw [h.accepted, List.append_assoc] at hnodup hs
  obtain ⟨hkeys, _, hdisj⟩ := List.nodup_append.mp hnodup
  rcases List.mem_append.mp hs with hs | hs
  · obtain ⟨⟨x, o⟩, hx, rfl⟩ := List.mem_map.mp hs
    have hmem : x ∉ B ++ Q := fun hm => hdisj x hs x hm rfl
    have honly := filter_key_eq hkeys hx
    cases o with
    | dispatched => exact .dispatched hmem honly
    | closing told => exact .closing told hmem honly (h.closing x told hx)
    | outOfMemory told => exact .outOfMemory told hmem honly
  · refine .queued hs (List.filter_eq_nil_iff.mpr ?_)
    intro x hx hxs
    exact hdisj x.1 (List.mem_map_of_mem hx) s hs (by simpa using hxs)

/-- The submits that were dispatched, in that order. -/
def SubmitSide.dispatches (a : SubmitSide κ) : List SubmitId :=
  (a.handled.filter (·.2 = .dispatched)).map (·.1)

/-- Dispatches follow the order of the queue, and with it the order of each thread's calls. -/
theorem SubmitInv.dispatches_sublist {a : SubmitSide κ} {Q B : List SubmitId} (h : SubmitInv a Q B)
    (t : ThreadId) : (a.dispatches.filter (a.owner · = t)).Sublist (a.submitted t) := by
  rw [← h.order t]
  apply List.Sublist.filter
  rw [h.accepted, List.append_assoc]
  exact (List.filter_sublist.map _).trans (List.sublist_append_left _ _)

theorem SubmitInv.mem_accepted_of_result {a : SubmitSide κ} {Q B : List SubmitId} (h : SubmitInv a Q B)
    {t : ThreadId} {ids : List SubmitId} (hres : (ids, true) ∈ a.results t) (hs : s ∈ ids) :
    s ∈ a.accepted := by
  have hsub : s ∈ a.submitted t := by
    refine List.mem_flatMap.mpr ⟨(ids, true), ?_, hs⟩
    exact List.mem_filter.mpr ⟨hres, rfl⟩
  rw [← h.order t] at hsub
  exact (List.mem_filter.mp hsub).1

/-- **The asynchronous API loses and duplicates nothing.** However the threads interleave, and whichever
    allocations of the loop thread fail: read the submit queue as `Q`, the batch the loop thread has detached
    as `B` and the completion FIFO as `F`. Each submit of a call that returned 1 has met exactly one fate, and
    none is queued once a stop is processed; the submits of a thread are dispatched in the order of its calls;
    what was drained, and then the FIFO, is what was delivered; and a FIFO with something in it has a byte in
    the pipe, or the loop thread about to write one, or the draining thread in a round. -/
theorem async_loses_nothing [Inhabited κ] (hcap : 0 < capacity) (h : AsyncReachable capacity a) :
    ∃ Q B F, Chain a.sub.next a.sub.queue.head Q ∧ a.sub.loop.Pending a.sub.next B ∧
      Chain a.comp.cnext a.comp.fifo.head F ∧
      (∀ t ids, (ids, true) ∈ a.sub.results t → ∀ s ∈ ids, SubmitFate a.sub Q B s) ∧
      (a.sub.stopped = true → Q = [] ∧ B = []) ∧
      (∀ t, (a.sub.dispatches.filter (a.sub.owner · = t)).Sublist (a.sub.submitted t) ∧
        (a.sub.submitted t).Nodup) ∧
      a.comp.drained ++ F.map a.comp.completion = a.comp.delivered ∧
      (F ≠ [] → 0 < a.comp.pipe ∨ a.comp.signal = true ∨ a.comp.drainer ≠ .waiting) := by
  obtain ⟨⟨Q, B, hsub⟩, F, hcomp⟩ := h.inv hcap
  refine ⟨Q, B, F, hsub.queue.chain, hsub.batch, hcomp.fifo.chain, ?_, ?_, ?_, hcomp.delivered, hcomp.wake⟩
  · intro t ids hres s hs
    exact hsub.fate (hsub.mem_accepted_of_result hres hs)
  · exact fun hst => ⟨(hsub.stopping (.inl hst)).2, hsub.stopped hst⟩
  · intro t
    refine ⟨hsub.dispatches_sublist t, ?_⟩
    rw [← hsub.order t]
    exact hsub.nodup.filter _

/-- One request on its way through all three threads: submitted, dispatched, answered, drained. -/
def roundTrip : List (AsyncEvent Unit Nat) :=
  [.copy 1 [{ req := (), reqId := 7 }] true, .enqueue 1, .send 1, .detach, .item true true, .finish,
    .respond 0 (some 200), .write, .wakes, .reads 1, .reads 1, .drain 4]

theorem async_loses_nothing_roundTrip : ∃ a, roundTrip.foldlM (asyncStep 1) asyncInit = some a ∧
    a.sub.results 1 = [([0], true)] ∧ a.comp.drained = [{ reqId := 7, resp := some 200 }] ∧
    ∃ Q B F, Chain a.sub.next a.sub.queue.head Q ∧ a.sub.loop.Pending a.sub.next B ∧
      Chain a.comp.cnext a.comp.fifo.head F ∧
      (∀ t ids, (ids, true) ∈ a.sub.results t → ∀ s ∈ ids, SubmitFate a.sub Q B s) ∧
      (a.sub.stopped = true → Q = [] ∧ B = []) ∧
      (∀ t, (a.sub.dispatches.filter (a.sub.owner · = t)).Sublist (a.sub.submitted t) ∧
        (a.sub.submitted t).Nodup) ∧
      a.comp.drained ++ F.map a.comp.completion = a.comp.delivered ∧
      (F ≠ [] → 0 < a.comp.pipe ∨ a.comp.signal = true ∨ a.comp.drainer ≠ .waiting) :=
  ⟨_, rfl, rfl, rfl, async_loses_nothing Nat.one_pos
    (Runs.Reach.foldlM (.start rfl) (rfl : roundTrip.foldlM (asyncStep 1) asyncInit = some _))⟩

/-- A submit whose context cannot be allocated. -/
def noContext : List (AsyncEvent Unit Nat) :=
  [.copy 1 [{ req := (), reqId := 7 }] true, .enqueue 1, .send 1, .detach, .item false true]

/-- Its call returned 1, it is off the queue, it was not dispatched and no stop was ever asked for: `on_async`
    completes it with the error "out of memory". -/
theorem async_submit_out_of_memory : ∃ a : AsyncClient Unit Nat, AsyncReachable 1 a ∧
    a.sub.results 1 = [([0], true)] ∧ Chain a.sub.next a.sub.queue.head [] ∧ a.sub.loop.Pending a.sub.next [] ∧
    a.sub.dispatches = [] ∧ a.sub.stopping = false ∧ a.sub.atStop = [] ∧
    a.sub.handled = [(0, .outOfMemory true)] :=
  ⟨_, Runs.Reach.foldlM (.start rfl) (rfl : noContext.foldlM (asyncStep 1) asyncInit = some _),
    rfl, rfl, rfl, rfl, rfl, rfl, rfl⟩

end

end HolyTls

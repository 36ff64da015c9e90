import HolyTls.Pool.Table

/-!
# `Pool.Replay` — what is written twice

An attempt is **in doubt** once its request has been written, until the peer says that it did not process it.
`pool_req_retry_or_fail` asks only whether anything was delivered, so a request whose attempt is in doubt is
written again, whatever its method (`post_written_twice`). Retrying such a request is the only way to write
it again: `pool_writes_once`.
-/

namespace HolyTls

open Runs

/-- The methods whose requests are not idempotent, or change what they name. -/
def Method.mutates : Method → Bool
  | .post => true
  | .put => true
  | .patch => true
  | .delete => true
  | _ => false

/-- Whether the attempt is in doubt after an event. -/
def PoolEvent.doubt (r : ReqId) (b : Bool) : PoolEvent → Bool
  | .write x _ => if x = r then true else b
  | .refused x => if x = r then false else b
  | _ => b

/-- The request has been written, and the peer has not said that it did not process it. -/
def inDoubt (r : ReqId) (l : List PoolEvent) : Bool := l.foldl (PoolEvent.doubt r) false

/-- A request on its way that is not written yet. -/
def Place.unsent : Place → Bool
  | hand (.free _ _) => true
  | hand (.opened _ _) => true
  | hand (.sub _ _) => true
  | hand (.streamed _ _) => true
  | waiting _ => true
  | _ => false

/-- A request that is not written yet is not in doubt. -/
structure Clear (r : ReqId) (l : List PoolEvent) (w : PoolWorld) : Prop where
  unborn : w.2.nreq ≤ r → inDoubt r l = false
  placed : ∃ p, Placed r w p ∧ (p.unsent = true → inDoubt r l = false)

section

variable {cfg : PoolCfg} {w w' : PoolWorld} {o l : List PoolEvent} {r : ReqId} {c : ConnId} {p p' : Place}

theorem inDoubt_snoc (e : PoolEvent) : inDoubt r (l ++ [e]) = e.doubt r (inDoubt r l) := by
  rw [inDoubt, List.foldl_append]
  rfl

theorem PoolEvent.doubt_of_ne {e : PoolEvent} {b : Bool} (h : e.req? ≠ some r) : e.doubt r b = b := by
  cases e with
  | write x c | refused x => exact if_neg (fun hx => h (congrArg some hx))
  | _ => rfl

theorem inDoubt_silent (ho : Silent r o) (hone : o.length ≤ 1) : inDoubt r (l ++ o) = inDoubt r l := by
  match o, hone with
  | [], _ => rw [List.append_nil]
  | [e], _ => rw [inDoubt_snoc, PoolEvent.doubt_of_ne (ho e List.mem_cons_self)]

theorem Hop.unsent {s : Pool} (h : Hop s r p p') (hp' : p'.unsent = true) : p.unsent = true := by
  cases h <;> first | rfl | cases hp'

theorem Clear.empty : Clear r [] ([], Pool.empty) :=
  ⟨fun _ => rfl, .nowhere, .empty r, fun h => (by cases h)⟩

/-- Only what is not written yet is written. -/
theorem Turn.clear (h : Turn cfg w o w') (hb : Base w) (hl : Laid l w) (hf : Clear r l w)
    (hstray : .strayClose r ∉ o) (hretry : .retried r ∈ o → inDoubt r l = false) :
    Clear r (l ++ o) w' ∧ ∀ c, .write r c ∈ o → inDoubt r l = false := by
  obtain ⟨p, hp, hclear⟩ := hf.placed
  obtain ⟨p', hp', hfate⟩ := h.fate hb hp hstray
    (fun _ hrecv _ hmem => hl.active_of_mem (hl.intact (Or.inr hrecv)) hmem)
  have hunborn : w'.2.nreq ≤ r → inDoubt r l = false := fun hr => hf.unborn (h.lasts.nreq.trans hr)
  have hquiet : Silent r o → ∀ c, .write r c ∈ o → inDoubt r l = false :=
    fun ho c hc => absurd rfl (ho _ hc)
  cases hfate with
  | stay ho hq =>
    have hsame := inDoubt_silent (l := l) ho h.length_le_one
    exact ⟨⟨hsame ▸ hunborn, p, hp', hsame ▸ hclear⟩, hquiet ho⟩
  | hop hhop ho hq =>
    have hsame := inDoubt_silent (l := l) ho h.length_le_one
    exact ⟨⟨hsame ▸ hunborn, p', hp', fun hu => hsame ▸ hclear (hhop.unsent hu)⟩, hquiet ho⟩
  | fail tabled answered hlist hans hq | answer hopen hresp hq | legacy hleg hq
  | release hh hrel harmed hresp hleg =>
    exact ⟨⟨fun hr => by rw [inDoubt_snoc]; exact hunborn hr, _, hp', fun hu => by cases hu⟩,
      fun c hc => by simp at hc⟩
  | born hr hresp hleg hrel =>
    have hno : inDoubt r l = false := hf.unborn hr.ge
    refine ⟨⟨fun _ => ?_, _, hp', fun _ => ?_⟩, fun c hc => hno⟩ <;> rw [inDoubt_snoc] <;> exact hno
  | @write _ _ c hsent hsent' hq =>
    have hno : inDoubt r l = false := by
      rcases hsent with rfl | rfl <;> exact hclear rfl
    have hlt : r < w.2.nreq := by
      rcases hsent with rfl | rfl <;> exact (hb.hand _ hp.mem_hand.1).1
    refine ⟨⟨h.not_unborn hlt, _, hp', fun hu => ?_⟩, fun _ _ => hno⟩
    rcases hsent' with rfl | rfl <;> cases hu
  | refuse hq =>
    have hno : inDoubt r (l ++ [.refused r]) = false := by
      rw [inDoubt_snoc]
      exact if_pos rfl
    exact ⟨⟨fun _ => hno, _, hp', fun _ => hno⟩, fun c hc => by simp at hc⟩
  | retry hopen hq =>
    have hno : inDoubt r l = false := hretry List.mem_cons_self
    refine ⟨⟨fun _ => ?_, _, hp', fun _ => ?_⟩, fun c hc => hno⟩ <;> rw [inDoubt_snoc] <;> exact hno
  | expire hheld hlt harmed hopen hresp hq =>
    refine ⟨⟨fun hr => ?_, _, hp', fun hu => ?_⟩, fun c hc => by simp at hc⟩ <;> rw [inDoubt_snoc]
    · exact hunborn hr
    · exact hclear hu
  | drop hheld hin hout hresp ho hq =>
    have hsame := inDoubt_silent (l := l) ho h.length_le_one
    exact ⟨⟨hsame ▸ hunborn, _, hp', fun hu => by cases hu⟩, hquiet ho⟩

/-- No attempt that is in doubt is retried, and no stream closes astray. -/
def NoBlindRetry (r : ReqId) (l : List PoolEvent) : Prop :=
  .strayClose r ∉ l ∧ Each (fun before e => e = .retried r → inDoubt r before = false) l

/-- Nothing is written again while the attempt before is in doubt. -/
def WrittenOnce (r : ReqId) (l : List PoolEvent) : Prop :=
  Each (fun before e => ∀ c, e = .write r c → inDoubt r before = false) l

theorem Turns.writtenOnce (h : Turns cfg ([], .empty) l w) (hok : NoBlindRetry r l) : WrittenOnce r l := by
  have hI := Turns.invariant (NoBlindRetry r)
    (I := fun l w => Routed w ∧ Laid l w ∧ Clear r l w ∧ WrittenOnce r l) ?_ ?_ h .empty []
    ⟨.empty, .empty, .empty, .nil⟩ hok
  · exact hI.2.2.2
  · rintro l l' ⟨hstray, hretry⟩
    exact ⟨fun h => hstray (List.mem_append_left l' h), hretry.left⟩
  · rintro l w o w' hb ⟨hi, hl, hf, hw⟩ hm ⟨hstray, hretry⟩
    have hone := hm.length_le_one
    obtain ⟨hf', hw'⟩ := hm.clear hb hl hf (fun h => hstray (List.mem_append_right l h))
      (fun hmem => hretry.of_mem hone hmem rfl)
    refine ⟨hm.routed hb hi, hm.laid hb hi hl, hf', hw.append hone ?_⟩
    rintro e he c rfl
    exact hw' c he

/-- **A request that changes what it names is written at most once**, unless the peer said that it did not
    process the attempt before, in every run in which no such request is retried while its attempt is in
    doubt and none of its streams closes astray. -/
theorem pool_writes_once {w : PoolRun} (h : PoolReach cfg w)
    (hok : ∀ r, r < w.pool.nreq → (w.pool.reqs r).method.mutates = true → NoBlindRetry r w.log) :
    ∀ r, r < w.pool.nreq → (w.pool.reqs r).method.mutates = true → WrittenOnce r w.log :=
  fun r hr hm => Turns.writtenOnce h.turns.1 (hok r hr hm)

end

/-- The peer refuses the stream of a POST, which is then written once more. -/
def refusedRun : List PoolTurn :=
  [⟨.call (.dispatch .h2 .post (lit "https://a/") false), 5, [.connect none]⟩,
   ⟨.h2Ready 0 (.ok (lit "h2")) true [], 5, [.h2Submit true []]⟩,
   ⟨.h2Readable 0 [{ frames := [.close 0 { ok := false, refused := true }] }], 5, [.h2Submit true []]⟩]

theorem pool_writes_once_refused :
    ∃ w, PoolReach plainCfg w ∧ (w.pool.reqs 0).method = .post ∧
      w.log = [.dispatched 0, .opened 0 0, .write 0 0, .refused 0, .retried 0, .write 0 0] ∧ WrittenOnce 0 w.log := by
  have hrun : (poolPlay plainCfg refusedRun).map (fun w => (w.pool.nreq, (w.pool.reqs 0).method, w.log)) =
      some (1, .post, [.dispatched 0, .opened 0 0, .write 0 0, .refused 0, .retried 0, .write 0 0]) := by
    decide +kernel
  obtain ⟨w, hplay, hw⟩ := Option.map_eq_some_iff.mp hrun
  simp only [Prod.mk.injEq] at hw
  obtain ⟨hn, hm, hlog⟩ := hw
  have hreach := PoolReach.of_play hplay
  refine ⟨w, hreach, hm, hlog, pool_writes_once hreach ?_ 0 (by rw [hn]; decide) (by rw [hm]; rfl)⟩
  intro r hr _
  rw [hn, Nat.lt_one_iff] at hr
  rw [hr, hlog]
  unfold NoBlindRetry
  decide

/-- A POST is written, the server closes the connection, and the POST is written to another one. -/
def closedRun : List PoolTurn :=
  [⟨.call (.dispatch .h1 .post (lit "https://a/") false), 5, [.connect none]⟩,
   ⟨.h1Ready 0 (.ok []), 5, [.h1Alloc true]⟩,
   ⟨.h1Closed 0 none, 5, [.connect none]⟩,
   ⟨.h1Ready 1 (.ok []), 5, [.h1Alloc true]⟩]

theorem post_written_twice :
    ∃ w, PoolReach plainCfg w ∧ 0 < w.pool.nreq ∧ (w.pool.reqs 0).method.mutates = true ∧
      ¬ WrittenOnce 0 w.log := by
  have hrun : (poolPlay plainCfg closedRun).map (fun w => (w.pool.nreq, (w.pool.reqs 0).method.mutates)) =
      some (1, true) := by decide +kernel
  have honce : (poolPlay plainCfg closedRun).map (fun w => decide (Each (fun before e => ∀ c ∈ [0, 1],
      e = .write 0 c → inDoubt 0 before = false) w.log)) = some false := by decide +kernel
  obtain ⟨w, hplay, hw⟩ := Option.map_eq_some_iff.mp hrun
  rw [hplay] at honce
  simp only [Prod.mk.injEq] at hw
  refine ⟨w, PoolReach.of_play hplay, by rw [hw.1]; decide, hw.2, ?_⟩
  intro hall
  refine of_decide_eq_false (Option.some_inj.mp honce) ?_
  exact fun a x b heq c _ hx => hall a x b heq c hx

end HolyTls

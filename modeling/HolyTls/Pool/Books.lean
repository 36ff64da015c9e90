import HolyTls.Pool.Table

/-!
# `Pool.Books` — counters, lists and tables agree

`inflight` counts the active list, the waiting list ends at its tail, and `streams[]` of an HTTP/3 connection
holds exactly the active requests, as long as no stream closes astray. `Books` says so of every connection
that is not closed; what `pool_conn_has_capacity` bounds, it bounds in every state.

A stream that is closed takes its request off the connection unless `h3_fin` is set, which a retry does not
reset: the second stream of a request is then closed without a trace (`closed_stream_stays_active`).
-/

namespace HolyTls

open Slots

/-! ## Waiting lists -/

namespace Waiting

variable {w w' : Waiting} {r : ReqId}

theorem Wf.push_tail (hw : w.Wf) (r : ReqId) : (w.push r).tail = (w.push r).nodes.getLast? := by
  rw [hw.push_nodes, List.getLast?_concat, push]
  split <;> rfl

theorem Wf.pop_tail (hw : w.Wf) (h : w.pop = some (r, w')) : w'.tail = w'.nodes.getLast? := by
  have htail := hw.tail
  rw [nodes_of_pop h] at htail
  unfold pop at h
  split at h
  · cases h
  · cases h
    dsimp only at htail ⊢
    split
    · next hnil => rw [hnil]; rfl
    · next hne =>
        rw [htail]
        exact List.getLast?_cons_of_ne_nil hne

theorem Wf.remove_tail (hw : w.Wf) (r : ReqId) : (w.remove r).tail = (w.remove r).nodes.getLast? := by
  unfold remove
  split
  · next hmem =>
      obtain ⟨a, b, hnodes⟩ := List.append_of_mem hmem
      have hnd := hw.nodup
      have htail := hw.tail
      rw [hnodes] at hnd htail
      have hra : r ∉ a := fun h => (List.nodup_append.mp hnd).2.2 r h r List.mem_cons_self rfl
      have herase : w.nodes.erase r = a ++ b := by
        rw [hnodes, List.erase_append_right _ hra, List.erase_cons_head]
      have htake : w.nodes.takeWhile (· != r) = a := by
        have hne : ∀ x ∈ a, (x != r) = true := fun x hx => bne_iff_ne.mpr fun h => hra (h ▸ hx)
        rw [hnodes, List.takeWhile_append_of_pos hne,
          List.takeWhile_cons_of_neg (by simp), List.append_nil]
      dsimp only
      rw [herase, htake]
      rcases List.eq_nil_or_concat b with rfl | ⟨b, y, rfl⟩
      · rw [List.append_nil, if_pos (by rw [htail, List.getLast?_concat])]
      · have hry : y ≠ r := by
          rintro rfl
          have hnd' := (List.nodup_append.mp hnd).2.1
          simp at hnd'
        have hlast : w.tail = some y := by
          rw [htail, List.concat_eq_append, ← List.cons_append, ← List.append_assoc, List.getLast?_concat]
        rw [if_neg (by rw [hlast]; simpa using hry), hlast]
        simp
  · exact hw.tail

end Waiting

/-! ## The invariant -/

/-- What the counters and lists say of the connections that are not closed. -/
structure Books (w : PoolWorld) : Prop where
  wf : ∀ c, (w.2.conn c).waiting.Wf
  inflight : ∀ c, (w.2.conn c).state ≠ .closing → (w.2.conn c).inflight = (w.2.conn c).active.length
  h1 : ∀ c, (w.2.conn c).proto = .h1 → (w.2.conn c).inflight ≤ 1
  h3 : ∀ c, (w.2.conn c).state ≠ .closing → (w.2.conn c).proto = .h3 →
    (w.2.conn c).inflight ≤ poolH3MaxConcurrent
  tabled : ∀ c, (w.2.conn c).state ≠ .closing → (w.2.conn c).proto = .h3 →
    ∀ r, (w.2.conn c).active.count r ≤ (w.2.conn c).streams.count r

section

variable {cfg : PoolCfg} {w w' : PoolWorld} {o l : List PoolEvent} {r x : ReqId} {c : ConnId} {p : Place}

theorem Books.empty : Books ([], Pool.empty) where
  wf := fun _ => ⟨rfl, List.nodup_nil⟩
  inflight := fun _ _ => rfl
  h1 := fun _ _ => Nat.zero_le _
  h3 := fun _ _ _ => Nat.zero_le _
  tabled := fun _ _ _ _ => le_rfl

/-- The slot limit of `pool_conn_has_capacity`. -/
theorem inflight_of_capacity {pc : PoolConn} (h : poolConnHasCapacity pc = true) :
    (pc.proto = .h1 → pc.inflight = 0) ∧ (pc.proto = .h3 → pc.inflight < poolH3MaxConcurrent) := by
  unfold poolConnHasCapacity at h
  split at h
  · cases h
  · constructor
    · intro hp
      rw [hp] at h
      simpa using h
    · intro hp
      rw [hp] at h
      exact (by simpa using h : _ ∧ _).2

theorem Turn.live (h : Turn cfg w o w') (hb : Base w) (hc : (w'.2.conn c).state ≠ .closing) :
    (w.2.conn c).state ≠ .closing := by
  by_cases hlt : c < w.2.nconn
  · exact fun hcl => hc ((h.lasts.conn c hlt).closing hcl)
  · rw [hb.fresh c (Nat.le_of_not_lt hlt)]
    decide

theorem Placed.count_waiting_le (hp : Placed r w p) (c : ConnId) : (w.2.conn c).waiting.nodes.count r ≤ 1 := by
  rw [hp.waits c]
  cases p <;> simp only [Place.waits] <;> first | omega | (split <;> omega)

theorem Placed.count_active_le (hp : Placed r w p) (c : ConnId) : (w.2.conn c).active.count r ≤ 1 := by
  rw [hp.acts c]
  cases p <;> simp only [Place.acts] <;> first | omega | (split <;> omega)

/-- Every request is at one place. -/
def AllPlaced (w : PoolWorld) : Prop := ∀ r, ∃ p, Placed r w p

theorem AllPlaced.nodup_waiting (h : AllPlaced w) (c : ConnId) : (w.2.conn c).waiting.nodes.Nodup := by
  refine List.nodup_iff_count_le_one.mpr fun r => ?_
  obtain ⟨p, hp⟩ := h r
  exact hp.count_waiting_le c

theorem AllPlaced.nodup_active (h : AllPlaced w) (c : ConnId) : (w.2.conn c).active.Nodup := by
  refine List.nodup_iff_count_le_one.mpr fun r => ?_
  obtain ⟨p, hp⟩ := h r
  exact hp.count_active_le c

theorem AllPlaced.pc_of_active (h : AllPlaced w) (hact : r ∈ (w.2.conn c).active) : (w.2.reqs r).pc = some c := by
  obtain ⟨p, hp⟩ := h r
  have hp' := hp.at_active hact
  subst hp'
  exact hp.pc c rfl

theorem Laid.allPlaced (hl : Laid l w) (hstray : ∀ r, .strayClose r ∉ l) : AllPlaced w :=
  fun r => hl.placed r (hstray r)

/-! ## One step -/

theorem Books.wf_step (hk : Books w) (h : Turn cfg w o w') (hw' : AllPlaced w') : (w'.2.conn c).waiting.Wf := by
  refine ⟨?_, hw'.nodup_waiting c⟩
  have hwf := hk.wf c
  have hch := h.change (c := c)
  generalize w'.2.conn c = pc' at hch
  cases hch with
  | quiet h => rw [h.waiting]; exact hwf.tail
  | born _ _ heq | emptied heq | failed _ _ _ heq => subst heq; rfl
  | queued _ _ heq => subst heq; exact hwf.push_tail _
  | popped hpop _ heq => subst heq; exact hwf.pop_tail hpop
  | forgot _ heq => subst heq; exact hwf.remove_tail _
  | _ => subst_vars; exact hwf.tail

/-- A request that is taken off leaves the list that its connection counts. -/
theorem length_erase_of_inflight {pc : PoolConn} (hin : pc.inflight = pc.active.length) (hr : r ∈ pc.active) :
    pc.inflight - 1 = (pc.active.erase r).length := by
  rw [List.length_erase_of_mem hr, hin]

theorem Books.inflight_step (hk : Books w) (hl : Laid l w) (hw : AllPlaced w) (h : Turn cfg w o w')
    (hstray : ∀ r, .strayClose r ∉ o) (hb : Base w) (hc : (w'.2.conn c).state ≠ .closing) :
    (w'.2.conn c).inflight = (w'.2.conn c).active.length := by
  have hlive := h.live hb hc
  have hin := hk.inflight c hlive
  have hch := h.change (c := c)
  generalize w'.2.conn c = pc' at hch hc
  cases hch with
  | quiet h => rw [h.inflight, h.active]; exact hin
  | born _ _ heq | failed _ _ _ heq => subst heq; rfl
  | written _ _ _ _ heq | activated _ _ _ heq | activatedH3 _ _ _ _ _ heq =>
    subst heq
    exact congrArg (· + 1) hin
  | @taken r c₀ hact hpc _ _ heq | @takenH1 r c₀ _ hact hpc _ _ _ _ heq =>
    subst heq
    cases (hw.pc_of_active hact).symm.trans hpc
    exact length_erase_of_inflight hin hact
  | @takenStray r c₀ hev _ _ _ => exact absurd (hev ▸ List.mem_cons_self) (hstray r)
  | dropped _ _ hact _ heq | streamDropped _ _ hact heq =>
    subst heq
    exact length_erase_of_inflight hin (hact.resolve_right hlive)
  | @streamTaken r sid _ hfind hrecv _ _ heq =>
    subst heq
    exact length_erase_of_inflight hin
      (hl.active_of_mem (hl.intact (.inr hrecv)) (List.mem_of_find?_eq_some hfind))
  | _ => subst_vars; exact hin

theorem Books.h1_step (hk : Books w) (h : Turn cfg w o w') (hc : (w'.2.conn c).proto = .h1) :
    (w'.2.conn c).inflight ≤ 1 := by
  have hbound := hk.h1 c
  have hch := h.change (c := c)
  generalize w'.2.conn c = pc' at hch hc
  cases hch with
  | quiet h => rw [h.inflight]; exact hbound (h.proto ▸ hc)
  | born _ _ heq | failed _ _ _ heq => subst heq; exact Nat.zero_le _
  | written _ hproto hcap _ heq =>
    subst heq
    exact Nat.succ_le_succ ((inflight_of_capacity hcap).1 hproto).le
  | activated _ hproto _ heq | activatedH3 _ hproto _ _ _ heq =>
    subst heq
    rw [hproto] at hc
    cases hc
  | taken | takenH1 | takenStray | dropped | streamTaken | streamDropped =>
    subst_vars
    exact (Nat.sub_le _ _).trans (hbound hc)
  | _ => subst_vars; exact hbound hc

theorem Books.h3_step (hk : Books w) (h : Turn cfg w o w') (hb : Base w) (hc : (w'.2.conn c).state ≠ .closing)
    (hproto : (w'.2.conn c).proto = .h3) : (w'.2.conn c).inflight ≤ poolH3MaxConcurrent := by
  have hlive := h.live hb hc
  have hbound := hk.h3 c hlive
  have hch := h.change (c := c)
  generalize w'.2.conn c = pc' at hch hproto
  cases hch with
  | quiet h => rw [h.inflight]; exact hbound (h.proto ▸ hproto)
  | born _ _ heq | failed _ _ _ heq => subst heq; exact Nat.zero_le _
  | written _ hother | activated _ hother =>
    subst_vars
    rw [hother] at hproto
    cases hproto
  | activatedH3 _ hh3 _ _ hev heq =>
    subst heq
    rcases hev with ⟨_, hcl⟩ | hsub
    · exact absurd hcl hlive
    · exact (inflight_of_capacity (hsub.capacity (by rw [hh3]; decide))).2 hh3
  | taken | takenH1 | takenStray | dropped | streamTaken | streamDropped =>
    subst_vars
    exact (Nat.sub_le _ _).trans (hbound hproto)
  | _ => subst_vars; exact hbound hproto

/-- A request of another protocol is not active on an HTTP/3 connection. -/
theorem count_erase_of_proto (hi : Routed w) (hproto : (w.2.conn c).proto = .h3) (hx : (w.2.reqs x).proto ≠ .h3) :
    (w.2.conn c).active.erase x = (w.2.conn c).active := by
  apply List.erase_of_not_mem
  intro hact
  exact hx ((hi.on x c (.inl (.inr hact))).proto ▸ hproto)

theorem Books.tabled_step (hk : Books w) (hl : Laid l w) (h : Turn cfg w o w') (hb : Base w)
    (hi : Routed w) (hstray : ∀ r, .strayClose r ∉ o) (hc : (w'.2.conn c).state ≠ .closing)
    (hproto : (w'.2.conn c).proto = .h3) :
    (w'.2.conn c).active.count r ≤ (w'.2.conn c).streams.count r := by
  have hlive := h.live hb hc
  have hint := hl.intact (.inl hlive)
  have htab := hk.tabled c hlive
  have hch := h.change (c := c)
  generalize w'.2.conn c = pc' at hch hproto
  cases hch with
  | quiet h => rw [h.active, h.streams]; exact htab (h.proto ▸ hproto) r
  | born _ _ heq | failed _ _ _ heq => subst heq; exact Nat.zero_le _
  | written _ hother | activated _ hother =>
    subst_vars
    rw [hother] at hproto
    cases hproto
  | activatedH3 _ hh3 _ _ hev heq =>
    subst heq
    -- there is room in the table, because it is not longer than the active list
    have hroom : (w.2.conn c).streams.length < h3MaxStreams := by
      rcases hev with ⟨_, hcl⟩ | hsub
      · exact absurd hcl hlive
      · have hlt := (inflight_of_capacity (hsub.capacity (by rw [hh3]; decide))).2 hh3
        rw [hk.inflight c hlive] at hlt
        exact (List.subperm_ext_iff.mpr (fun r _ => hl.table c hint r)).length_le.trans_lt hlt
    dsimp only
    rw [if_pos hroom, List.count_append, List.count_singleton, List.count_cons]
    exact Nat.add_le_add_right (htab hproto r) _
  | @taken x c₀ hact hpc hh2 _ heq =>
    subst heq
    dsimp only
    rw [count_erase_of_proto hi hproto]
    · exact htab hproto r
    · rw [← (hi.on _ _ (.inl (.inr hact))).proto, hh2.elim id (hl.h2 _)]
      decide
  | @takenH1 x c₀ _ hact hpc hh1 _ _ _ heq =>
    subst heq
    dsimp only
    rw [count_erase_of_proto hi hproto]
    · exact htab hproto r
    · rw [← (hi.on _ _ (.inl (.inr hact))).proto, hh1]
      decide
  | @takenStray x c₀ hev _ _ _ => exact absurd (hev ▸ List.mem_cons_self) (hstray x)
  | dropped _ hne _ _ heq =>
    subst heq
    dsimp only
    rw [count_erase_of_proto hi hproto hne]
    exact htab hproto r
  | @streamTaken x sid _ hfind hrecv _ _ heq =>
    subst heq
    dsimp only
    rw [(hl.remove_perm hint (hl.streams_of_mem hint (List.mem_of_find?_eq_some hfind))).count_eq,
      List.count_erase, List.count_erase]
    exact Nat.sub_le_sub_right (htab hproto r) _
  | @streamDropped x _ _ hact heq =>
    subst heq
    have hmem := hact.resolve_right hlive
    have hs : Streams w x c := ⟨hproto, .inl hmem⟩
    have hin : x ∈ (w.2.conn c).streams :=
      List.count_pos_iff.mp ((List.count_pos_iff.mpr hmem).trans_le (htab hproto x))
    dsimp only
    rw [if_pos (hl.h3 c (List.ne_nil_of_mem hin)).2, (hl.remove_perm hint hs).count_eq,
      List.count_erase, List.count_erase]
    exact Nat.sub_le_sub_right (htab hproto r) _
  | _ => subst_vars; exact htab hproto r

/-- **The books are kept by every move**, as long as no stream closes astray. -/
theorem Turn.books (h : Turn cfg w o w') (hb : Base w) (hi : Routed w) (hl : Laid l w) (hk : Books w)
    (hstray : ∀ r, .strayClose r ∉ l ++ o) : Books w' := by
  have hw : AllPlaced w := hl.allPlaced fun r h => hstray r (List.mem_append_left o h)
  have hw' : AllPlaced w' := (h.laid hb hi hl).allPlaced hstray
  have hso : ∀ r, .strayClose r ∉ o := fun r h => hstray r (List.mem_append_right l h)
  exact ⟨fun _ => hk.wf_step h hw', fun _ hc => hk.inflight_step hl hw h hso hb hc, fun _ hc => hk.h1_step h hc,
    fun _ hc hp => hk.h3_step h hb hc hp, fun _ hc hp _ => hk.tabled_step hl h hb hi hso hc hp⟩

/-! ## The number of connections -/

theorem Turn.room (h : Turn cfg w o w') (hr : w.2.conns.length ≤ poolMaxConns) :
    w'.2.conns.length ≤ poolMaxConns := by
  cases h with
  | act h =>
    cases h
    case move h =>
        cases h
        case «open» H s x p hroom =>
            dsimp only
            rw [Pool.addConn_conns, List.length_append]
            exact hroom
        case remove H s y hclosing =>
            dsimp only
            rw [Pool.removeConn_conns, (swapRemove_perm _ _).length_eq]
            exact (List.length_eraseP_le).trans hr
        all_goals exact hr
    all_goals exact hr
  | _ => exact hr

/-! ## Open streams -/

/-- The stream of a request on a live connection has not been closed. -/
structure StreamsOpen (l : List PoolEvent) (w : PoolWorld) : Prop where
  issued : ∀ c sid b, .streamClosed c sid b ∈ l → sid < 4 * (w.2.conn c).nextStream
  «open» : ∀ r c, Streams w r c → (w.2.conn c).state ≠ .closing → ∀ b, .streamClosed c (w.2.reqs r).h3StreamId b ∉ l

theorem StreamsOpen.empty : StreamsOpen [] ([], Pool.empty) :=
  ⟨fun _ _ _ h => (by cases h), fun _ _ _ _ _ h => (by cases h)⟩

/-- A closed stream leaves no active request behind, unless `h3_fin` was set. -/
theorem Books.not_streams_of_closed {sid : Nat} (hk : Books w) (hl : Laid l w) (hw : AllPlaced w)
    (h : Turn cfg w o w') (hs : .streamClosed c sid false ∈ o) (hlive : (w.2.conn c).state ≠ .closing)
    (hr : Streams w r c) (hsid : (w.2.reqs r).h3StreamId = sid) : ¬ Streams w' r c := by
  obtain ⟨hnil, -, hcase⟩ := h.shown_of_mem hs rfl
  have hint := hl.intact (.inl hlive)
  have hact : r ∈ (w.2.conn c).active := by
    rcases hr.2 with h | h | h
    · exact h
    · rw [hnil] at h; cases h
    · rw [hnil] at h; cases h
  have hmem : r ∈ (w.2.conn c).streams :=
    List.count_pos_iff.mp ((List.count_pos_iff.mpr hact).trans_le (hk.tabled c hlive hr.1 r))
  -- the number leads to `r` itself
  have hfind : poolH3FindStream w.2 c sid = some r := by
    cases hf : poolH3FindStream w.2 c sid with
    | none => exact absurd (by simpa using hsid) (List.find?_eq_none.mp hf r hmem)
    | some y =>
      have hy : (w.2.reqs y).h3StreamId = sid := by simpa using List.find?_some hf
      have hsame := hl.sidNe y r c (hl.streams_of_mem hint (List.mem_of_find?_eq_some hf)) hr (hy.trans hsid.symm)
      rw [hsame]
  rcases hcase with ⟨y, got, hfound, hhand, hactive⟩ | ⟨hfin, hnone⟩
  · rw [hfind] at hfound
    cases hfound
    rintro ⟨-, h | h | h⟩
    · rw [hactive] at h
      exact (hw.nodup_active c).not_mem_erase h
    · rw [hhand] at h
      cases List.mem_singleton.mp h
    · rw [hhand] at h
      cases List.mem_singleton.mp h
  · exfalso
    rw [h3FinSet, hfind] at hfin
    rcases hnone r (hl.h3 c (List.ne_nil_of_mem hmem)).2 hfind with hset | hresp
    · rw [Option.map_some, Option.getD_some, hset] at hfin
      cases hfin
    · obtain ⟨p, hp⟩ := hw r
      have hp' := hp.at_active hact
      subst hp'
      rcases hp.listed rfl with hopen | ⟨x, hx, _⟩
      · rw [hopen] at hresp
        cases hresp
      · rw [hnil] at hx
        cases hx

theorem Turn.streamsOpen (h : Turn cfg w o w') (hb : Base w) (hi : Routed w) (hl : Laid l w) (hk : Books w)
    (hso : StreamsOpen l w) (hstray : ∀ r, .strayClose r ∉ l) (hfin : ∀ c sid, .streamClosed c sid true ∉ o) :
    StreamsOpen (l ++ o) w' where
  issued := by
    intro c sid b hmem
    refine lt_of_lt_of_le ?_ (Nat.mul_le_mul_left 4 (h.change.nextStream_le hb))
    rcases List.mem_append.mp hmem with hmem | hmem
    · exact hso.issued c sid b hmem
    · exact (h.shown_of_mem hmem rfl).2.1
  «open» := by
    intro r c hs' hlive' b hmem
    have hlive := h.live hb hlive'
    rcases h.streams hb hs' with hs | ⟨hhead, hsid, -⟩
    · rw [hl.sid_stays hb hi h hs] at hmem
      rcases List.mem_append.mp hmem with hmem | hmem
      · exact hso.open r c hs hlive b hmem
      · cases b with
        | false => exact hk.not_streams_of_closed hl (hl.allPlaced hstray) h hmem hlive hs rfl hs'
        | true => exact hfin _ _ hmem
    · rw [hsid] at hmem
      rcases List.mem_append.mp hmem with hmem | hmem
      · exact absurd (hso.issued c _ b hmem) (Nat.lt_irrefl _)
      · rw [(h.shown_of_mem hmem rfl).1] at hhead
        cases hhead

/-! ## Every run -/

/-- The books of one connection are exact, after the events `l`. -/
structure Exact (l : List PoolEvent) (s : Pool) (c : ConnId) : Prop where
  inflight : (s.conn c).inflight = (s.conn c).active.length
  tail : (s.conn c).waiting.tail = (s.conn c).waiting.nodes.getLast?
  h1 : (s.conn c).proto = .h1 → (s.conn c).inflight ≤ 1
  h3 : (s.conn c).proto = .h3 → (s.conn c).inflight ≤ poolH3MaxConcurrent
  table : (s.conn c).proto = .h3 → (s.conn c).streams.Perm (s.conn c).active
  ids : (s.conn c).proto = .h3 → ((s.conn c).streams.map fun r => (s.reqs r).h3StreamId).Nodup
  «open» : (s.conn c).proto = .h3 → ∀ r ∈ (s.conn c).active, ∀ b,
    .streamClosed c (s.reqs r).h3StreamId b ∉ l

/-- No stream closes astray. -/
def NoStray (l : List PoolEvent) : Prop := ∀ r, .strayClose r ∉ l

theorem NoStray.left (h : NoStray (l ++ o)) : NoStray l := fun r hr => h r (List.mem_append_left o hr)

theorem Turns.books (h : Turns cfg ([], .empty) l w) (hok : NoStray l) : Routed w ∧ Laid l w ∧ Books w := by
  refine Turns.invariant NoStray (I := fun l w => Routed w ∧ Laid l w ∧ Books w) ?_ ?_ h .empty []
    ⟨.empty, .empty, .empty⟩ hok
  · exact fun l l' h => h.left
  · rintro l w o w' hb ⟨hi, hl, hk⟩ hm hok
    exact ⟨hm.routed hb hi, hm.laid hb hi hl, hm.books hb hi hl hk hok⟩

/-- No stream closes astray, and none whose request has `h3_fin` set already. -/
def NoStaleFin (l : List PoolEvent) : Prop := NoStray l ∧ ∀ c sid, .streamClosed c sid true ∉ l

theorem Turns.streamsOpen (h : Turns cfg ([], .empty) l w) (hok : NoStaleFin l) : StreamsOpen l w := by
  refine (Turns.invariant NoStaleFin (I := fun l w => Routed w ∧ Laid l w ∧ Books w ∧ StreamsOpen l w) ?_ ?_ h .empty []
    ⟨.empty, .empty, .empty, .empty⟩ hok).2.2.2
  · exact fun l l' h => ⟨h.1.left, fun c sid hmem => h.2 c sid (List.mem_append_left l' hmem)⟩
  · rintro l w o w' hb ⟨hi, hl, hk, hso⟩ hm ⟨hstray, hfin⟩
    exact ⟨hm.routed hb hi, hm.laid hb hi hl, hm.books hb hi hl hk hstray, hm.streamsOpen hb hi hl hk hso hstray.left
      (fun c sid hmem => hfin c sid (List.mem_append_right l hmem))⟩

theorem Books.exact (hk : Books w) (hl : Laid l w) (hw : AllPlaced w) (hso : StreamsOpen l w)
    (hlive : (w.2.conn c).state ≠ .closing) : Exact l w.2 c := by
  have hperm : (w.2.conn c).proto = .h3 → (w.2.conn c).streams.Perm (w.2.conn c).active := by
    intro hp
    refine List.perm_iff_count.mpr fun r => Nat.le_antisymm ?_ (hk.tabled c hlive hp r)
    exact hl.table c (hl.intact (.inl hlive)) r
  refine ⟨hk.inflight c hlive, (hk.wf c).tail, hk.h1 c, hk.h3 c hlive, hperm, ?_, ?_⟩
  · intro hp
    have hnd : (w.2.conn c).streams.Nodup := (hperm hp).nodup_iff.mpr (hw.nodup_active c)
    refine hnd.map_on fun r hr r' hr' hsid => ?_
    exact hl.sidNe r r' c ⟨hp, .inl ((hperm hp).subset hr)⟩ ⟨hp, .inl ((hperm hp).subset hr')⟩ hsid
  · exact fun hp r hr => hso.open r c ⟨hp, .inl hr⟩ hlive

/-- **The pool's books are exact** in every state of every run in which no stream closes astray, nor while its
    request still has `h3_fin` set from an attempt before; the number of connections is bounded in any run. -/
theorem pool_books_exact {w : PoolRun} (h : PoolReach cfg w) :
    w.pool.conns.length ≤ poolMaxConns ∧
      (NoStaleFin w.log → ∀ c, (w.pool.conn c).state ≠ .closing → Exact w.log w.pool c) := by
  obtain ⟨ht, -⟩ := h.turns
  constructor
  · exact Turns.preserves (I := fun w => w.2.conns.length ≤ poolMaxConns) (fun _ _ _ _ hr hm => hm.room hr) ht .empty
      (Nat.zero_le _)
  · intro hok c hlive
    obtain ⟨-, hl, hk⟩ := Turns.books ht hok.1
    exact hk.exact hl (hl.allPlaced hok.1) (Turns.streamsOpen ht hok) hlive

end

/-- Two requests on one HTTP/3 connection, the first of which is answered. -/
def streamEndRun : List PoolTurn :=
  [⟨.call (.dispatch .h3 .get (lit "https://a/") false), 5, [.connect none]⟩,
   ⟨.quicRecv 0 [.ready (lit "h3") true] none none, 5, [.h3Submit {}]⟩,
   ⟨.call (.dispatch .h3 .get (lit "https://a/b") false), 5, [.h3Submit {}]⟩,
   ⟨.quicRecv 0 [.streamFin 0 { status := 200 }, .streamClose 0 { status := 200 }] none none, 5, [.calls []]⟩]

theorem pool_books_exact_after_answer :
    ∃ w, PoolReach plainCfg w ∧ (w.pool.conn 0).proto = .h3 ∧ (w.pool.conn 0).active = [1] ∧
      .streamClosed 0 0 false ∈ w.log ∧ w.pool.conns.length ≤ poolMaxConns ∧ Exact w.log w.pool 0 := by
  have hrun : (poolPlay plainCfg streamEndRun).map (fun w => ((w.pool.conn 0).proto, (w.pool.conn 0).active,
      (w.pool.conn 0).state)) = some (.h3, [1], .ready) := by decide +kernel
  have hlog : (poolPlay plainCfg streamEndRun).map (·.log) = some [.dispatched 0, .opened 0 0, .write 0 0,
      .dispatched 1, .write 1 0, .callback 0 { ok := true, status := 200 }, .released 0, .streamClosed 0 0 false] := by
    decide +kernel
  obtain ⟨w, hplay, hw⟩ := Option.map_eq_some_iff.mp hrun
  rw [hplay] at hlog
  simp only [Prod.mk.injEq, Option.map_some, Option.some.injEq] at hw hlog
  obtain ⟨hproto, hact, hstate⟩ := hw
  have hreach := PoolReach.of_play hplay
  obtain ⟨hroom, hexact⟩ := pool_books_exact hreach
  have hok : NoStaleFin w.log := by
    rw [hlog]
    exact ⟨fun r => by simp, fun c sid => by simp⟩
  exact ⟨w, hreach, hproto, hact, by rw [hlog]; decide, hroom, hexact hok 0 (by rw [hstate]; decide)⟩

/-- A stream is closed without an answer, so its request is retried on the connection; then the second
    stream is closed. -/
def staleFinRun : List PoolTurn :=
  [⟨.call (.dispatch .h3 .get (lit "https://a/") false), 5, [.connect none]⟩,
   ⟨.quicRecv 0 [.ready (lit "h3") true] none none, 5, [.h3Submit {}]⟩,
   ⟨.quicRecv 0 [.streamClose 0 {}] none none, 5, [.h3Submit {}]⟩,
   ⟨.quicRecv 0 [.streamClose 4 {}] none none, 5, []⟩]

theorem closed_stream_stays_active :
    ∃ w, PoolReach plainCfg w ∧ (w.pool.conn 0).state ≠ .closing ∧ (w.pool.conn 0).proto = .h3 ∧
      0 ∈ (w.pool.conn 0).active ∧ .streamClosed 0 (w.pool.reqs 0).h3StreamId true ∈ w.log := by
  have hrun : (poolPlay plainCfg staleFinRun).map (fun w => ((w.pool.conn 0).state, (w.pool.conn 0).proto,
      (w.pool.conn 0).active, (w.pool.reqs 0).h3StreamId)) = some (.ready, .h3, [0], 4) := by decide +kernel
  have hlog : (poolPlay plainCfg staleFinRun).map (fun w => decide (.streamClosed 0 4 true ∈ w.log)) = some true := by
    decide +kernel
  obtain ⟨w, hplay, hw⟩ := Option.map_eq_some_iff.mp hrun
  rw [hplay] at hlog
  simp only [Prod.mk.injEq, Option.map_some, Option.some.injEq, decide_eq_true_eq] at hw hlog
  obtain ⟨hstate, hproto, hact, hsid⟩ := hw
  refine ⟨w, PoolReach.of_play hplay, by rw [hstate]; decide, hproto, by rw [hact]; decide, ?_⟩
  rw [hsid]
  exact hlog

end HolyTls

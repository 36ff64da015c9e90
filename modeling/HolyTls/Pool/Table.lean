import HolyTls.Pool.Change
import HolyTls.Pool.Fate
import HolyTls.Pool.Origin

/-!
# `Pool.Table` — `streams[]` and the active list

The HTTP/3 part of a connection has a table of its own, by which answers find their requests. `Laid` says, of
every reachable world, that a table entry is an active request, that two streams of a connection have
different numbers, and that every request is at one place, with the one exception that `Pool.Fate` names.
The three go together: that an entry leaves the table with its request needs the numbers to be different,
and that they are needs a request to be at one place.
-/

namespace HolyTls

open Slots

/-- The request has a stream on the HTTP/3 connection `c`. -/
def Streams (w : PoolWorld) (r : ReqId) (c : ConnId) : Prop :=
  (w.2.conn c).proto = .h3 ∧ (r ∈ (w.2.conn c).active ∨ .streamed r c ∈ w.1 ∨ .sent r c ∈ w.1)

/-- What holds of the lists and the tables after the events `l`. -/
structure Laid (l : List PoolEvent) (w : PoolWorld) : Prop where
  stray : ∀ r, .strayClose r ∈ l → r < w.2.nreq ∧ (w.2.reqs r).proto = .h2
  placed : ∀ r, .strayClose r ∉ l → ∃ p, Placed r w p
  young : ∀ c, (w.2.conn c).state = .handshaking → (w.2.conn c).active = [] ∧ (w.2.conn c).streams = []
  h2 : ∀ c, (w.2.conn c).h2.isSome = true → (w.2.conn c).proto = .h2
  h3 : ∀ c, (w.2.conn c).streams ≠ [] → (w.2.conn c).proto = .h3 ∧ (w.2.conn c).h3c = true
  req : ∀ c r, r ∈ (w.2.conn c).streams → (w.2.reqs r).proto = .h3
  dead : ∀ c a, .failed c true a ∈ l → (w.2.conn c).state = .closing ∧ (w.2.conn c).inRecv = false
  table : ∀ c, (∀ a, .failed c true a ∉ l) → ∀ r, (w.2.conn c).streams.count r ≤ (w.2.conn c).active.count r
  sidLt : ∀ r c, Streams w r c → (w.2.reqs r).h3StreamId < 4 * (w.2.conn c).nextStream
  sidNe : ∀ r r' c, Streams w r c → Streams w r' c → (w.2.reqs r).h3StreamId = (w.2.reqs r').h3StreamId → r = r'

section

variable {cfg : PoolCfg} {w w' : PoolWorld} {o l : List PoolEvent} {r x : ReqId} {c : ConnId} {p : Place}

theorem Laid.empty : Laid [] ([], Pool.empty) := by
  refine ⟨fun r h => (by cases h), fun r _ => ⟨.nowhere, ?_⟩, fun c _ => ⟨rfl, rfl⟩, fun c h => (by cases h),
    fun c h => absurd rfl h, fun c r h => (by cases h), fun c a h => (by cases h), fun c _ r => le_rfl, ?_, ?_⟩
  · exact .empty r
  · rintro r c ⟨hproto, -⟩
    cases hproto
  · rintro r r' c ⟨hproto, -⟩
    cases hproto

/-! ## What a move does to the streams -/

/-- Stream numbers are never handed out twice. -/
theorem Change.nextStream_le {pc' : PoolConn} (hb : Base w) (h : Change cfg w o c pc') :
    (w.2.conn c).nextStream ≤ pc'.nextStream := by
  cases h with
  | quiet h => exact h.next.ge
  | born hc hfree heq =>
    rw [hb.fresh c hc.ge]
    exact Nat.zero_le _
  | streamOpened hhand hproto heq => rw [heq]; exact Nat.le_succ _
  | _ => subst_vars; exact le_rfl

/-- Only a request that has been sent becomes active on an HTTP/3 connection. -/
theorem Change.active_h3 {pc' : PoolConn} (h : Change cfg w o c pc') (hproto : pc'.proto = .h3)
    (hr : r ∈ pc'.active) : (w.2.conn c).proto = .h3 ∧ (r ∈ (w.2.conn c).active ∨ .sent r c ∈ w.1) := by
  cases h with
  | quiet h => exact ⟨h.proto ▸ hproto, Or.inl (h.active ▸ hr)⟩
  | born hc hfree heq | failed hlive hrecv hev heq =>
    subst heq
    cases hr
  | written hhand hh1 hcap hev heq =>
    subst heq
    rw [hh1] at hproto
    cases hproto
  | activated hhand hh2 hev heq =>
    subst heq
    rw [hh2] at hproto
    cases hproto
  | activatedH3 hhand hh3 hrecv hh3c hev heq =>
    subst heq
    refine ⟨hh3, ?_⟩
    rcases List.mem_cons.mp hr with rfl | hr
    · exact Or.inr hhand
    · exact Or.inl hr
  | taken | takenH1 | takenStray | dropped | streamTaken | streamDropped =>
    subst_vars
    exact ⟨hproto, Or.inl (List.mem_of_mem_erase hr)⟩
  | _ => subst_vars; exact ⟨hproto, Or.inl hr⟩

theorem Turn.streams (h : Turn cfg w o w') (hb : Base w) (hs : Streams w' r c) :
    Streams w r c ∨ w.1.head? = some (.sub r c) ∧ (w'.2.reqs r).h3StreamId = 4 * (w.2.conn c).nextStream ∧
      (w'.2.conn c).nextStream = (w.2.conn c).nextStream + 1 := by
  obtain ⟨hproto, hs⟩ := hs
  have hold : c < w.2.nconn → (w.2.conn c).proto = .h3 := fun hc => (h.lasts.conn c hc).proto ▸ hproto
  rcases hs with hs | hs | hs
  · obtain ⟨hproto, hs⟩ := h.change.active_h3 hproto hs
    exact Or.inl ⟨hproto, hs.imp_right Or.inr⟩
  · refine (h.comes hs).imp_left fun hs => ?_
    exact ⟨hold (hb.hand _ hs).2, Or.inr (Or.inl hs)⟩
  · left
    rcases h.comes hs with hs | hs | ⟨hs, hh2⟩
    · exact ⟨hold (hb.hand _ hs).2, Or.inr (Or.inr hs)⟩
    · exact ⟨hold (hb.hand _ hs).2, Or.inr (Or.inl hs)⟩
    · rw [hold (hb.hand _ hs).2] at hh2
      cases hh2

/-- A request gets into a table when it becomes active. -/
theorem Turn.mem_streams (h : Turn cfg w o w') (hr : r ∈ (w'.2.conn c).streams) :
    r ∈ (w.2.conn c).streams ∨ .sent r c ∈ w.1 ∧ (w.2.conn c).proto = .h3 ∧ (w.2.conn c).h3c = true ∧
      (w'.2.conn c).proto = .h3 ∧ (w'.2.conn c).h3c = true := by
  have hch := h.change (c := c)
  generalize w'.2.conn c = pc' at hch hr
  cases hch with
  | quiet h => exact Or.inl (h.streams ▸ hr)
  | born hc' hfree heq =>
    subst heq
    cases hr
  | activatedH3 hhand hproto hrecv hh3c hev heq =>
    subst heq
    dsimp only at hr ⊢
    split at hr
    · rcases List.mem_append.mp hr with hr | hr
      · exact Or.inl hr
      · cases List.mem_singleton.mp hr
        exact Or.inr ⟨hhand, hproto, hh3c, hproto, hh3c⟩
    · exact Or.inl hr
  | streamTaken _ _ _ _ _ heq =>
    subst heq
    exact Or.inl (mem_of_mem_swapRemove hr)
  | streamDropped _ _ _ heq =>
    subst heq
    dsimp only at hr
    split at hr
    · exact Or.inl (mem_of_mem_swapRemove hr)
    · exact Or.inl hr
  | _ =>
    subst_vars
    exact Or.inl hr

/-! ## One step -/

theorem Streams.on (hs : Streams w r c) : On w r c := by
  rcases hs.2 with h | h | h
  · exact Or.inl (Or.inr h)
  · exact Or.inr ⟨_, h, rfl, rfl⟩
  · exact Or.inr ⟨_, h, rfl, rfl⟩

theorem Streams.proto (hi : Routed w) (hs : Streams w r c) : (w.2.reqs r).proto = .h3 :=
  (hi.on r c hs.on).proto ▸ hs.1

namespace Laid

/-- A request with a stream has not been closed astray. -/
theorem not_stray (hl : Laid l w) (hproto : (w.2.reqs r).proto = .h3) : .strayClose r ∉ l := by
  intro h
  rw [(hl.stray r h).2] at hproto
  cases hproto

/-- A request with a stream does not get another one. -/
theorem not_sub (hl : Laid l w) (hi : Routed w) (hs : Streams w r c) {c' : ConnId} : .sub r c' ∉ w.1 := by
  intro hsub
  obtain ⟨p, hp⟩ := hl.placed r (hl.not_stray (hs.proto hi))
  have hsub := hp.at_mem hsub rfl rfl
  rcases hs.2 with h | h | h
  · cases hsub ▸ hp.at_active h
  · cases hsub ▸ hp.at_mem h rfl rfl
  · cases hsub ▸ hp.at_mem h rfl rfl

theorem sid_stays (hl : Laid l w) (hb : Base w) (hi : Routed w) (h : Turn cfg w o w') (hs : Streams w r c) :
    (w'.2.reqs r).h3StreamId = (w.2.reqs r).h3StreamId := by
  cases h.reqChange (r := r) with
  | same h => exact h.sid
  | born hr => exact absurd (hb.on_lt hs.on).1 (by rw [hr]; exact Nat.lt_irrefl _)
  | streamOpened hhand hproto hsid hnext hh1 => exact absurd hhand (hl.not_sub hi hs)
  | reset _ _ hsid | started _ _ _ hsid | fed _ _ _ _ _ hsid | eof _ _ _ _ hsid => exact hsid

/-- A connection that is open or read from has not failed with entries in its table. -/
theorem intact (hl : Laid l w) (hc : (w.2.conn c).state ≠ .closing ∨ (w.2.conn c).inRecv = true) (a : Bool) :
    .failed c true a ∉ l := by
  intro hf
  obtain ⟨hstate, hrecv⟩ := hl.dead c a hf
  rcases hc with hc | hc
  · exact hc hstate
  · rw [hrecv] at hc
    cases hc

theorem active_of_mem (hl : Laid l w) (hc : ∀ a, .failed c true a ∉ l) (hr : r ∈ (w.2.conn c).streams) :
    r ∈ (w.2.conn c).active :=
  List.count_pos_iff.mp ((List.count_pos_iff.mpr hr).trans_le (hl.table c hc r))

theorem streams_of_mem (hl : Laid l w) (hc : ∀ a, .failed c true a ∉ l) (hr : r ∈ (w.2.conn c).streams) :
    Streams w r c :=
  ⟨(hl.h3 c (List.ne_nil_of_mem hr)).1, Or.inl (hl.active_of_mem hc hr)⟩

/-- The request that leaves the table is the one whose number is looked for. -/
theorem remove_perm (hl : Laid l w) (hc : ∀ a, .failed c true a ∉ l) (hr : Streams w r c) :
    (swapRemove (fun x => (w.2.reqs x).h3StreamId == (w.2.reqs r).h3StreamId) (w.2.conn c).streams).Perm
      ((w.2.conn c).streams.erase r) := by
  apply swapRemove_perm_erase
  intro x hx hsid
  exact hl.sidNe x r c (hl.streams_of_mem hc hx) hr hsid

theorem young_step (hl : Laid l w) (h : Turn cfg w o w') (hc : (w'.2.conn c).state = .handshaking) :
    (w'.2.conn c).active = [] ∧ (w'.2.conn c).streams = [] := by
  have hch := h.change (c := c)
  generalize w'.2.conn c = pc' at hch hc
  have hyoung := hl.young c
  cases hch with
  | quiet h =>
    rw [h.active, h.streams]
    exact hyoung (h.state ▸ hc)
  | born hc' hfree heq =>
    subst heq
    exact ⟨rfl, rfl⟩
  | written hhand hproto hcap hev heq =>
    subst heq
    rw [(ready_of_capacity hcap).1] at hc
    cases hc
  | activated hhand hproto hev heq | activatedH3 hhand hproto hrecv hh3c hev heq =>
    subst heq
    rcases hev with ⟨-, hst⟩ | hsub
    · rw [hst] at hc
      cases hc
    · rw [hsub.ready] at hc
      cases hc
  | taken _ _ _ _ heq | takenH1 _ _ _ _ _ _ heq | takenStray _ _ _ heq | dropped _ _ _ _ heq =>
    subst heq
    exact ⟨by rw [(hyoung hc).1]; rfl, (hyoung hc).2⟩
  | streamTaken _ _ _ _ _ heq =>
    subst heq
    exact ⟨by rw [(hyoung hc).1]; rfl, by rw [(hyoung hc).2]; rfl⟩
  | streamDropped _ _ _ heq =>
    subst heq
    refine ⟨by rw [(hyoung hc).1]; rfl, ?_⟩
    rw [(hyoung hc).2]
    exact ite_self _
  | readied _ _ _ _ _ heq | failed _ _ _ heq | closed _ heq =>
    subst heq
    cases hc
  | _ =>
    subst_vars
    exact hyoung hc

theorem h2_step (hl : Laid l w) (h : Turn cfg w o w') (hc : (w'.2.conn c).h2.isSome = true) :
    (w'.2.conn c).proto = .h2 := by
  have hch := h.change (c := c)
  generalize w'.2.conn c = pc' at hch hc
  cases hch with
  | quiet h => exact h.proto.trans (hl.h2 c (h.h2 ▸ hc))
  | born hc' hfree heq =>
    subst heq
    cases hc
  | readied h2 h3c hstate hh2 hh3 heq =>
    subst heq
    rcases hh2 with rfl | hh2
    · exact hl.h2 c hc
    · exact hh2
  | _ =>
    subst_vars
    exact hl.h2 c hc

theorem h3_step (hl : Laid l w) (h : Turn cfg w o w') (hb : Base w) (hc : (w'.2.conn c).streams ≠ []) :
    (w'.2.conn c).proto = .h3 ∧ (w'.2.conn c).h3c = true := by
  obtain ⟨r, hr⟩ := List.exists_mem_of_ne_nil _ hc
  rcases h.mem_streams hr with hr | ⟨-, -, -, hproto, hh3c⟩
  · have hlt : c < w.2.nconn := hb.lt_of_refers (H := w.1) (Or.inr (Or.inr hr))
    obtain ⟨hproto, hh3c⟩ := hl.h3 c (List.ne_nil_of_mem hr)
    refine ⟨(h.lasts.conn c hlt).proto.trans hproto, ?_⟩
    have hch := h.change (c := c)
    generalize w'.2.conn c = pc' at hch
    cases hch with
    | quiet h => exact h.h3c.trans hh3c
    | born hc' hfree heq => exact absurd hlt (by rw [hc']; exact Nat.lt_irrefl _)
    | readied h2 h3c hstate hh2 hh3 heq =>
      rw [(hl.young c hstate).2] at hr
      cases hr
    | _ =>
      subst_vars
      exact hh3c
  · exact ⟨hproto, hh3c⟩

theorem req_step (hl : Laid l w) (h : Turn cfg w o w') (hb : Base w) (hi : Routed w)
    (hr : r ∈ (w'.2.conn c).streams) : (w'.2.reqs r).proto = .h3 := by
  rcases h.mem_streams hr with hr | ⟨hhand, hproto, -⟩
  · rw [(h.lasts.req r (hb.lists c r (Or.inr (Or.inr hr)))).proto]
    exact hl.req c r hr
  · have hs : Streams w r c := ⟨hproto, Or.inr (Or.inr hhand)⟩
    rw [(h.lasts.req r (hb.on_lt hs.on).1).proto]
    exact hs.proto hi

theorem dead_step (hl : Laid l w) (h : Turn cfg w o w') (hb : Base w) {a : Bool} (hf : .failed c true a ∈ l ++ o) :
    (w'.2.conn c).state = .closing ∧ (w'.2.conn c).inRecv = false := by
  rcases List.mem_append.mp hf with hf | hf
  · obtain ⟨hstate, hrecv⟩ := hl.dead c a hf
    have hch := h.change (c := c)
    generalize w'.2.conn c = pc' at hch
    cases hch with
    | quiet h => exact ⟨h.state.trans hstate, h.inRecv.trans hrecv⟩
    | born hc hfree heq =>
      rw [hb.fresh c hc.ge] at hstate
      cases hstate
    | readied h2 h3c hstate' hh2 hh3 heq =>
      rw [hstate] at hstate'
      cases hstate'
    | reading b hb heq =>
      subst heq
      exact ⟨hstate, Bool.eq_false_iff.mpr (fun h => hb h hstate)⟩
    | failed _ _ _ heq | closed _ heq =>
      subst heq
      exact ⟨rfl, hrecv⟩
    | _ =>
      subst_vars
      exact ⟨hstate, hrecv⟩
  · obtain ⟨hstate, hrecv', hrecv, htab⟩ := h.shown_of_mem hf rfl
    refine ⟨hstate, hrecv'.trans (hrecv.resolve_right ?_)⟩
    -- during the handshake the table is empty
    intro hyoung
    rw [(hl.young c hyoung).2] at htab
    cases htab

/-- A request that is taken off by another protocol is not in the table. -/
theorem table_erase (hl : Laid l w) (hc : ∀ a, .failed c true a ∉ l) (hx : (w.2.reqs x).proto ≠ .h3) :
    (w.2.conn c).streams.count r ≤ ((w.2.conn c).active.erase x).count r := by
  rcases eq_or_ne r x with rfl | hr
  · have hno : r ∉ (w.2.conn c).streams := fun h => hx (hl.req c r h)
    rw [List.count_eq_zero.mpr hno]
    exact Nat.zero_le _
  · rw [List.count_erase_of_ne hr]
    exact hl.table c hc r

theorem table_step (hl : Laid l w) (h : Turn cfg w o w') (hi : Routed w) (hc' : ∀ a, .failed c true a ∉ l ++ o) :
    (w'.2.conn c).streams.count r ≤ (w'.2.conn c).active.count r := by
  have hc : ∀ a, .failed c true a ∉ l := fun a h => hc' a (List.mem_append_left o h)
  have htab := hl.table c hc r
  have hch := h.change (c := c)
  generalize w'.2.conn c = pc' at hch
  cases hch with
  | quiet h =>
    rw [h.streams, h.active]
    exact htab
  | born hc' hfree heq =>
    subst heq
    exact le_rfl
  | written hhand hproto hcap hev heq | activated hhand hproto hev heq =>
    subst heq
    exact htab.trans (List.count_le_count_cons)
  | activatedH3 hhand hproto hrecv hh3c hev heq =>
    subst heq
    dsimp only
    split
    · rw [List.count_append, List.count_singleton, List.count_cons]
      exact Nat.add_le_add_right htab _
    · exact htab.trans (List.count_le_count_cons)
  | taken hact hpc hproto hopen heq =>
    subst heq
    refine hl.table_erase hc ?_
    have hh2 := hproto.elim id (hl.h2 _)
    rw [← (hi.on _ _ (Or.inl (Or.inr hact))).proto, hh2]
    decide
  | takenH1 hact hpc hproto hopen hh1 hdel heq =>
    subst heq
    refine hl.table_erase hc ?_
    rw [← (hi.on _ _ (Or.inl (Or.inr hact))).proto, hproto]
    decide
  | @takenStray x c₀ hev hhand hproto heq =>
    subst heq
    refine hl.table_erase hc ?_
    rw [← (hi.on x c₀ (Or.inr ⟨_, hhand, rfl, rfl⟩)).proto, hproto]
    decide
  | dropped hhand hproto hact hev heq =>
    subst heq
    exact hl.table_erase hc hproto
  | @streamTaken x sid hcalm hfind hrecv hopen hev heq =>
    subst heq
    have hmem : x ∈ (w.2.conn c).streams := List.mem_of_find?_eq_some hfind
    dsimp only
    rw [(hl.remove_perm hc (hl.streams_of_mem hc hmem)).count_eq, List.count_erase, List.count_erase]
    exact Nat.sub_le_sub_right htab _
  | @streamDropped x hhand hproto hact heq =>
    subst heq
    dsimp only
    by_cases hx : x ∈ (w.2.conn c).active
    · split
      · by_cases hempty : (w.2.conn c).streams = []
        · rw [hempty]
          exact Nat.zero_le _
        · have hs : Streams w x c := ⟨(hl.h3 c hempty).1, Or.inl hx⟩
          rw [(hl.remove_perm hc hs).count_eq, List.count_erase, List.count_erase]
          exact Nat.sub_le_sub_right htab _
      · next hh3c =>
          have hempty : (w.2.conn c).streams = [] := by
            by_contra hne
            exact hh3c (hl.h3 c hne).2
          rw [hempty]
          exact Nat.zero_le _
    · -- the connection has failed meanwhile: a table entry may go, no active request does
      rw [List.erase_of_not_mem hx]
      split
      · exact (count_swapRemove_le _ _ r).trans htab
      · exact htab
  | failed hlive hrecv hev heq =>
    subst heq
    have hempty : (w.2.conn c).streams.isEmpty = true := by
      by_contra hne
      refine hc' (w.2.answers c) (List.mem_append_right l ?_)
      rw [hev, Bool.eq_false_iff.mpr hne]
      exact List.mem_cons_self
    rw [List.isEmpty_iff.mp hempty]
  | _ =>
    subst_vars
    exact htab

end Laid

/-- **The lists and tables are laid out after every move.** -/
theorem Turn.laid (h : Turn cfg w o w') (hb : Base w) (hi : Routed w) (hl : Laid l w) : Laid (l ++ o) w' where
  stray := by
    intro r hr
    rcases List.mem_append.mp hr with hr | hr
    · obtain ⟨hlt, hproto⟩ := hl.stray r hr
      exact ⟨hlt.trans_le h.lasts.nreq, (h.lasts.req r hlt).proto.trans hproto⟩
    · obtain ⟨c, hsent, hproto⟩ := h.shown_of_mem hr rfl
      have hlt := (hb.hand _ hsent).1
      refine ⟨hlt.trans_le h.lasts.nreq, (h.lasts.req r hlt).proto.trans ?_⟩
      rw [← (hi.on r c (Or.inr ⟨_, hsent, rfl, rfl⟩)).proto, hproto]
  placed := by
    intro r hr
    rw [List.mem_append, not_or] at hr
    obtain ⟨p, hp⟩ := hl.placed r hr.1
    obtain ⟨p', hp', -⟩ := h.fate hb hp hr.2
      (fun _ hrecv _ hmem => hl.active_of_mem (hl.intact (Or.inr hrecv)) hmem)
    exact ⟨p', hp'⟩
  young := fun _ hc => hl.young_step h hc
  h2 := fun _ hc => hl.h2_step h hc
  h3 := fun _ hc => hl.h3_step h hb hc
  req := fun _ _ hr => hl.req_step h hb hi hr
  dead := fun _ _ hf => hl.dead_step h hb hf
  table := fun _ hc _ => hl.table_step h hi hc
  sidLt := by
    intro r c hs
    rcases h.streams hb hs with hs | ⟨-, hsid, hnext⟩
    · rw [hl.sid_stays hb hi h hs]
      exact (hl.sidLt r c hs).trans_le (Nat.mul_le_mul_left 4 (h.change.nextStream_le hb))
    · rw [hsid, hnext]
      omega
  sidNe := by
    intro r r' c hs hs' hsid
    rcases h.streams hb hs with hs | ⟨hhead, hnew, hnext⟩ <;>
      rcases h.streams hb hs' with hs' | ⟨hhead', hnew', hnext'⟩
    · rw [hl.sid_stays hb hi h hs, hl.sid_stays hb hi h hs'] at hsid
      exact hl.sidNe r r' c hs hs' hsid
    · have hlt := hl.sidLt r c hs
      rw [hl.sid_stays hb hi h hs, hnew'] at hsid
      omega
    · have hlt := hl.sidLt r' c hs'
      rw [hl.sid_stays hb hi h hs', hnew] at hsid
      omega
    · rw [hhead, Option.some_inj] at hhead'
      cases hhead'
      rfl

/-- They are after every run, and requests ride connections that suit them. -/
theorem Turns.laid (h : Turns cfg w o w') (hb : Base w) (hi : Routed w) (hl : Laid l w) :
    Routed w' ∧ Laid (l ++ o) w' := by
  refine Turns.invariant (fun _ => True) (I := fun l w => Routed w ∧ Laid l w) (fun _ _ _ => trivial) ?_ h hb l
    ⟨hi, hl⟩ trivial
  rintro l w o w' hb ⟨hi, hl⟩ hm -
  exact ⟨hm.routed hb hi, hm.laid hb hi hl⟩

end

end HolyTls

import HolyTls.Net.ConnSweep

/-!
# `Net.ConnLife` — what the owner of a connection is told

`on_ready` reports once, as success or failure; in the 0-RTT window `on_early_ready` comes before it; and the
end of an established connection is reported by `on_closed`. One state field serves all phases, and
`conn_fail` reports only through `on_ready`: a write that is refused after `on_ready` reported success leaves
the connection failed without a word, and the end of the stream is then taken for one more failure before
`on_ready` (`death_unreported`). It can also report between a handshake step that opens the 0-RTT window and
`on_early_ready`. `LifeInv` is what every turn keeps when no write is refused at such a moment.
-/

namespace HolyTls.Net

open Prog Runs

variable {c : Connection} {l o : List ConnEvent}

/-! ## What the log tells -/

namespace ConnEvent

def isReady : ConnEvent → Bool
  | .onReady _ => true
  | _ => false

def isEarly : ConnEvent → Bool
  | .onEarlyReady => true
  | _ => false

def isClosed : ConnEvent → Bool
  | .onClosed _ => true
  | _ => false

def isEnd : ConnEvent → Bool
  | .readEnd _ => true
  | _ => false

def isRefused : ConnEvent → Bool
  | .refused _ => true
  | _ => false

def isClose : ConnEvent → Bool
  | .closeCall _ => true
  | _ => false

/-- An event that `LifeInv` counts. -/
def isTold (e : ConnEvent) : Bool := e.isReady || e.isEarly || e.isClosed || e.isEnd || e.isClose

end ConnEvent

open ConnEvent

/-- Success was reported and the owner has not closed the connection. -/
def Up (l : List ConnEvent) : Prop := .onReady none ∈ l ∧ ∀ e ∈ l, e.isClose = false

/-- The stream has ended on a connection that was up. -/
def Due (l : List ConnEvent) : Prop := ∃ a err b, l = a ++ .readEnd err :: b ∧ Up a

/-- What the owner is told: each of `on_ready` and `on_early_ready` once, in this order or the second not at
    all, and the end of a connection that was up exactly once. -/
structure Reports (l : List ConnEvent) : Prop where
  ready : l.countP isReady ≤ 1
  early : l.countP isEarly ≤ 1
  order : QuietAfter isReady isEarly l
  closed : Due l → l.countP isClosed = 1

/-- The moments at which a write is not refused: after success was reported, as long as the stream has not
    ended; and after a handshake step has opened the 0-RTT window, until `on_early_ready` has said so. And the
    window is not opened for the first time on a connection whose `on_ready` has been called. -/
def InTime (a : List ConnEvent) (e : ConnEvent) : Prop :=
  (e.isRefused = true →
      (.onReady none ∈ a → ∃ x ∈ a, x.isEnd = true) ∧ (.handshake .earlyData ∈ a → .onEarlyReady ∈ a)) ∧
    (e = .handshake .earlyData → (∃ x ∈ a, x.isReady = true) → .onEarlyReady ∈ a)

instance (a : List ConnEvent) (e : ConnEvent) : Decidable (InTime a e) :=
  inferInstanceAs (Decidable (_ ∧ _))

theorem Up.of_append (h : Up (l ++ o)) (ho : .onReady none ∉ o) : Up l :=
  ⟨(List.mem_append.mp h.1).resolve_right ho, fun e he => h.2 e (List.mem_append_left o he)⟩

/-- Only an end of the stream makes a report due. -/
theorem Due.of_append (h : Due (l ++ o)) (ho : ∀ e ∈ o, e.isEnd = false) : Due l := by
  obtain ⟨a, err, b, heq, hup⟩ := h
  rcases List.append_eq_append_iff.mp heq with ⟨a', -, ho'⟩ | ⟨rest, hl, hrest⟩
  · cases ho (.readEnd err) (by simp [ho'])
  · cases rest with
    | nil => cases ho (.readEnd err) (by simp [← (show _ = o from hrest)])
    | cons x rest =>
      obtain ⟨rfl, -⟩ := List.cons.inj hrest
      exact ⟨a, err, rest, hl, hup⟩

/-- A report is due already, or it becomes due now. -/
theorem Due.of_end {err : Option Str8} (h : Due (l ++ .readEnd err :: o)) (ho : ∀ e ∈ o, e.isEnd = false) :
    Due l ∨ Up l := by
  have h' : Due (l ++ [.readEnd err]) := by
    apply Due.of_append (o := o) _ ho
    simpa using h
  obtain ⟨a, err', b, heq, hup⟩ := h'
  rcases List.eq_nil_or_concat b with rfl | ⟨b, y, rfl⟩
  · obtain ⟨rfl, -⟩ := List.append_inj' heq rfl
    exact .inr hup
  · rw [List.concat_eq_append, ← List.cons_append, ← List.append_assoc] at heq
    exact .inl ⟨a, err', b, (List.append_inj' heq rfl).1, hup⟩

/-! ## The invariant -/

/-- What has been told, and what the connection remembers of it. -/
structure LifeInv (l : List ConnEvent) (w : ConnWorld) : Prop where
  ready : l.countP isReady = if w.2.readyFired then 1 else 0
  early : l.countP isEarly = if w.2.earlyFired then 1 else 0
  order : QuietAfter isReady isEarly l
  -- the status of a handshake step that is to be acted on
  window : w.1 = some .earlyData → w.2.earlyFired = false →
    w.2.readyFired = false ∧ .handshake .earlyData ∈ l
  done : w.1 = some .done → w.2.established = true
  tls : w.2.state = .established → w.2.established = true
  -- at most one report of the end, and never another phase after it
  once : l.countP isClosed = 0 ∨
    (l.countP isClosed = 1 ∧ w.2.established = true ∧ w.2.state ≠ .established ∧ w.1 = none)
  passed : .onReady none ∈ l → w.2.established = true ∧ w.1 = none
  live : Up l → w.2.state = .established ∨ l.countP isClosed = 1
  ended : (∃ e ∈ l, e.isEnd = true) → w.2.readyFired = true ∨ l.countP isClosed = 1
  gone : Up l → (∃ e ∈ l, e.isEnd = true) → l.countP isClosed = 1
  due : Due l → l.countP isClosed = 1

theorem LifeInv.init : LifeInv [] (none, {}) where
  ready := rfl
  early := rfl
  order := trivial
  window := fun h => by cases h
  done := fun h => by cases h
  tls := fun h => by cases h
  once := .inl rfl
  passed := fun h => by cases h
  live := fun h => by cases h.1
  ended := fun ⟨e, he, _⟩ => by cases he
  gone := fun h => by cases h.1
  due := fun ⟨a, _, _, h, _⟩ => by simp at h

theorem LifeInv.reports {w : ConnWorld} (h : LifeInv l w) : Reports l where
  ready := by
    rw [h.ready]
    split <;> decide
  early := by
    rw [h.early]
    split <;> decide
  order := h.order
  closed := h.due

section

variable {l o : List ConnEvent} {g g' : Option HsStatus} {c c' : Connection}

theorem countP_others {f : ConnEvent → Bool} (ho : ∀ e ∈ o, f e = false) : (l ++ o).countP f = l.countP f := by
  rw [List.countP_append, Nat.add_eq_left]
  apply List.countP_eq_zero.mpr
  intro e he
  simp [ho e he]

theorem countP_untold {f : ConnEvent → Bool} (hf : ∀ e, f e = true → e.isTold = true)
    (ho : ∀ e ∈ o, e.isTold = false) : (l ++ o).countP f = l.countP f := by
  apply countP_others
  intro e he
  by_contra hfe
  have htold := ho e he
  rw [hf e (Bool.not_eq_false _ ▸ hfe)] at htold
  cases htold

theorem not_mem_untold {e : ConnEvent} (ho : ∀ e ∈ o, e.isTold = false) (he : e.isTold = true) : e ∉ o := by
  intro hm
  rw [ho e hm] at he
  cases he

/-- A step that tells nothing. What success, or the report of the end, has fixed has to stay. -/
theorem LifeInv.shift (h : LifeInv l (g, c)) (ho : ∀ e ∈ o, e.isTold = false)
    (hr : c'.readyFired = c.readyFired) (he : c'.earlyFired = c.earlyFired)
    (hwin : g' = some .earlyData → c.earlyFired = false →
      c.readyFired = false ∧ .handshake .earlyData ∈ l ++ o)
    (hdone : g' = some .done → c'.established = true)
    (htls : c'.state = .established → c'.established = true)
    (hkeep : .onReady none ∈ l ∨ l.countP isClosed = 1 →
      c'.established = c.established ∧ c'.state = c.state ∧ g' = g) : LifeInv (l ++ o) (g', c') := by
  have hready : (l ++ o).countP isReady = l.countP isReady :=
    countP_untold (fun e hf => by simp [isTold, hf]) ho
  have hearly : (l ++ o).countP isEarly = l.countP isEarly :=
    countP_untold (fun e hf => by simp [isTold, hf]) ho
  have hclosed : (l ++ o).countP isClosed = l.countP isClosed :=
    countP_untold (fun e hf => by simp [isTold, hf]) ho
  have hmem : .onReady none ∈ l ++ o → .onReady none ∈ l := fun hm =>
    (List.mem_append.mp hm).resolve_right (not_mem_untold ho rfl)
  have hup : Up (l ++ o) → Up l := fun hu => hu.of_append (not_mem_untold ho rfl)
  have hend : ∀ e ∈ o, e.isEnd = false := by
    intro e hm
    by_contra hf
    exact not_mem_untold ho (by simp [isTold, hf]) hm
  have hended : (∃ e ∈ l ++ o, e.isEnd = true) → ∃ e ∈ l, e.isEnd = true := by
    rintro ⟨e, hm, hf⟩
    rcases List.mem_append.mp hm with hm | hm
    · exact ⟨e, hm, hf⟩
    · rw [hend e hm] at hf
      cases hf
  constructor
  case ready =>
    rw [hready, h.ready, hr]
  case early =>
    rw [hearly, h.early, he]
  case order =>
    apply h.order.append_other
    intro e hm
    by_contra hf
    exact not_mem_untold ho (by simp [isTold, hf]) hm
  case window =>
    intro hg hf
    rw [hr]
    exact hwin hg (he ▸ hf)
  case done =>
    exact hdone
  case tls =>
    exact htls
  case once =>
    rw [hclosed]
    refine h.once.imp id ?_
    rintro ⟨hone, hest, hst, hg⟩
    obtain ⟨hest', hst', hg'⟩ := hkeep (.inr hone)
    exact ⟨hone, hest'.trans hest, fun hs => hst (hst' ▸ hs), hg'.trans hg⟩
  case passed =>
    intro hm
    obtain ⟨hest, hg⟩ := h.passed (hmem hm)
    obtain ⟨hest', -, hg'⟩ := hkeep (.inl (hmem hm))
    exact ⟨hest'.trans hest, hg'.trans hg⟩
  case live =>
    intro hu
    rw [hclosed]
    obtain ⟨-, hst', -⟩ := hkeep (.inl (hup hu).1)
    exact (h.live (hup hu)).imp (fun hs => hst'.trans hs) id
  case ended =>
    intro hex
    rw [hclosed, hr]
    exact h.ended (hended hex)
  case gone =>
    intro hu hex
    rw [hclosed]
    exact h.gone (hup hu) (hended hex)
  case due =>
    intro hd
    rw [hclosed]
    exact h.due (hd.of_append hend)

/-- A step that tells nothing and leaves what is remembered of the reports. -/
theorem LifeInv.still (h : LifeInv l (g, c)) (ho : ∀ e ∈ o, e.isTold = false)
    (hr : c'.readyFired = c.readyFired) (he : c'.earlyFired = c.earlyFired)
    (hest : c'.established = c.established) (hst : c'.state = c.state) : LifeInv (l ++ o) (g, c') := by
  refine h.shift ho hr he ?_ ?_ ?_ (fun _ => ⟨hest, hst, rfl⟩)
  · intro hg hf
    obtain ⟨hready, hm⟩ := h.window hg hf
    exact ⟨hready, List.mem_append_left o hm⟩
  · intro hg
    exact hest.trans (h.done hg)
  · intro hs
    exact hest.trans (h.tls (hst ▸ hs))

/-- With a status in hand nothing is fixed yet. -/
theorem LifeInv.open_of_status {st : HsStatus} (h : LifeInv l (some st, c)) :
    ¬ (.onReady none ∈ l ∨ l.countP isClosed = 1) := by
  rintro (hm | hone)
  · cases (h.passed hm).2
  · rcases h.once with hz | ⟨-, -, -, hg⟩
    · omega
    · cases hg

/-- Nor before the handshake. -/
theorem LifeInv.open_of_tls (h : LifeInv l (g, c)) (hest : c.established = false) :
    ¬ (.onReady none ∈ l ∨ l.countP isClosed = 1) := by
  have hno : ¬ c.established = true := Bool.eq_false_iff.mp hest
  rintro (hm | hone)
  · exact hno (h.passed hm).1
  · rcases h.once with hz | ⟨-, hest', -⟩
    · omega
    · exact hno hest'

theorem LifeInv.early_fired (h : LifeInv l (g, c)) (hm : .onEarlyReady ∈ l) : c.earlyFired = true := by
  by_contra hf
  have hcount := h.early
  rw [if_neg hf] at hcount
  exact absurd (List.countP_eq_zero.mp hcount _ hm) (by simp [isEarly])

theorem LifeInv.not_fired (h : LifeInv l (g, c)) (hno : ∀ e ∈ l, e.isReady = false) : c.readyFired = false := by
  by_contra hf
  have hcount := h.ready
  rw [if_pos (Bool.not_eq_false _ ▸ hf)] at hcount
  have hzero : l.countP isReady = 0 := List.countP_eq_zero.mpr (fun e he => by simp [hno e he])
  omega

/-- `on_ready` has reported a failure by now; the end of the stream may have been the reason. -/
theorem LifeInv.told (h : LifeInv l (g, c)) {ev rep : List ConnEvent} (hready : c'.readyFired = true)
    (hcount : l.countP isReady + rep.countP isReady = 1) (hearly : c'.earlyFired = c.earlyFired)
    (hest : c'.established = c.established) (hst : c'.state = .failed ∨ c'.state = c.state)
    (hrep : ∀ e ∈ rep, ∃ reason, e = .onReady (some reason))
    (hev : (∀ e ∈ ev, e.isTold = false) ∨ ∃ err, ev = [.readEnd err])
    (hwin : g = some .earlyData → c.earlyFired = true) (hgone : Up l → l.countP isClosed = 1) :
    LifeInv (l ++ (ev ++ rep)) (g, c') := by
  have hkind : ∀ e ∈ ev ++ rep, e.isEarly = false ∧ e.isClosed = false ∧ e ≠ .onReady none := by
    intro e he
    rcases List.mem_append.mp he with he | he
    · rcases hev with hev | ⟨err, rfl⟩
      · have htold := hev e he
        simp only [isTold, Bool.or_eq_false_iff] at htold
        refine ⟨htold.1.1.1.2, htold.1.1.2, ?_⟩
        rintro rfl
        cases htold.1.1.1.1
      · cases List.mem_singleton.mp he
        exact ⟨rfl, rfl, by simp⟩
    · obtain ⟨reason, rfl⟩ := hrep e he
      exact ⟨rfl, rfl, by simp⟩
  have hevready : ev.countP isReady = 0 := by
    apply List.countP_eq_zero.mpr
    rcases hev with hev | ⟨err, rfl⟩
    · intro e he hf
      have htold := hev e he
      simp [isTold, hf] at htold
    · simp [isReady]
  have hclosed : (l ++ (ev ++ rep)).countP isClosed = l.countP isClosed :=
    countP_others (fun e he => (hkind e he).2.1)
  have hmem : .onReady none ∉ ev ++ rep := fun hm => (hkind _ hm).2.2 rfl
  have hup : Up (l ++ (ev ++ rep)) → l.countP isClosed = 1 := fun hu => hgone (hu.of_append hmem)
  have hrepend : ∀ e ∈ rep, e.isEnd = false := by
    intro e he
    obtain ⟨reason, rfl⟩ := hrep e he
    rfl
  constructor
  case ready =>
    rw [List.countP_append, List.countP_append, hevready, Nat.zero_add, hcount, if_pos hready]
  case early =>
    rw [countP_others (fun e he => (hkind e he).1), h.early, hearly]
  case order =>
    exact h.order.append_other (fun e he => (hkind e he).1)
  case window =>
    intro hg hf
    rw [show c'.earlyFired = true from hearly.trans (hwin hg)] at hf
    cases hf
  case done =>
    exact fun hg => hest.trans (h.done hg)
  case tls =>
    intro hs
    rcases hst with hst | hst
    · rw [show c'.state = .failed from hst] at hs
      cases hs
    · exact hest.trans (h.tls (hst ▸ hs))
  case once =>
    rw [hclosed]
    refine h.once.imp id ?_
    rintro ⟨hone, hest', hst', hg⟩
    refine ⟨hone, hest.trans hest', ?_, hg⟩
    intro hs
    rcases hst with hst | hst
    · rw [show c'.state = .failed from hst] at hs
      cases hs
    · exact hst' (hst ▸ hs)
  case passed =>
    intro hm
    obtain ⟨hest', hg⟩ := h.passed ((List.mem_append.mp hm).resolve_right hmem)
    exact ⟨hest.trans hest', hg⟩
  case live =>
    intro hu
    rw [hclosed]
    exact .inr (hup hu)
  case ended =>
    exact fun _ => .inl hready
  case gone =>
    intro hu _
    rw [hclosed]
    exact hup hu
  case due =>
    intro hd
    rw [hclosed]
    rcases hev with hev | ⟨err, rfl⟩
    · refine h.due (hd.of_append ?_)
      intro e he
      rcases List.mem_append.mp he with he | he
      · by_contra hf
        exact not_mem_untold hev (by simp [isTold, hf]) he
      · exact hrepend e he
    · rcases Due.of_end (o := rep) hd hrepend with hd | hu
      · exact h.due hd
      · exact hgone hu

/-- A write that is refused in time comes neither between the opening of the window and `on_early_ready`,
    nor on a connection that is up. -/
theorem LifeInv.refused_in_time (h : LifeInv l (g, c)) {pre : List ConnEvent} {err : Str8}
    (hpre : ∀ e ∈ pre, e.isTold = false) (hok : InTime (l ++ pre) (.refused err)) :
    (g = some .earlyData → c.earlyFired = true) ∧ (Up l → l.countP isClosed = 1) := by
  obtain ⟨hend, hearly⟩ := hok.1 rfl
  refine ⟨?_, ?_⟩
  · intro hg
    by_contra hf
    obtain ⟨-, hm⟩ := h.window hg (Bool.eq_false_iff.mpr hf)
    have hfired := hearly (List.mem_append_left pre hm)
    exact hf (h.early_fired ((List.mem_append.mp hfired).resolve_right (not_mem_untold hpre rfl)))
  · intro hu
    obtain ⟨e, he, hisEnd⟩ := hend (List.mem_append_left pre hu.1)
    rcases List.mem_append.mp he with he | he
    · exact h.gone hu ⟨e, he, hisEnd⟩
    · exact absurd he (not_mem_untold hpre (by simp [isTold, hisEnd]))

end

theorem failEvents_count {g : Option HsStatus} (h : LifeInv l (g, c)) (reason : Str8) :
    l.countP isReady + (failEvents c reason).countP isReady = 1 := by
  rw [h.ready]
  unfold failEvents
  cases c.readyFired with
  | true | false => rfl

theorem FailCause.life {ev : List ConnEvent} {g : Option HsStatus} {reason : Str8}
    (hcause : FailCause (g, c) ev) (h : LifeInv l (g, c))
    (hok : Each InTime (l ++ (ev ++ failEvents c reason))) :
    LifeInv (l ++ (ev ++ failEvents c reason)) (g, (c.setState .failed).fireReady) := by
  have hrep : ∀ e ∈ failEvents c reason, ∃ reason, e = .onReady (some reason) := by
    intro e he
    unfold failEvents at he
    split at he
    · cases he
    · exact ⟨reason, List.mem_singleton.mp he⟩
  have hcount := failEvents_count h reason
  -- what goes with a refused write is not told
  have hrefused : ∀ pre err, ev = pre ++ [.refused err] → (∀ e ∈ pre, e.isTold = false) →
      LifeInv (l ++ (ev ++ failEvents c reason)) (g, (c.setState .failed).fireReady) := by
    rintro pre err rfl hpre
    obtain ⟨hwin, hgone⟩ := h.refused_in_time hpre (hok (l ++ pre) (.refused err) (failEvents c reason) (by simp))
    refine h.told rfl hcount rfl rfl (.inl rfl) hrep (.inl ?_) hwin hgone
    intro e he
    rcases List.mem_append.mp he with he | he
    · exact hpre e he
    · cases List.mem_singleton.mp he
      rfl
  cases hcause with
  | refused err => exact hrefused [] err rfl (by simp)
  | queue data err hp =>
    exact hrefused [.sent data] err rfl (by simp [isTold, isReady, isEarly, isClosed, isEnd, isClose])
  | spill runs rest err hst =>
    refine hrefused (wroteEvents runs ++ [.wouldBlock c.state, .sent (runs.flatten ++ rest)]) err (by simp) ?_
    intro e he
    simp only [wroteEvents, List.mem_append, List.mem_map, List.mem_cons, List.not_mem_nil, or_false] at he
    rcases he with ⟨run, -, rfl⟩ | rfl | rfl <;> rfl
  | readEnd err hst =>
    refine h.told rfl hcount rfl rfl (.inl rfl) hrep (.inr ⟨err, rfl⟩) (fun hg => by cases hg) ?_
    intro hu
    exact (h.live hu).resolve_left hst
  | setup hest =>
    have hopen := h.open_of_tls hest
    refine h.told rfl hcount rfl rfl (.inl rfl) hrep (.inl (by simp)) (fun hg => by cases hg) ?_
    intro hu
    exact absurd (.inl hu.1) hopen
  | @status st c hst =>
    refine h.told rfl hcount rfl rfl (.inl rfl) hrep (.inl (by simp)) ?_ ?_
    · intro hg
      exact absurd (Option.some.inj hg) hst
    · intro hu
      exact absurd (.inl hu.1) h.open_of_status

theorem untold_wrote (runs : List Str8) (tail : List ConnEvent) (htail : tail.all (fun e => !e.isTold) = true) :
    ∀ e ∈ wroteEvents runs ++ tail, e.isTold = false := by
  intro e he
  rcases List.mem_append.mp he with he | he
  · obtain ⟨run, -, rfl⟩ := List.mem_map.mp he
    rfl
  · simpa using List.all_eq_true.mp htail e he

theorem ConnMove.life {w w' : ConnWorld} (hm : ConnMove w o w') (hi : ConnInv w.2) (h : LifeInv l w)
    (hok : Each InTime (l ++ o)) : LifeInv (l ++ o) w' := by
  cases hm with
  | quiet ev hev hq =>
    refine h.still ?_ hq.ready hq.early hq.established hq.state
    intro e he
    have hquiet := hev e he
    cases e <;> first | rfl | exact nomatch hquiet
  | submit data htcp | queue data cap hp =>
    exact h.still (by simp [isTold, isReady, isEarly, isClosed, isEnd, isClose]) rfl rfl rfl rfl
  | send runs hp | spill runs rest cap hp hst | sslError runs =>
    exact h.still (untold_wrote runs _ rfl) rfl rfl rfl rfl
  | fail ev reason hcause => exact hcause.life h hok
  | @reject c reason hr hest =>
    have hcount : l.countP isReady + [ConnEvent.onReady (some reason)].countP isReady = 1 := by
      rw [h.ready, if_neg (Bool.eq_false_iff.mp hr)]
      rfl
    show LifeInv (l ++ ([] ++ [.onReady (some reason)])) _
    refine h.told rfl hcount rfl rfl (.inr rfl) (by simp) (.inl (by simp)) (fun hg => by cases hg) ?_
    intro hu
    exact absurd (.inl hu.1) (h.open_of_tls hest)
  | @close g c =>
    have hcl : List.countP isClosed (l ++ [.closeCall c.resolving]) = l.countP isClosed :=
      countP_others (by simp [isClosed])
    have hup : ¬ Up (l ++ [.closeCall c.resolving]) := fun hu => by
      cases hu.2 (.closeCall c.resolving) (by simp)
    constructor
    case ready =>
      exact (countP_others (by simp [isReady])).trans h.ready
    case early =>
      exact (countP_others (by simp [isEarly])).trans h.early
    case order =>
      exact h.order.snoc_other rfl
    case window =>
      intro hg hf
      obtain ⟨hready, hm⟩ := h.window hg hf
      exact ⟨hready, List.mem_append_left _ hm⟩
    case done =>
      exact h.done
    case tls =>
      intro hs
      cases hs
    case once =>
      rw [hcl]
      refine h.once.imp id ?_
      rintro ⟨hone, hest, -, hg⟩
      exact ⟨hone, hest, by simp [Connection.close], hg⟩
    case passed =>
      intro hm
      exact h.passed (by simpa using hm)
    case live =>
      exact fun hu => absurd hu hup
    case ended =>
      intro hex
      rw [hcl]
      exact h.ended (by simpa [isEnd] using hex)
    case gone =>
      exact fun hu => absurd hu hup
    case due =>
      intro hd
      rw [hcl]
      exact h.due (hd.of_append (by simp [isEnd]))
  | @phase g c st hst hf =>
    -- the phases before the handshake
    have hest : c.established = false := (hi.fresh_of hf).2
    refine h.shift (by simp) rfl rfl ?_ h.done (fun hs => absurd hs hst) (fun hx => absurd hx (h.open_of_tls hest))
    intro hg hf
    obtain ⟨hready, hm⟩ := h.window hg hf
    exact ⟨hready, List.mem_append_left _ hm⟩
  | @handshake c st hfed hest =>
    have hopen := h.open_of_tls hest
    have hwin : some st = some .earlyData → c.earlyFired = false →
        c.readyFired = false ∧ .handshake .earlyData ∈ l ++ [.handshake st] := by
      intro hg hf
      cases hg
      refine ⟨h.not_fired ?_, by simp⟩
      intro e he
      by_contra hready
      have hfired := hok.last.2 rfl ⟨e, he, Bool.not_eq_false _ ▸ hready⟩
      rw [h.early_fired hfired] at hf
      cases hf
    have huntold : ∀ e ∈ [ConnEvent.handshake st], e.isTold = false := by
      intro e he
      cases List.mem_singleton.mp he
      rfl
    split
    · exact h.shift huntold rfl rfl hwin (fun _ => rfl) (fun _ => rfl) (fun hx => absurd hx hopen)
    · rename_i hst
      exact h.shift huntold rfl rfl hwin (fun hg => absurd (Option.some.inj hg) hst) h.tls
        (fun hx => absurd hx hopen)
  | establish =>
    exact h.shift (by simp) rfl rfl (fun hg => by cases hg) (fun _ => h.done rfl) (fun _ => h.done rfl)
      (fun hx => absurd hx h.open_of_status)
  | @flush c runs rest hp =>
    refine h.shift (List.append_nil (wroteEvents runs) ▸ untold_wrote runs [] rfl) rfl rfl ?_ (fun _ => h.done rfl)
      h.tls
      (fun hx => absurd hx h.open_of_status)
    intro hg
    split at hg <;> cases hg
  | @ready c hr hst hp =>
    have hopen := h.open_of_status
    have hzero : l.countP isClosed = 0 := h.once.resolve_right (fun hone => hopen (.inr hone.1))
    have hcl : List.countP isClosed (l ++ [.onReady none]) = 0 :=
      (countP_others (by simp [isClosed])).trans hzero
    -- the stream cannot have ended: that would have been reported, one way or the other
    have hno : ¬ ∃ e ∈ l, e.isEnd = true := by
      intro hex
      rcases h.ended hex with hfired | hone
      · rw [hr] at hfired
        cases hfired
      · omega
    have hno' : ¬ ∃ e ∈ l ++ [ConnEvent.onReady none], e.isEnd = true := by
      simpa [isEnd] using hno
    constructor
    case ready =>
      simp [List.countP_append, isReady, h.ready, hr, Connection.fireReady]
    case early =>
      exact (countP_others (by simp [isEarly])).trans h.early
    case order =>
      exact h.order.snoc_other rfl
    case window =>
      exact fun hg => by cases hg
    case done =>
      exact fun hg => by cases hg
    case tls =>
      exact fun _ => h.done rfl
    case once =>
      exact .inl hcl
    case passed =>
      exact fun _ => ⟨h.done rfl, rfl⟩
    case live =>
      exact fun _ => .inl hst
    case ended =>
      exact fun hex => absurd hex hno'
    case gone =>
      exact fun _ hex => absurd hex hno'
    case due =>
      rintro ⟨a, err, b, heq, -⟩
      exact absurd ⟨.readEnd err, by simp [heq], rfl⟩ hno'
  | window =>
    refine h.shift (by simp) rfl rfl ?_ (fun hg => by cases hg) (fun hs => by cases hs)
      (fun hx => absurd hx h.open_of_status)
    intro hg hf
    obtain ⟨hready, hm⟩ := h.window hg hf
    exact ⟨hready, List.mem_append_left _ hm⟩
  | @early c he =>
    have hopen := h.open_of_status
    have hready : c.readyFired = false := (h.window rfl he).1
    have hnone : ∀ e ∈ l, e.isReady = false := by
      have hcount := h.ready
      rw [if_neg (Bool.eq_false_iff.mp hready)] at hcount
      intro e hm
      simpa using List.countP_eq_zero.mp hcount e hm
    have hcl : List.countP isClosed (l ++ [.onEarlyReady]) = l.countP isClosed :=
      countP_others (by simp [isClosed])
    have hno : .onReady none ∉ l ++ [.onEarlyReady] := by
      intro hm
      exact hopen (.inl (by simpa using hm))
    constructor
    case ready =>
      exact (countP_others (by simp [isReady])).trans h.ready
    case early =>
      simp [List.countP_append, isEarly, h.early, he, Connection.fireEarly]
    case order =>
      exact h.order.snoc_first hnone
    case window =>
      exact fun hg => by cases hg
    case done =>
      exact fun hg => by cases hg
    case tls =>
      exact h.tls
    case once =>
      rw [hcl]
      exact .inl (h.once.resolve_right (fun hone => hopen (.inr hone.1)))
    case passed =>
      exact fun hm => absurd hm hno
    case live =>
      exact fun hu => absurd hu.1 hno
    case ended =>
      intro hex
      rw [hcl]
      exact h.ended (by simpa [isEnd] using hex)
    case gone =>
      exact fun hu => absurd hu.1 hno
    case due =>
      intro hd
      rw [hcl]
      exact h.due (hd.of_append (by simp [isEnd]))
  | acted hst =>
    exact h.shift (by simp) rfl rfl (fun hg => by cases hg) (fun hg => by cases hg) h.tls
      (fun hx => absurd hx h.open_of_status)

/-- The end of an established connection is reported on the spot. -/
theorem LifeInv.closed (h : LifeInv l (none, c)) (hst : c.state = .established) (err : Option Str8) :
    LifeInv (l ++ [.readEnd err, .onClosed err]) (none, c.setState .closing) := by
  have hzero : l.countP isClosed = 0 := h.once.resolve_right (fun hone => hone.2.2.1 hst)
  have hcl : List.countP isClosed (l ++ [.readEnd err, .onClosed err]) = 1 := by
    simp [List.countP_append, isClosed, hzero]
  constructor
  case ready =>
    exact (countP_others (by simp [isReady])).trans h.ready
  case early =>
    exact (countP_others (by simp [isEarly])).trans h.early
  case order =>
    exact h.order.append_other (by simp [isEarly])
  case window =>
    exact fun hg => by cases hg
  case done =>
    exact fun hg => by cases hg
  case tls =>
    exact fun hs => by cases hs
  case once =>
    exact .inr ⟨hcl, h.tls hst, by simp [Connection.setState], rfl⟩
  case passed =>
    intro hm
    exact h.passed (by simpa using hm)
  case live =>
    exact fun _ => .inr hcl
  case ended =>
    exact fun _ => .inr hcl
  case gone =>
    exact fun _ _ => hcl
  case due =>
    exact fun _ => hcl

theorem ConnTurn.life {w w' : ConnWorld} (hm : ConnTurn w o w') (hi : ConnInv w.2) (h : LifeInv l w)
    (hok : Each InTime (l ++ o)) : LifeInv (l ++ o) w' := by
  cases hm with
  | move hm => exact hm.life hi h hok
  | @dial c hs htcp hres hr hf =>
    exact h.shift (by simp) rfl rfl (fun hg => by cases hg) (fun hg => by cases hg) (fun hs => by cases hs)
      (fun hx => absurd hx (h.open_of_tls (hi.fresh_of hf).2))
  | @resolvedDial c hr =>
    have hf : c.fed = false := (hi.setup (.inl hr)).2
    exact h.shift (untold_wrote [] _ rfl) rfl rfl (fun hg => by cases hg) (fun hg => by cases hg)
      (fun hs => by cases hs) (fun hx => absurd hx (h.open_of_tls (hi.fresh_of hf).2))
  | closed err hst => exact h.closed hst err
  | connect hs | resolved hr | connected hc | written hw | handleClosed ht hc hw =>
    exact h.still (untold_wrote [] _ rfl) rfl rfl rfl rfl
  | _ => exact h.still (by simp) rfl rfl rfl rfl

/-- **What the owner is told.** In every run in which no write is refused at one of the moments of `InTime`,
    `on_ready` and `on_early_ready` come at most once and in order, and the end of a connection that is up is
    reported exactly once. -/
theorem conn_death_reported {cfg : ConnCfg} {w : Machine.System Connection ConnEvent}
    (h : (connMachine cfg).Reach w) (hok : Each InTime w.log) : Reports w.log := by
  have hrun := Trace.invariant (I := fun l w => ConnInv w.2 ∧ LifeInv l w)
    (C := Each InTime) (fun _ _ hall => hall.left) ?_ (connReach_turns h).1 [] ⟨ConnInv.init, LifeInv.init⟩ hok
  · exact hrun.2.reports
  · intro l w o w' hI hm hall
    exact ⟨hm.inv hI.1, hm.life hI.1 hI.2 hall⟩

/-- A connection that is set up and has reported success. -/
def upRun : List (Machine.Turn ConnAns ConnInput) :=
  [ { event   := .connect
      answers := [.pumpValid true, .configured true, .dnsCached true, .rc none] },
    { event   := .connected none
      answers := [.handshake .wantIo none, .output [.ring [22] none]] },
    { event   := .readData [22]
      answers := [.handshake .done none, .output [], .calls []] } ]

theorem conn_death_reported_reset :
    ∃ w, (connMachine {}).Reach w ∧ Due w.log ∧ Reports w.log := by
  have hrun : ((connMachine {}).play (upRun ++
      [{ event := .readEnd (some (lit "ECONNRESET")), answers := [.calls [.close]] }])).map (·.log) =
      some [.connect, .completion .connect, .handshake .wantIo, .submitted [22], .readData, .handshake .done,
        .onReady none, .readEnd (some (lit "ECONNRESET")), .onClosed (some (lit "ECONNRESET")),
        .closeCall false] := by decide +kernel
  obtain ⟨w, hplay, hlog⟩ := Option.map_eq_some_iff.mp hrun
  have hreach := Machine.Reach.of_play hplay
  have hok : Each InTime w.log := by
    rw [hlog]
    decide +kernel
  have hdue : Due w.log := by
    refine ⟨w.log.take 7, some (lit "ECONNRESET"), w.log.drop 8, ?_, ?_⟩
    · rw [hlog]
      rfl
    · rw [hlog]
      exact ⟨by simp, by simp [isClose]⟩
  exact ⟨w, hreach, hdue, conn_death_reported hreach hok⟩

/-- A write is refused on a connection that is up; the owner does not learn of its end. -/
theorem death_unreported :
    ∃ w, (connMachine {}).Reach w ∧ Due w.log ∧ w.log.countP isClosed = 0 ∧ ¬ Reports w.log := by
  have hrun : ((connMachine {}).play (upRun ++
      [{ event := .call (.send [1]), answers := [.sslWrite 1, .output [.ring [23] (some (lit "EPIPE"))]] },
       { event := .readEnd none }])).map (·.log) =
      some [.connect, .completion .connect, .handshake .wantIo, .submitted [22], .readData, .handshake .done,
        .onReady none, .wrote [1], .sent [1], .refused (lit "EPIPE"), .readEnd none] := by decide +kernel
  obtain ⟨w, hplay, hlog⟩ := Option.map_eq_some_iff.mp hrun
  have hdue : Due w.log := by
    refine ⟨w.log.dropLast, none, [], ?_, ?_⟩
    · rw [hlog]
      rfl
    · rw [hlog]
      exact ⟨by simp, by simp [isClose]⟩
  have hzero : w.log.countP isClosed = 0 := by
    rw [hlog]
    decide
  refine ⟨w, Machine.Reach.of_play hplay, hdue, hzero, ?_⟩
  intro hrep
  have hone := hrep.closed hdue
  omega

end HolyTls.Net

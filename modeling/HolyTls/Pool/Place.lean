import HolyTls.Pool.Frame

/-!
# `Pool.Place` — where a request is

A request is on one list, or in hand, or gone: `Placed r w p` says that in the world `w` the request `r` is
at the place `p` and nowhere else. `Fate` lists how a request can go on from its place, with what is shown
of it and what changes of the request. The rules below take a request from one place to another; `Pool.Fate`
applies them to the moves.
-/

namespace HolyTls

/-- Where a request is. -/
inductive Place
  | nowhere
  | hand (h : Held)
  | waiting (c : ConnId)
  | active (c : ConnId)

namespace Place

def held : Place → List Held
  | hand h => [h]
  | _ => []

def waits : Place → ConnId → Nat
  | waiting c, x => if x = c then 1 else 0
  | _, _ => 0

def acts : Place → ConnId → Nat
  | active c, x => if x = c then 1 else 0
  | _, _ => 0

/-- The connection that `r->pc` points at. -/
def conn? : Place → Option ConnId
  | waiting c => some c
  | active c => some c
  | hand (.sub _ c) => some c
  | hand (.streamed _ c) => some c
  | hand (.sent _ c) => some c
  | _ => none

/-- On its way to an active list. -/
def busy : Place → Bool
  | hand (.free _ _) => true
  | hand (.opened _ _) => true
  | hand (.sub _ _) => true
  | hand (.streamed _ _) => true
  | hand (.sent _ _) => true
  | _ => false

def listed : Place → Bool
  | waiting _ => true
  | active _ => true
  | _ => false

/-- Answered, or gone. -/
def settled : Place → Bool
  | nowhere => true
  | hand (.answered _) => true
  | _ => false

end Place

/-- The entries of the hand that are about a request. -/
def own (r : ReqId) (H : List Held) : List Held := H.filter (·.req == r)

/-- The connection that the handler of a deadline works with. -/
def Held.bound : Held → Option ConnId
  | expiring _ pc => pc
  | cancelling _ c => some c
  | _ => none

/-- The request `r` is at `p`, and at no other place. -/
structure Placed (r : ReqId) (w : PoolWorld) (p : Place) : Prop where
  hand : (own r w.1).filter (fun h => !h.expires) = p.held
  waits : ∀ c, (w.2.conn c).waiting.nodes.count r = p.waits c
  acts : ∀ c, (w.2.conn c).active.count r = p.acts c
  pc : ∀ c, p.conn? = some c → (w.2.reqs r).pc = some c
  busy : p.busy = true → (w.2.reqs r).responded = false
  listed : p.listed = true → (w.2.reqs r).responded = false ∨ ∃ h ∈ own r w.1, h.expires = true
  legacy : p.settled = false → (w.2.reqs r).legacy = false
  late : ∀ h ∈ own r w.1, h.expires = true → (w.2.reqs r).responded = true ∧ (w.2.reqs r).pc = h.bound
  cancel : ∀ c x, .cancelling r c ∈ w.1 → p ≠ .waiting x

/-! ## How a request goes on -/

/-- The request that an event is about. -/
def PoolEvent.req? : PoolEvent → Option ReqId
  | dispatched r => some r
  | write r _ => some r
  | refused r => some r
  | retried r => some r
  | callback r _ => some r
  | released r => some r
  | legacy r => some r
  | _ => none

/-- Nothing is shown about the request. -/
def Silent (r : ReqId) (o : List PoolEvent) : Prop := ∀ e ∈ o, e.req? ≠ some r

/-- The request has not been told anything new. -/
structure SameFlags (q q' : PoolReq) : Prop where
  responded : q'.responded = q.responded
  legacy : q'.legacy = q.legacy
  released : q'.released = q.released
  armed : q'.timerArmed = true → q.timerArmed = true

/-- The waiting list ends at its tail, and no request is on it twice. -/
structure Waiting.Wf (w : Waiting) : Prop where
  tail : w.tail = w.nodes.getLast?
  nodup : w.nodes.Nodup

/-- The steps that show nothing. -/
inductive Hop (s : Pool) (r : ReqId) : Place → Place → Prop
  | open {p} (c : ConnId) : Hop s r (.hand (.free r p)) (.hand (.opened r c))
  | assign {p} (c : ConnId) : Hop s r (.hand (.free r p)) (.hand (.sub r c))
  | park {c} : Hop s r (.hand (.sub r c)) (.waiting c)
  | parkNew {c} : Hop s r (.hand (.opened r c)) (.waiting c)
  | pop {c} : Hop s r (.waiting c) (.hand (.sub r c))
  | openStream {c} : Hop s r (.hand (.sub r c)) (.hand (.streamed r c))
  | activate {c} : Hop s r (.hand (.sent r c)) (.active c)
  | giveUp {p} : Hop s r (.hand (.free r p)) (.hand (.off r none))
  | withdraw {c} : Hop s r (.hand (.sub r c)) (.hand (.off r none))
  | abandon {c} : Hop s r (.hand (.streamed r c)) (.hand (.off r none))
  | take {c} (got : Option Response) (hopen : (s.reqs r).responded = false) : Hop s r (.active c) (.hand (.off r got))
  | detach {c} (hopen : (s.reqs r).responded = false) : Hop s r (.waiting c) (.hand (.off r none))
  | rehome {c p} : Hop s r (.waiting c) (.hand (.free r p))
  -- a push onto a list that does not end at its tail drops what is behind it
  | lose {p} (c : ConnId) (hbad : ¬ (s.conn c).waiting.Wf)
      (hp : p = .waiting c ∨ p = .hand (.sub r c) ∨ p = .hand (.opened r c)) : Hop s r p .nowhere

/-- How a request goes on in a move from `w` to `w'`. -/
inductive Fate (w w' : PoolWorld) (r : ReqId) : Place → List PoolEvent → Place → Prop
  | stay {p o} (ho : Silent r o) (hq : SameFlags (w.2.reqs r) (w'.2.reqs r)) : Fate w w' r p o p
  | hop {p o p'} (h : Hop w.2 r p p') (ho : Silent r o) (hq : SameFlags (w.2.reqs r) (w'.2.reqs r)) :
      Fate w w' r p o p'
  -- its connection fails
  | fail {p c} (tabled answered : Bool) (hp : p = .waiting c ∨ p = .active c)
      (hans : (w.2.reqs r).responded = true → answered = true) (hq : SameFlags (w.2.reqs r) (w'.2.reqs r)) :
      Fate w w' r p [.failed c tabled answered] (.hand (.off r none))
  | born {p} (hr : r = w.2.nreq) (hresp : (w'.2.reqs r).responded = false) (hleg : (w'.2.reqs r).legacy = false)
      (hrel : (w'.2.reqs r).released = false) :
      Fate w w' r .nowhere [.dispatched r] (.hand (.free r p))
  | write {p p' c} (hp : p = .hand (.sub r c) ∨ p = .hand (.streamed r c))
      (hp' : p' = .hand (.sent r c) ∨ p' = .active c) (hq : SameFlags (w.2.reqs r) (w'.2.reqs r)) :
      Fate w w' r p [.write r c] p'
  | refuse {got} (hq : SameFlags (w.2.reqs r) (w'.2.reqs r)) :
      Fate w w' r (.hand (.off r got)) [.refused r] (.hand (.off r got))
  | retry {got p} (hopen : (w.2.reqs r).responded = false) (hq : SameFlags (w.2.reqs r) (w'.2.reqs r)) :
      Fate w w' r (.hand (.off r got)) [.retried r] (.hand (.free r p))
  | answer {got resp} (hopen : (w.2.reqs r).responded = false) (hresp : (w'.2.reqs r).responded = true)
      (hq : SameFlags (w.2.reqs r) { w'.2.reqs r with responded := (w.2.reqs r).responded }) :
      Fate w w' r (.hand (.off r got)) [.callback r resp] (.hand (.answered r))
  | legacy {got} (hleg : (w'.2.reqs r).legacy = true)
      (hq : SameFlags (w.2.reqs r) { w'.2.reqs r with legacy := (w.2.reqs r).legacy }) :
      Fate w w' r (.hand (.off r got)) [.legacy r] (.hand (.answered r))
  | release {h} (hh : h = .answered r ∨ ∃ got, h = .off r got ∧ (w.2.reqs r).responded = true)
      (hrel : (w'.2.reqs r).released = true) (harmed : (w'.2.reqs r).timerArmed = false)
      (hresp : (w'.2.reqs r).responded = (w.2.reqs r).responded) (hleg : (w'.2.reqs r).legacy = (w.2.reqs r).legacy) :
      Fate w w' r (.hand h) [.released r] .nowhere
  | expire {p resp} (hp : p.held = []) (hlt : r < w.2.nreq) (harmed : (w.2.reqs r).timerArmed = true)
      (hopen : (w.2.reqs r).responded = false) (hresp : (w'.2.reqs r).responded = true)
      (hq : SameFlags (w.2.reqs r) { w'.2.reqs r with responded := (w.2.reqs r).responded }) :
      Fate w w' r p [.callback r resp] p
  | drop {p o} (hp : p.held = []) (hin : ∃ h ∈ own r w.1, h.expires = true) (hout : Calm w'.1)
      (hresp : (w.2.reqs r).responded = true) (ho : Silent r o) (hq : SameFlags (w.2.reqs r) (w'.2.reqs r)) :
      Fate w w' r p o (.hand (.answered r))

/-! ## Hands -/

section

variable {r x : ReqId} {h h' : Held} {H H' : List Held}

theorem own_cons_self (hr : h.req = r) : own r (h :: H) = h :: own r H := by
  unfold own
  rw [List.filter_cons_of_pos (by simpa using hr)]

theorem own_cons_ne (hr : h.req ≠ r) : own r (h :: H) = own r H := by
  unfold own
  rw [List.filter_cons_of_neg (by simpa using hr)]

theorem own_swap_ne (hr : h.req ≠ r) (hr' : h'.req ≠ r) : own r (h' :: H) = own r (h :: H) := by
  rw [own_cons_ne hr, own_cons_ne hr']

/-- Many requests come into hand at once. -/
theorem own_map_append {g : ReqId → Held} (hg : ∀ x, (g x).req = x) (l : List ReqId) :
    own r (l.map g ++ H) = List.replicate (l.count r) (g r) ++ own r H := by
  induction l with
  | nil => rfl
  | cons x l ih =>
    rw [List.map_cons, List.cons_append]
    by_cases hx : x = r
    · rw [own_cons_self (by rw [hg, hx]), ih, hx, List.count_cons_self, List.replicate_succ, List.cons_append]
    · rw [own_cons_ne (by rwa [hg]), ih, List.count_cons_of_ne hx]

theorem mem_own (hh : h ∈ own r H) : h ∈ H ∧ h.req = r := by
  unfold own at hh
  simpa using hh

theorem mem_own_of (hr : h.req = r) (hh : h ∈ H) : h ∈ own r H :=
  List.mem_filter.mpr ⟨hh, by simpa using hr⟩

theorem Calm.own (hcalm : Calm H) : ¬ ∃ h ∈ own r H, h.expires = true := by
  rintro ⟨h, hh, he⟩
  rw [hcalm h (mem_own hh).1] at he
  cases he

end

/-- A pool without requests. -/
theorem Placed.empty (r : ReqId) : Placed r ([], Pool.empty) .nowhere where
  hand := rfl
  waits := fun _ => rfl
  acts := fun _ => rfl
  pc := fun _ h => (by cases h)
  busy := fun h => (by cases h)
  listed := fun h => (by cases h)
  legacy := fun h => (by cases h)
  late := fun _ h => (by cases h)
  cancel := fun _ _ h => (by cases h)

/-! ## What leaves a request alone -/

section

variable {r x : ReqId} {h g : Held} {H H' : List Held} {s t : Pool} {w w' : PoolWorld} {p p' : Place}
  {o : List PoolEvent} {c : ConnId}

theorem SameFlags.refl (q : PoolReq) : SameFlags q q := ⟨rfl, rfl, rfl, id⟩

/-- The request is on the same lists. -/
structure SameLists (r : ReqId) (s t : Pool) : Prop where
  waits : ∀ c, (t.conn c).waiting.nodes.count r = (s.conn c).waiting.nodes.count r
  acts : ∀ c, (t.conn c).active.count r = (s.conn c).active.count r

/-- The request has the same connection and has not been told anything new. -/
structure SameReq (r : ReqId) (s t : Pool) : Prop where
  pc : (t.reqs r).pc = (s.reqs r).pc
  flags : SameFlags (s.reqs r) (t.reqs r)

theorem SameLists.refl (r : ReqId) (s : Pool) : SameLists r s s := ⟨fun _ => rfl, fun _ => rfl⟩

theorem SameLists.updConn {g : PoolConn → PoolConn}
    (hw : (g (s.conn c)).waiting.nodes.count r = (s.conn c).waiting.nodes.count r)
    (ha : (g (s.conn c)).active.count r = (s.conn c).active.count r) : SameLists r s (s.updConn c g) :=
  ⟨Pool.updConn_part (fun pc => pc.waiting.nodes.count r) hw, Pool.updConn_part (fun pc => pc.active.count r) ha⟩

theorem SameLists.of_conn (h : t.conn = s.conn) : SameLists r s t :=
  ⟨fun c => (by rw [h]), fun c => (by rw [h])⟩

theorem SameReq.refl (r : ReqId) (s : Pool) : SameReq r s s := ⟨rfl, .refl _⟩

theorem SameReq.updReq_ne {f : PoolReq → PoolReq} (hx : x ≠ r) : SameReq r s (s.updReq x f) := by
  have hsame : (s.updReq x f).reqs r = s.reqs r := by rw [Pool.updReq_reqs, if_neg hx.symm]
  exact ⟨by rw [hsame], by rw [hsame]; exact .refl _⟩

theorem SameReq.updReq {f : PoolReq → PoolReq} (hpc : (f (s.reqs x)).pc = (s.reqs x).pc)
    (hf : SameFlags (s.reqs x) (f (s.reqs x))) : SameReq r s (s.updReq x f) := by
  by_cases hx : x = r
  · subst hx
    exact ⟨by rw [Pool.updReq_self, hpc], by rw [Pool.updReq_self]; exact hf⟩
  · exact .updReq_ne hx

/-- A move that leaves the request where it is. -/
theorem Placed.keep (hp : Placed r (H, s) p) (hown : own r H' = own r H) (hl : SameLists r s t)
    (hq : SameReq r s t) : Placed r (H', t) p where
  hand := (congrArg (List.filter _) hown).trans hp.hand
  waits := fun c => (hl.waits c).trans (hp.waits c)
  acts := fun c => (hl.acts c).trans (hp.acts c)
  pc := fun c hc => hq.pc.trans (hp.pc c hc)
  busy := fun h => hq.flags.responded.trans (hp.busy h)
  listed := fun h => by
    rw [hown, hq.flags.responded]
    exact hp.listed h
  legacy := fun h => hq.flags.legacy.trans (hp.legacy h)
  late := fun h hh he => by
    rw [hown] at hh
    rw [hq.flags.responded, hq.pc]
    exact hp.late h hh he
  cancel := fun c x hc => by
    have hmem : Held.cancelling r c ∈ own r H' := mem_own_of rfl hc
    rw [hown] at hmem
    exact hp.cancel c x (mem_own hmem).1

/-! ## What moves a request -/

theorem Placed.at_hand (hp : Placed r (h :: H, s) p) (hr : h.req = r) (hx : h.expires = false) :
    p = .hand h ∧ (own r H).filter (fun h => !h.expires) = [] := by
  have hhand := hp.hand
  rw [own_cons_self hr, List.filter_cons_of_pos (by rw [hx]; rfl)] at hhand
  cases p <;> simp only [Place.held, List.cons.injEq, reduceCtorEq] at hhand
  · exact ⟨by rw [hhand.1], hhand.2⟩

theorem Placed.at_mem (hp : Placed r w p) (hh : h ∈ w.1) (hr : h.req = r) (hx : h.expires = false) : p = .hand h := by
  have hmem : h ∈ (own r w.1).filter (fun h => !h.expires) :=
    List.mem_filter.mpr ⟨mem_own_of hr hh, by rw [hx]; rfl⟩
  rw [hp.hand] at hmem
  cases p <;> simp only [Place.held, List.mem_singleton, List.not_mem_nil] at hmem
  rw [hmem]

theorem Placed.mem_hand (hp : Placed r w (.hand h)) : h ∈ w.1 ∧ h.req = r := by
  have hmem : h ∈ (own r w.1).filter (fun h => !h.expires) := by
    rw [hp.hand]
    exact List.mem_singleton_self h
  exact mem_own (List.mem_filter.mp hmem).1

theorem Placed.mem_waiting (hp : Placed r w (.waiting c)) : r ∈ (w.2.conn c).waiting.nodes :=
  List.count_pos_iff.mp (by rw [hp.waits c]; simp [Place.waits])

theorem Placed.mem_active (hp : Placed r w (.active c)) : r ∈ (w.2.conn c).active :=
  List.count_pos_iff.mp (by rw [hp.acts c]; simp [Place.acts])

theorem Placed.at_waiting (hp : Placed r w p) (h : r ∈ (w.2.conn c).waiting.nodes) : p = .waiting c := by
  have hpos := List.count_pos_iff.mpr h
  rw [hp.waits c] at hpos
  cases p <;> simp only [Place.waits, Nat.lt_irrefl] at hpos
  · split at hpos
    · next hc => rw [hc]
    · cases hpos

theorem Placed.at_active (hp : Placed r w p) (h : r ∈ (w.2.conn c).active) : p = .active c := by
  have hpos := List.count_pos_iff.mpr h
  rw [hp.acts c] at hpos
  cases p <;> simp only [Place.acts, Nat.lt_irrefl] at hpos
  · split at hpos
    · next hc => rw [hc]
    · cases hpos

/-- What a new place asks of the request. -/
structure Fits (r : ReqId) (s : Pool) (p : Place) : Prop where
  pc : ∀ c, p.conn? = some c → (s.reqs r).pc = some c
  busy : p.busy = true ∨ p.listed = true → (s.reqs r).responded = false
  legacy : p.settled = false → (s.reqs r).legacy = false

/-- The request goes from the hand to `p'`. -/
theorem Placed.go (hp : Placed r (h :: H, s) (.hand h)) (hr : h.req = r) (hx : h.expires = false)
    (hown : own r H' = p'.held ++ own r H) (hheld : ∀ z ∈ p'.held, z.expires = false)
    (hw : ∀ c, (t.conn c).waiting.nodes.count r = (s.conn c).waiting.nodes.count r + p'.waits c)
    (ha : ∀ c, (t.conn c).active.count r = (s.conn c).active.count r + p'.acts c) (hfit : Fits r t p')
    (hkeep : (s.reqs r).responded = true → (t.reqs r).responded = true ∧ (t.reqs r).pc = (s.reqs r).pc) :
    Placed r (H', t) p' := by
  have hrest := (hp.at_hand hr hx).2
  have hlate : ∀ z ∈ own r H', z.expires = true → z ∈ own r H := by
    intro z hz he
    rw [hown] at hz
    rcases List.mem_append.mp hz with hz | hz
    · rw [hheld z hz] at he
      cases he
    · exact hz
  refine ⟨?_, ?_, ?_, hfit.pc, fun h => hfit.busy (Or.inl h), fun h => Or.inl (hfit.busy (Or.inr h)),
    hfit.legacy, ?_, ?_⟩
  · rw [hown, List.filter_append, hrest, List.append_nil, List.filter_eq_self]
    intro z hz
    rw [hheld z hz]
    rfl
  · intro c
    rw [hw c, hp.waits c]
    exact Nat.zero_add _
  · intro c
    rw [ha c, hp.acts c]
    exact Nat.zero_add _
  · intro z hz he
    have hmem : z ∈ own r (h :: H) := by
      rw [own_cons_self hr]
      exact List.mem_cons_of_mem _ (hlate z hz he)
    obtain ⟨hresp, hpc⟩ := hp.late z hmem he
    obtain ⟨hresp', hpc'⟩ := hkeep hresp
    exact ⟨hresp', hpc'.trans hpc⟩
  · -- a request whose stream is being cancelled is told already, so it is not put on a list
    intro c x hc heq
    have hmem : Held.cancelling r c ∈ own r H' := mem_own_of rfl hc
    have hmem' : Held.cancelling r c ∈ own r (h :: H) := by
      rw [own_cons_self hr]
      exact List.mem_cons_of_mem _ (hlate _ hmem rfl)
    have hresp := (hkeep (hp.late _ hmem' rfl).1).1
    rw [hfit.busy (Or.inr (by rw [heq]; rfl))] at hresp
    cases hresp

/-- The request stays in hand, in another role. -/
theorem Placed.swap (hp : Placed r (h :: H, s) p) (hr : h.req = r) (hx : h.expires = false)
    (hr' : g.req = r) (hx' : g.expires = false) (hl : SameLists r s t) (hfit : Fits r t (.hand g))
    (hkeep : (s.reqs r).responded = true → (t.reqs r).responded = true ∧ (t.reqs r).pc = (s.reqs r).pc) :
    p = .hand h ∧ Placed r (g :: H, t) (.hand g) := by
  obtain ⟨rfl, _⟩ := hp.at_hand hr hx
  refine ⟨rfl, hp.go hr hx (own_cons_self hr') ?_ hl.waits hl.acts hfit hkeep⟩
  intro z hz
  rw [List.mem_singleton.mp hz]
  exact hx'

/-- The same for a request on its way, which has not been told anything. -/
theorem Placed.swap_busy (hp : Placed r (h :: H, s) p) (hr : h.req = r) (hbusy : (Place.hand h).busy = true)
    (hr' : g.req = r) (hx' : g.expires = false) (hl : SameLists r s t)
    (hflags : SameFlags (s.reqs r) (t.reqs r))
    (hpc : ∀ c, (Place.hand g).conn? = some c → (t.reqs r).pc = some c) :
    p = .hand h ∧ Placed r (g :: H, t) (.hand g) := by
  have hx : h.expires = false := by cases h <;> first | rfl | cases hbusy
  have hset : (Place.hand h).settled = false := by cases h <;> first | rfl | cases hbusy
  obtain ⟨rfl, _⟩ := hp.at_hand hr hx
  have hresp := hp.busy hbusy
  apply hp.swap hr hx hr' hx' hl
  · exact ⟨hpc, fun _ => hflags.responded.trans hresp, fun _ => hflags.legacy.trans (hp.legacy hset)⟩
  · intro h
    rw [hresp] at h
    cases h

/-- The request leaves the hand for good. -/
theorem Placed.gone (hp : Placed r (h :: H, s) p) (hr : h.req = r) (hx : h.expires = false)
    (hl : SameLists r s t)
    (hkeep : (s.reqs r).responded = true → (t.reqs r).responded = true ∧ (t.reqs r).pc = (s.reqs r).pc) :
    p = .hand h ∧ Placed r (H, t) .nowhere := by
  obtain ⟨rfl, _⟩ := hp.at_hand hr hx
  refine ⟨rfl, hp.go hr hx rfl (fun z hz => (by cases hz)) hl.waits hl.acts ?_ hkeep⟩
  exact ⟨fun c hc => (by cases hc), fun h => (by rcases h with h | h <;> cases h), fun h => (by cases h)⟩

theorem Placed.leave (hp : Placed r (H, s) p) (hown : own r H' = g :: own r H) (hx' : g.expires = false)
    (hlist : p.listed = true) (hw : ∀ c, (t.conn c).waiting.nodes.count r = 0)
    (ha : ∀ c, (t.conn c).active.count r = 0) (hfit : Fits r t (.hand g))
    (hkeep : (s.reqs r).responded = true → (t.reqs r).responded = true ∧ (t.reqs r).pc = (s.reqs r).pc) :
    Placed r (H', t) (.hand g) := by
  have hrest : (own r H).filter (fun h => !h.expires) = [] := by
    have hhand := hp.hand
    cases p <;> first | exact hhand | cases hlist
  refine ⟨?_, hw, ha, hfit.pc, fun h => hfit.busy (Or.inl h), fun h => Or.inl (hfit.busy (Or.inr h)),
    hfit.legacy, ?_, fun c x _ h => (by cases h)⟩
  · rw [hown, List.filter_cons_of_pos (by rw [hx']; rfl), hrest]
    rfl
  · intro z hz he
    rw [hown] at hz
    rcases List.mem_cons.mp hz with rfl | hz
    · rw [hx'] at he
      cases he
    · obtain ⟨hresp, hpc⟩ := hp.late z hz he
      obtain ⟨hresp', hpc'⟩ := hkeep hresp
      exact ⟨hresp', hpc'.trans hpc⟩

end

/-! ## The lists -/

namespace Waiting

variable {w : Waiting} {r x t : ReqId} {l : List ReqId}

theorem linkAfter_sublist (t r : ReqId) (l : List ReqId) : (linkAfter t r l).Sublist (l ++ [r]) := by
  induction l with
  | nil => exact List.nil_sublist _
  | cons y l ih =>
    unfold linkAfter
    split
    · exact (List.sublist_append_right l [r]).cons_cons y
    · exact ih.cons_cons y

theorem push_sublist (w : Waiting) (r : ReqId) : (w.push r).nodes.Sublist (w.nodes ++ [r]) := by
  unfold push
  split
  · exact linkAfter_sublist _ _ _
  · exact List.sublist_append_right _ _

theorem linkAfter_append (hl : l.getLast? = some t) (hnd : l.Nodup) : linkAfter t r l = l ++ [r] := by
  induction l with
  | nil => cases hl
  | cons y l ih =>
    unfold linkAfter
    obtain ⟨hy, hnd'⟩ := List.nodup_cons.mp hnd
    cases l with
    | nil =>
      have hyt : y = t := by simpa using hl
      rw [if_pos hyt]
      rfl
    | cons z l =>
      have hlast : (z :: l).getLast? = some t := hl
      have hne : y ≠ t := fun h => hy (h ▸ List.mem_of_getLast? hlast)
      rw [if_neg hne, ih hlast hnd']
      rfl

/-- On a list that ends at its tail, `pool_waiting_push` appends. -/
theorem Wf.push_nodes (hw : w.Wf) (r : ReqId) : (w.push r).nodes = w.nodes ++ [r] := by
  unfold push
  rw [hw.tail]
  cases hl : w.nodes.getLast? with
  | none =>
    rw [List.getLast?_eq_none_iff.mp hl]
    rfl
  | some t => exact linkAfter_append hl hw.nodup

end Waiting

section

variable {r x : ReqId} {h : Held} {H H' : List Held} {s s₁ : Pool} {p : Place} {c : ConnId}

theorem waitingPush_waiting (y : ConnId) : ((s.waitingPush x c).conn y).waiting =
    if y = c then (s.conn c).waiting.push x else (s.conn y).waiting := by
  rw [Pool.waitingPush, Pool.updConn_conn]
  split <;> rfl

theorem waitingPush_active (y : ConnId) : ((s.waitingPush x c).conn y).active = (s.conn y).active :=
  Pool.updConn_part PoolConn.active rfl y

/-- Another request is queued; on a list that does not end at its tail this may drop `r`. -/
theorem Placed.beside_push (hp : Placed r (H, s) p) (hx : x ≠ r) (hown : own r H' = own r H)
    (hq : SameReq r s s₁) (hconn : s₁.conn = s.conn) :
    ∃ p', Placed r (H', s₁.waitingPush x c) p' ∧ (p' = p ∨ Hop s r p p') := by
  have hle : ((s.conn c).waiting.push x).nodes.count r ≤ (s.conn c).waiting.nodes.count r := by
    have hsub := (Waiting.push_sublist (s.conn c).waiting x).count_le r
    rwa [List.count_append, List.count_singleton, if_neg (by simpa using hx), Nat.add_zero] at hsub
  have hother : ∀ y, y ≠ c → ((s₁.waitingPush x c).conn y).waiting = (s.conn y).waiting := by
    intro y hy
    rw [waitingPush_waiting, if_neg hy, hconn]
  have hself : ((s₁.waitingPush x c).conn c).waiting = (s.conn c).waiting.push x := by
    rw [waitingPush_waiting, if_pos rfl, hconn]
  have hacts : ∀ y, ((s₁.waitingPush x c).conn y).active.count r = (s.conn y).active.count r := by
    intro y
    rw [waitingPush_active, hconn]
  by_cases hsame : ((s.conn c).waiting.push x).nodes.count r = (s.conn c).waiting.nodes.count r
  · refine ⟨p, hp.keep hown ⟨?_, hacts⟩ ⟨hq.pc, hq.flags⟩, Or.inl rfl⟩
    intro y
    by_cases hy : y = c
    · rw [hy, hself, hsame]
    · rw [hother y hy]
  · -- the request was on the list, and is not any more
    have hcount := hp.waits c
    have hwait : p = .waiting c := hp.at_waiting (List.count_pos_iff.mp (by simp only; omega))
    subst hwait
    have hzero : ((s.conn c).waiting.push x).nodes.count r = 0 := by
      simp only [Place.waits, if_pos] at hcount
      omega
    refine ⟨.nowhere, ⟨?_, ?_, ?_, fun y hy => (by cases hy), fun h => (by cases h), fun h => (by cases h),
      fun h => (by cases h), ?_, fun y z _ h => (by cases h)⟩, Or.inr (.lose c ?_ (Or.inl rfl))⟩
    · exact (congrArg (List.filter _) hown).trans hp.hand
    · intro y
      by_cases hy : y = c
      · rw [hy, hself, hzero]
        rfl
      · rw [hother y hy, hp.waits y]
        simp only [Place.waits, if_neg hy]
    · intro y
      rw [hacts, hp.acts y]
      rfl
    · intro z hz he
      rw [hown] at hz
      obtain ⟨hresp, hpc⟩ := hp.late z hz he
      exact ⟨hq.flags.responded.trans hresp, hq.pc.trans hpc⟩
    · intro hwf
      rw [hwf.push_nodes, List.count_append, List.count_singleton, if_neg (by simpa using hx)] at hsame
      exact hsame rfl

/-- The request itself is queued. -/
theorem Placed.push_self (hp : Placed r (h :: H, s) p) (hh : h = .sub r c ∨ h = .opened r c)
    (hpc : (s₁.reqs r).pc = some c) (hflags : SameFlags (s.reqs r) (s₁.reqs r)) (hconn : s₁.conn = s.conn) :
    ∃ p', Placed r (H, s₁.waitingPush r c) p' ∧ p = .hand h ∧ (p' = .waiting c ∨ Hop s r p p') := by
  have hr : h.req = r := by rcases hh with rfl | rfl <;> rfl
  have hx : h.expires = false := by rcases hh with rfl | rfl <;> rfl
  have hbusy : (Place.hand h).busy = true := by rcases hh with rfl | rfl <;> rfl
  have hset : (Place.hand h).settled = false := by rcases hh with rfl | rfl <;> rfl
  obtain ⟨rfl, _⟩ := hp.at_hand hr hx
  have hresp := hp.busy hbusy
  have hleg := hp.legacy hset
  have hkeep : (s.reqs r).responded = true →
      (s₁.reqs r).responded = true ∧ (s₁.reqs r).pc = (s.reqs r).pc := by
    intro h
    rw [hresp] at h
    cases h
  have hzero : (s.conn c).waiting.nodes.count r = 0 := hp.waits c
  have hle : ((s.conn c).waiting.push r).nodes.count r ≤ 1 := by
    have hsub := (Waiting.push_sublist (s.conn c).waiting r).count_le r
    rwa [List.count_append, List.count_singleton, hzero, if_pos (by simp), Nat.zero_add] at hsub
  have hacts : ∀ y, ((s₁.waitingPush r c).conn y).active.count r = (s.conn y).active.count r := by
    intro y
    rw [waitingPush_active, hconn]
  have hwaits : ∀ y, ((s₁.waitingPush r c).conn y).waiting.nodes.count r = (s.conn y).waiting.nodes.count r +
      if y = c then ((s.conn c).waiting.push r).nodes.count r else 0 := by
    intro y
    rw [waitingPush_waiting, hconn]
    by_cases hy : y = c
    · rw [if_pos hy, if_pos hy, hy, hzero, Nat.zero_add]
    · rw [if_neg hy, if_neg hy, Nat.add_zero]
  by_cases hone : ((s.conn c).waiting.push r).nodes.count r = 1
  · refine ⟨.waiting c, hp.go hr hx rfl (fun z hz => (by cases hz)) ?_ hacts ⟨?_, ?_, ?_⟩ hkeep, rfl, Or.inl rfl⟩
    · intro y
      rw [hwaits y, hone]
      rfl
    · rintro y ⟨⟩
      exact hpc
    · exact fun _ => hflags.responded.trans hresp
    · exact fun _ => hflags.legacy.trans hleg
  · have hlost : ((s.conn c).waiting.push r).nodes.count r = 0 := by omega
    refine ⟨.nowhere, hp.go hr hx rfl (fun z hz => (by cases hz)) ?_ hacts ⟨?_, ?_, ?_⟩ hkeep, rfl,
      Or.inr (.lose c ?_ (Or.inr ?_))⟩
    · intro y
      rw [hwaits y, hlost, ite_self]
      rfl
    · exact fun y hy => (by cases hy)
    · exact fun h => (by rcases h with h | h <;> cases h)
    · exact fun h => (by cases h)
    · intro hwf
      rw [hwf.push_nodes, List.count_append, hzero, List.count_singleton, if_pos (by simp)] at hlost
      cases hlost
    · exact hh.imp (congrArg Place.hand) (congrArg Place.hand)

end

end HolyTls

import HolyTls.H1.Accesses
import HolyTls.Lib.Ghost
import HolyTls.Pool.Step

/-!
# `Pool.H1Use` — HTTP/1.1 sessions after their release

The pool of `Pool.Step` once more, with every session of an HTTP/1.1 request as an object of its own that has a
`released` flag, and with each access of `h1_session_recv` and `h1_session_eof` to a session as an event. The
source releases a session where it clears the pointer `r->h1` to it, in `pool_req_done` and in
`pool_req_retry_or_fail`, and nowhere else; so the flags follow the pointer as ghost state. Without the flags
and the new events this is the pool as it was, for a step (`useStep_erase`) and for a run (`poolReach_iff_useReach`).

A call on a session keeps the pointer it was given, whatever the response callback does. It uses a released
session exactly where it touches the session after a reply.
-/

namespace HolyTls

open Prog

variable {α : Type}

/-! ## Sessions as objects -/

/-- The `k`-th session of a request. -/
abbrev SessPtr := ReqId × Nat

/-- How many sessions each request was given, and which of all sessions are released. -/
structure H1Heap where
  allocated : ReqId → Nat := fun _ => 0
  released : SessPtr → Bool := fun _ => false

namespace H1Heap

/-- The pool goes from `s` to `s'`: a pointer that is set is a new session, one that is cleared a release. -/
def follow (g : H1Heap) (s s' : Pool) : H1Heap :=
  { allocated := fun r =>
      if (s.reqs r).h1.isNone && (s'.reqs r).h1.isSome then g.allocated r + 1 else g.allocated r
    released := fun p =>
      g.released p || ((s.reqs p.1).h1.isSome && (s'.reqs p.1).h1.isNone && p.2 + 1 == g.allocated p.1) }

/-- The session that `r->h1` points to. -/
def pointer (g : H1Heap) (r : ReqId) : SessPtr := (r, g.allocated r - 1)

end H1Heap

/-- The pool's events, and
    - `recv`: `h1_session_recv` is called on a session with `data`;
    - `touch`: a call reads or writes the session `p`, whose flag is `released`. -/
inductive UseEvent where
  | pool (e : PoolEvent)
  | recv (h : H1Session) (data : Str8)
  | touch (p : SessPtr) (released : Bool)
deriving DecidableEq

def UseEvent.pool? : UseEvent → Option PoolEvent
  | pool e => some e
  | _ => none

abbrev UsePool := Pool × H1Heap
abbrev UseProg := Prog UsePool Ans UseEvent

/-- The pool's code as it was, with the flags following. -/
def asBefore {α : Type} (m : PoolProg α) : UseProg α := ghost H1Heap.follow UseEvent.pool m

section

variable (cfg : PoolCfg) (self : Entry → PoolProg Unit)

/-- One access of a call on the session `p` of `r`, or its callback. -/
def h1Act (r : ReqId) (p : SessPtr) : H1Act → UseProg Unit
  | .touch => do
      let u ← get
      report (.touch p (u.2.released p))
  | .reply hr => asBefore (poolH1OnResponse cfg self r hr)

/-- A call on the session of `r`, act by act. -/
def h1CallActs (r : ReqId) (call : H1Call) (acts : List H1Act) : UseProg Unit := do
  let u ← get
  asBefore (modify (·.updReq r (fun q => { q with h1 := some call.sess })))
  forEach (h1Act cfg self r (u.2.pointer r)) acts

/-- The loop of `pool_h1_drain`. -/
def poolH1DrainLoopActs (c : ConnId) : List Str8 → UseProg Bool
  | [] => pure false
  | data :: rest => do
      let u ← get
      report (.pool (.h1Read c (u.1.conn c).written (u.1.conn c).readBytes data))
      match (u.1.conn c).active.head?.bind (fun r => ((u.1.reqs r).h1.map (fun h => (r, h)))) with
      | none => do
          asBefore (modify (·.readH1 c data true))
          pure false
      | some (r, h) => do
          report (.recv h data)
          asBefore (modify (·.readH1 c data (h1SessionRecv cfg.phr h data).ok))
          h1CallActs cfg self r (h1SessionRecv cfg.phr h data) (h1SessionRecvActs cfg.phr h data)
          if (h1SessionRecv cfg.phr h data).ok = false then pure true
          else do
            let u ← get
            if (u.1.conn c).state = .closing ∨ (u.1.conn c).broken = true then pure false
            else poolH1DrainLoopActs c rest

/-- `pool_h1_drain`. -/
def poolH1DrainActs (c : ConnId) (reads : List Str8) : UseProg Unit := do
  let u ← get
  if (u.1.conn c).state = .closing then pure ()
  else do
    asBefore (setInDrain c true)
    let failed ← poolH1DrainLoopActs cfg self c reads
    asBefore (setInDrain c false)
    if failed then asBefore (poolConnFailAll self c (lit "h1 parse error"))
    else do
      asBefore (self (.flush c))
      asBefore (poolUpdateIdle self c)

/-- `pool_h1_on_closed`. -/
def poolH1OnClosedActs (c : ConnId) (e : Option Str8) : UseProg Unit := do
  let u ← get
  if (u.1.conn c).state = .closing then pure ()
  else do
    report (.pool (.h1Closed c (u.1.conn c).written (u.1.conn c).readBytes))
    asBefore (modify (·.endH1 c))
    whenSome ((u.1.conn c).active.head?.bind (fun r => ((u.1.reqs r).h1.map (fun h => (r, h)))))
      (fun x => h1CallActs cfg self x.1 (h1SessionEof x.2) (h1SessionEofActs x.2))
    asBefore (poolConnFailAll self c (e.getD (lit "connection closed")))

/-- What an event runs. -/
def useInput : PoolInput → UseProg Unit
  | .h1Readable c reads => poolH1DrainActs cfg self c reads
  | .h1Closed c err => poolH1OnClosedActs cfg self c err
  | i => asBefore (poolInput cfg self i)

end

/-- The pool with its sessions, and what it has done. -/
structure UseRun where
  use : UsePool
  log : List UseEvent

/-- One event, run to its end. -/
def useStep (cfg : PoolCfg) (w : UseRun) (t : PoolTurn) : Option UseRun :=
  if poolEnabled w.use.1 t.input then
    (run (useInput cfg (poolRec cfg t.depth) t.input) w.use t.answers).map
      (fun res => { use := res.state, log := w.log ++ res.out })
  else none

def useStart : UseRun := { use := (.empty, {}), log := [] }

/-- The states that a run passes through. -/
def UseReach (cfg : PoolCfg) : UseRun → Prop := Runs.Reach (· = useStart) (useStep cfg) (fun _ _ => True)

/-! ## It is the same pool -/

variable {w : UseRun}

section

variable {cfg : PoolCfg} {self : Entry → PoolProg Unit} {r : ReqId} {c : ConnId}

/-- The same program, without the flags and the accesses. -/
abbrev SamePool {α : Type} : UseProg α → PoolProg α → Prop := Erases UseEvent.pool?

theorem asBefore_same (m : PoolProg α) : SamePool (asBefore m) m := by
  apply Erases.ghost
  intro e
  rfl

theorem report_same (e : PoolEvent) : SamePool (report (.pool e)) (report e) := .emit rfl (.ret ())

/-- The acts of a call that replies at most once. -/
theorem h1Acts_same (p : SessPtr) {acts : List H1Act} {resp : Option H1Response}
    (h : acts.filterMap H1Act.reply? = resp.toList) :
    SamePool (forEach (h1Act cfg self r p) acts) (whenSome resp (poolH1OnResponse cfg self r)) := by
  induction acts generalizing resp with
  | nil =>
    cases resp with
    | none => exact .ret ()
    | some hr => cases h
  | cons x acts ih =>
    cases x with
    | touch => exact .look (fun u => .hidden rfl (ih h))
    | reply hr =>
      cases resp with
      | none => cases h
      | some hr' =>
        obtain ⟨rfl, hrest⟩ := List.cons.inj h
        exact (asBefore_same _).followed (fun _ => @ih none hrest)

theorem h1CallActs_same {call : H1Call} {acts : List H1Act} (h : acts.filterMap H1Act.reply? = call.resp.toList) :
    SamePool (h1CallActs cfg self r call acts) (h1Call cfg self r call) :=
  .look (fun _ => (asBefore_same _).bind (fun _ => h1Acts_same _ h))

theorem poolH1DrainLoopActs_same (reads : List Str8) :
    SamePool (poolH1DrainLoopActs cfg self c reads) (poolH1DrainLoop cfg self c reads) := by
  induction reads with
  | nil => exact .ret false
  | cons data rest ih =>
    refine .read (fun u => (report_same _).bind (fun _ => ?_))
    cases (u.1.conn c).active.head?.bind (fun r => ((u.1.reqs r).h1.map (fun h => (r, h)))) with
    | none => exact (asBefore_same _).bind (fun _ => .ret false)
    | some x =>
      refine .hidden rfl ((asBefore_same _).bind (fun _ => ?_))
      refine (h1CallActs_same h1SessionRecvActs_replies).bind (fun _ => ?_)
      exact Erases.ite (.ret true) (.read (fun u => Erases.ite (.ret false) ih))

theorem poolH1DrainActs_same (reads : List Str8) :
    SamePool (poolH1DrainActs cfg self c reads) (poolH1Drain cfg self c reads) := by
  refine .read (fun u => Erases.ite (.ret ()) ?_)
  refine (asBefore_same _).bind (fun _ => (poolH1DrainLoopActs_same reads).bind (fun failed => ?_))
  refine (asBefore_same _).bind (fun _ => Erases.ite (asBefore_same _) ?_)
  exact (asBefore_same _).bind (fun _ => asBefore_same _)

theorem poolH1OnClosedActs_same (e : Option Str8) :
    SamePool (poolH1OnClosedActs cfg self c e) (poolH1OnClosed cfg self c e) := by
  refine .read (fun u => Erases.ite (.ret ()) ?_)
  refine (report_same _).bind (fun _ => (asBefore_same _).bind (fun _ => ?_))
  refine Erases.bind ?_ (fun _ => asBefore_same _)
  cases (u.1.conn c).active.head?.bind (fun r => ((u.1.reqs r).h1.map (fun h => (r, h)))) with
  | none => exact .ret ()
  | some x => exact h1CallActs_same h1SessionEofActs_replies

theorem useInput_same (i : PoolInput) : SamePool (useInput cfg self i) (poolInput cfg self i) := by
  cases i with
  | h1Readable c reads => exact poolH1DrainActs_same reads
  | h1Closed c err => exact poolH1OnClosedActs_same err
  | _ => exact asBefore_same _

/-- The run as `Pool.Step` sees it. -/
def UseRun.erase (w : UseRun) : PoolRun := { pool := w.use.1, log := w.log.filterMap UseEvent.pool? }

/-- **Without the flags and the accesses, a step is a step of the pool.** -/
theorem useStep_erase (w : UseRun) (t : PoolTurn) : (useStep cfg w t).map UseRun.erase = poolStep cfg w.erase t := by
  unfold useStep poolStep
  show _ = if poolEnabled w.use.1 t.input = true then _ else _
  split_ifs
  · rw [show w.erase.pool = w.use.1 from rfl, ← (useInput_same t.input).run_eq w.use t.answers, Option.map_map,
      Option.map_map]
    congr 1
    funext res
    simp [UseRun.erase, Result.erase]
  · rfl

/-- Every run is a run of the pool. -/
theorem UseReach.erase (h : UseReach cfg w) : PoolReach cfg w.erase := by
  induction h with
  | start h =>
    subst h
    exact .start rfl
  | @next w w' t _ _ hs ih =>
    refine .next (e := t) ih trivial ?_
    rw [← useStep_erase, hs]
    rfl

end

/-- **The flags and the accesses are only watched**: the runs of the pool are the runs with them, erased. -/
theorem poolReach_iff_useReach (cfg : PoolCfg) (v : PoolRun) : PoolReach cfg v ↔ ∃ w, UseReach cfg w ∧ w.erase = v := by
  constructor
  · intro h
    induction h with
    | start h => exact ⟨useStart, .start rfl, h.symm⟩
    | @next v v' t _ _ hs ih =>
      obtain ⟨w, hw, rfl⟩ := ih
      rw [← useStep_erase] at hs
      obtain ⟨w', hstep, hv⟩ := Option.map_eq_some_iff.mp hs
      exact ⟨w', .next (e := t) hw trivial hstep, hv⟩
  · rintro ⟨w, hw, rfl⟩
    exact hw.erase

/-! ## A session in use is not released -/

/-- The session that `r->h1` points to is not released, and neither are those to come. -/
structure H1Live (u : UsePool) : Prop where
  held : ∀ r, (u.1.reqs r).h1.isSome = true → u.2.released (u.2.pointer r) = false ∧ 0 < u.2.allocated r
  fresh : ∀ r k, u.2.allocated r ≤ k → u.2.released (r, k) = false

theorem H1Live.start : H1Live useStart.use where
  held := by
    intro r h
    cases h
  fresh := fun _ _ _ => rfl

/-- Whatever the pool does, the flags follow. -/
theorem H1Live.follow (u : UsePool) (s : Pool) (h : H1Live u) : H1Live (s, u.2.follow u.1 s) := by
  constructor
  · intro r hr
    obtain ⟨hheld, hfresh⟩ := h
    have hnone : (s.reqs r).h1.isNone = false := by rw [← Option.not_isSome, hr]; rfl
    simp only [H1Heap.follow, H1Heap.pointer, hr, hnone]
    cases hbefore : (u.1.reqs r).h1.isSome with
    | true =>
      have hn : (u.1.reqs r).h1.isNone = false := by rw [← Option.not_isSome, hbefore]; rfl
      simpa [hn, H1Heap.pointer] using hheld r hbefore
    | false =>
      have hn : (u.1.reqs r).h1.isNone = true := by rw [← Option.not_isSome, hbefore]; rfl
      simpa [hn] using hfresh r (u.2.allocated r) (Nat.le_refl _)
  · intro r k hk
    have hle : u.2.allocated r ≤ k := by
      refine Nat.le_trans ?_ hk
      simp only [H1Heap.follow]
      split_ifs
      · exact Nat.le_succ _
      · exact Nat.le_refl _
    have hne : (k + 1 == u.2.allocated r) = false := by
      rw [beq_eq_false_iff_ne]
      omega
    simp [H1Heap.follow, h.fresh r k hle, hne]

/-! ## Touching released sessions -/

/-- No released session was touched. -/
def Untouched (log : List UseEvent) : Prop := ∀ p, .touch p true ∉ log

theorem Untouched.append {l l' : List UseEvent} (h : Untouched l) (h' : Untouched l') : Untouched (l ++ l') := by
  intro p hp
  rcases List.mem_append.mp hp with hp | hp
  · exact h p hp
  · exact h' p hp

/-- No call of `h1_session_recv` completes a head that ends the response. -/
def UseEvent.bodied (phr : Phr) : UseEvent → Bool
  | recv h data => !h.endsWith phr data
  | _ => true

section

variable {cfg : PoolCfg} {self : Entry → PoolProg Unit} {r : ReqId} {c : ConnId} {u : UsePool}

variable {β : Type}

/-- What code does that keeps the flags right and touches no released session. -/
abbrev Careful {α : Type} (cfg : PoolCfg) (m : UseProg α) (u : UsePool) : Prop :=
  wp (fun e => e.bodied cfg.phr = true) m (fun _ u' o => H1Live u' ∧ Untouched o) u

theorem Careful.before (m : PoolProg α) (h : H1Live u) : Careful cfg (asBefore m) u := by
  refine wp_mono (wp_ghost H1Live.follow m h) ?_
  rintro _ u' o ⟨hu', ho⟩
  refine ⟨hu', ?_⟩
  intro p hp
  obtain ⟨e, he⟩ := ho _ hp
  cases he

theorem Careful.pure {a : α} (h : H1Live u) : Careful cfg (pure a : UseProg α) u := by
  refine ⟨h, ?_⟩
  intro p hp
  cases hp

theorem Careful.bind {m : UseProg α} {k : α → UseProg β} (hm : Careful cfg m u)
    (hk : ∀ a u', H1Live u' → Careful cfg (k a) u') : Careful cfg (m >>= k) u := by
  rw [Careful, wp_bind]
  refine wp_mono hm ?_
  rintro a u' o ⟨hu', ho⟩
  refine wp_mono (hk a u' hu') ?_
  rintro b u'' o' ⟨hu'', ho'⟩
  exact ⟨hu'', ho.append ho'⟩

theorem Careful.get {k : UsePool → UseProg β} (hk : Careful cfg (k u) u) : Careful cfg (Prog.get >>= k) u := by
  rw [Careful, wp_bind, wp_get]
  exact hk

theorem Careful.report {e : UseEvent} {k : Unit → UseProg β} (he : ∀ p, e ≠ .touch p true)
    (hk : e.bodied cfg.phr = true → Careful cfg (k ()) u) : Careful cfg (Prog.report e >>= k) u := by
  rw [Careful, wp_bind, wp_report]
  intro hbodied
  refine wp_mono (hk hbodied) ?_
  rintro _ u' o ⟨hu', ho⟩
  refine ⟨hu', Untouched.append (l := [e]) ?_ ho⟩
  intro p hp
  exact he p (List.mem_singleton.mp hp).symm

theorem Careful.modify {f : Pool → Pool} {k : Unit → UseProg β}
    (hk : Careful cfg (k ()) (f u.1, u.2.follow u.1 (f u.1))) :
    Careful cfg (asBefore (Prog.modify f) >>= k) u := by
  rw [Careful, wp_bind]
  exact hk

theorem Careful.ite {p : Prop} [Decidable p] {m m' : UseProg α} (h : p → Careful cfg m u)
    (h' : ¬ p → Careful cfg m' u) : Careful cfg (if p then m else m') u := wp_ite h h'

/-- The acts of a call on a session that is not released, when the reply is the last of them. -/
theorem Careful.acts {p : SessPtr} {acts : List H1Act} (hlast : ReplyLast acts) (h : H1Live u)
    (hp : u.2.released p = false) : Careful cfg (forEach (h1Act cfg self r p) acts) u := by
  induction acts with
  | nil => exact Careful.pure h
  | cons x acts ih =>
    cases x with
    | touch =>
      show Careful cfg (Prog.get >>= fun v => Prog.report (.touch p (v.2.released p)) >>=
        fun _ => forEach (h1Act cfg self r p) acts) u
      refine Careful.get (Careful.report ?_ (fun _ => ih hlast))
      rw [hp]
      simp
    | reply hr =>
      cases hlast
      exact (Careful.before _ h).bind (fun _ u' hu' => Careful.pure hu')

theorem Careful.call {call : H1Call} {acts : List H1Act} (hlast : ReplyLast acts) (h : H1Live u)
    (hh1 : (u.1.reqs r).h1.isSome = true) : Careful cfg (h1CallActs cfg self r call acts) u := by
  refine Careful.get (Careful.modify ?_)
  have hlive := h.follow u (u.1.updReq r (fun q => { q with h1 := some call.sess }))
  refine Careful.acts hlast hlive ?_
  -- the session is written to in place: the pointer still leads to it
  obtain ⟨s, hs⟩ := Option.isSome_iff_exists.mp hh1
  have hheld := (hlive.held r (by simp)).1
  simpa [H1Heap.pointer, H1Heap.follow, hs] using hheld

/-- The session that `pool_h1_drain` and `pool_h1_on_closed` call is that of a request that has one. -/
theorem h1_of_active {s : Pool} {x : ReqId × H1Session}
    (h : (s.conn c).active.head?.bind (fun r => ((s.reqs r).h1.map (fun h => (r, h)))) = some x) :
    (s.reqs x.1).h1 = some x.2 := by
  obtain ⟨r, _, hr⟩ := Option.bind_eq_some_iff.mp h
  obtain ⟨h', hh', rfl⟩ := Option.map_eq_some_iff.mp hr
  exact hh'

theorem Careful.drainLoop (reads : List Str8) (h : H1Live u) :
    Careful cfg (poolH1DrainLoopActs cfg self c reads) u := by
  induction reads generalizing u with
  | nil => exact Careful.pure h
  | cons data rest ih =>
    refine Careful.get (Careful.report (by simp) (fun _ => ?_))
    cases hx : (u.1.conn c).active.head?.bind (fun r => ((u.1.reqs r).h1.map (fun h => (r, h)))) with
    | none => exact (Careful.before _ h).bind (fun _ _ hu' => Careful.pure hu')
    | some x =>
      refine Careful.report (by simp) (fun hbodied => Careful.modify ?_)
      have hh1 : (((u.1.readH1 c data (h1SessionRecv cfg.phr x.2 data).ok)).reqs x.1).h1.isSome = true := by
        rw [Pool.readH1, Pool.updConn_reqs, h1_of_active hx]
        rfl
      have hlast := h1SessionRecvActs_last (by simpa [UseEvent.bodied] using hbodied)
      refine (Careful.call hlast (h.follow u _) hh1).bind (fun _ u' hu' => ?_)
      refine Careful.ite (fun _ => Careful.pure hu') (fun _ => Careful.get ?_)
      exact Careful.ite (fun _ => Careful.pure hu') (fun _ => ih hu')

theorem Careful.drain (reads : List Str8) (h : H1Live u) : Careful cfg (poolH1DrainActs cfg self c reads) u := by
  refine Careful.get (Careful.ite (fun _ => Careful.pure h) (fun _ => ?_))
  refine (Careful.before _ h).bind (fun _ u₁ h₁ => (Careful.drainLoop reads h₁).bind (fun failed u₂ h₂ => ?_))
  refine (Careful.before _ h₂).bind (fun _ u₃ h₃ => ?_)
  refine Careful.ite (fun _ => Careful.before _ h₃) (fun _ => ?_)
  exact (Careful.before _ h₃).bind (fun _ _ h₄ => Careful.before _ h₄)

theorem Careful.closed (e : Option Str8) (h : H1Live u) : Careful cfg (poolH1OnClosedActs cfg self c e) u := by
  refine Careful.get (Careful.ite (fun _ => Careful.pure h) (fun _ => ?_))
  refine Careful.report (by simp) (fun _ => Careful.modify ?_)
  have h₁ := h.follow u (u.1.endH1 c)
  refine Careful.bind ?_ (fun _ _ h₂ => Careful.before _ h₂)
  cases hx : (u.1.conn c).active.head?.bind (fun r => ((u.1.reqs r).h1.map (fun h => (r, h)))) with
  | none => exact Careful.pure h₁
  | some x =>
    refine Careful.call h1SessionEofActs_last h₁ ?_
    rw [Pool.endH1, Pool.updConn_reqs, h1_of_active hx]
    rfl

theorem Careful.input (i : PoolInput) (h : H1Live u) : Careful cfg (useInput cfg self i) u := by
  cases i with
  | h1Readable c reads => exact Careful.drain reads h
  | h1Closed c err => exact Careful.closed err h
  | _ => exact Careful.before _ h

/-- One event. -/
theorem useStep_careful {w' : UseRun} {t : PoolTurn} (hs : useStep cfg w t = some w') (h : H1Live w.use)
    (hbodied : ∀ e ∈ w'.log, e.bodied cfg.phr = true) (hlog : Untouched w.log) :
    H1Live w'.use ∧ Untouched w'.log := by
  unfold useStep at hs
  split_ifs at hs
  obtain ⟨res, hrun, rfl⟩ := Option.map_eq_some_iff.mp hs
  obtain ⟨hlive, hout⟩ := run_sound (Careful.input t.input h) hrun
    (fun e he => hbodied e (List.mem_append_right _ he))
  exact ⟨hlive, hlog.append hout⟩

/-- The log grows. -/
theorem useStep_log {w' : UseRun} {t : PoolTurn} (hs : useStep cfg w t = some w') :
    ∀ e ∈ w.log, e ∈ w'.log := by
  unfold useStep at hs
  split_ifs at hs
  obtain ⟨res, _, rfl⟩ := Option.map_eq_some_iff.mp hs
  exact fun e he => List.mem_append_left _ he

theorem UseReach.careful (h : UseReach cfg w) (hbodied : ∀ e ∈ w.log, e.bodied cfg.phr = true) :
    H1Live w.use ∧ Untouched w.log := by
  induction h with
  | start h =>
    subst h
    exact ⟨H1Live.start, fun p hp => by cases hp⟩
  | next _ _ hs ih =>
    obtain ⟨hlive, hlog⟩ := ih (fun e he => hbodied e (useStep_log hs e he))
    exact useStep_careful hs hlive hbodied hlog

end

/-- **A session is not used after its release**, in every run of the pool in which no call of
    `h1_session_recv` completes a head that ends the response. -/
theorem h1_untouched_after_release (cfg : PoolCfg) (w : UseRun) (h : UseReach cfg w)
    (hbodied : ∀ s data, .recv s data ∈ w.log → s.endsWith cfg.phr data = false) :
    ∀ p, .touch p true ∉ w.log := by
  refine (h.careful ?_).2
  intro e he
  cases e with
  | recv s data => simp [UseEvent.bodied, hbodied s data he]
  | _ => rfl

/-- A request, its connection, and what is read from it. -/
def pooledReading (data : Str8) : List PoolTurn :=
  [⟨.call (.dispatch .h1 .get (lit "https://a/") false), 5, [.connect none]⟩,
   ⟨.h1Ready 0 (.ok []), 5, [.h1Alloc true]⟩,
   ⟨.h1Readable 0 [data], 5, [.calls []]⟩]

/-- A response with a body is read, delivered and its session released, without a touch too many. -/
theorem h1_untouched_length : ∃ w, (pooledReading (lit "HTTP/1.1 200 OK\r\nContent-Length: 2\r\n\r\nhi")).foldlM
      (useStep plainCfg) useStart = some w ∧
    .pool (.released 0) ∈ w.log ∧ .touch (0, 0) false ∈ w.log ∧ ∀ p, .touch p true ∉ w.log := by
  have hrun : ((pooledReading (lit "HTTP/1.1 200 OK\r\nContent-Length: 2\r\n\r\nhi")).foldlM
      (useStep plainCfg) useStart).map (fun w =>
        (decide (.pool (.released 0) ∈ w.log), decide (.touch (0, 0) false ∈ w.log),
          w.log.all (·.bodied plainCfg.phr))) = some (true, true, true) := by
    decide +kernel
  obtain ⟨w, hplay, hw⟩ := Option.map_eq_some_iff.mp hrun
  simp only [Prod.mk.injEq, decide_eq_true_eq, List.all_eq_true] at hw
  refine ⟨w, hplay, hw.1, hw.2.1, h1_untouched_after_release plainCfg w (Runs.Reach.foldlM (.start rfl) hplay) ?_⟩
  intro s data hmem
  simpa [UseEvent.bodied] using hw.2.2 _ hmem

/-- A response without a body: the callback releases the session, and `h1_session_recv` reads its state. -/
theorem h1_touched_after_release : ∃ w, UseReach plainCfg w ∧ .touch (0, 0) true ∈ w.log := by
  have hrun : ((pooledReading (lit "HTTP/1.1 204 No Content\r\n\r\n")).foldlM (useStep plainCfg) useStart).map
      (fun w => decide (.touch (0, 0) true ∈ w.log)) = some true := by
    decide +kernel
  obtain ⟨w, hplay, hw⟩ := Option.map_eq_some_iff.mp hrun
  exact ⟨w, Runs.Reach.foldlM (.start rfl) hplay, of_decide_eq_true hw⟩

end HolyTls

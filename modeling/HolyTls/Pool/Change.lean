import HolyTls.Pool.Frame

/-!
# `Pool.Change` — a move, seen from one side

Most moves leave a connection as it is, up to the fields that decide nothing. `Change` lists the others:
how the connection's lists, its counters and its state change, and what the move checked before. An
invariant of single connections is then shown once per change (`Turn.change`). `ReqChange` does the same for
the exchange of one request, `PoolEvent.Shown` and `Held.Comes` go the other way: from an event in the log,
or a request in hand, to the moves that can have led to it.
-/

namespace HolyTls

open Slots

/-- What a move from the world `w` that shows `o` can do to the connection `c`. The last argument is the
    connection afterwards. -/
inductive Change (cfg : PoolCfg) (w : PoolWorld) (o : List PoolEvent) (c : ConnId) (pc' : PoolConn) : Prop
  | quiet (h : Mild (w.2.conn c) pc')
  | born {r p} (hc : c = w.2.nconn) (hfree : .free r p ∈ w.1)
      (heq : pc' = { proto := p, origin := (w.2.reqs r).origin.take 255
                     host := (w.2.reqs r).host, port := (w.2.reqs r).port })
  | readied (h2 : Option H2Session) (h3c : Bool) (hstate : (w.2.conn c).state = .handshaking)
      (hh2 : h2 = (w.2.conn c).h2 ∨ (w.2.conn c).proto = .h2) (hh3 : (w.2.conn c).proto = .h3 → h3c = true)
      (heq : pc' = { w.2.conn c with h2 := h2, h3c := h3c, state := .ready })
  | reading (b : Bool) (hb : b = true → (w.2.conn c).state ≠ .closing)
      (heq : pc' = { w.2.conn c with inRecv := b })
  -- the waiting list
  | queued {r} (hhand : .sub r c ∈ w.1 ∨ .opened r c ∈ w.1)
      (hev : o = [.queuedOnDrained r c] ∨ o = [.queuedOnFailed r c] ∨ Queueable (w.2.conn c))
      (heq : pc' = { w.2.conn c with waiting := (w.2.conn c).waiting.push r })
  | popped {r v} (hpop : (w.2.conn c).waiting.pop = some (r, v))
      (hcap : poolConnHasCapacity (w.2.conn c) = true)
      (heq : pc' = { w.2.conn c with waiting := v })
  | forgot {r} (hhand : .expiring r (some c) ∈ w.1)
      (heq : pc' = { w.2.conn c with waiting := (w.2.conn c).waiting.remove r })
  | emptied (heq : pc' = { w.2.conn c with waiting := {}, drained := true })
  -- the active list and `streams[]`
  | written {r} (hhand : .sub r c ∈ w.1) (hproto : (w.2.conn c).proto = .h1)
      (hcap : poolConnHasCapacity (w.2.conn c) = true) (hev : o = [.write r c])
      (heq : pc' = { w.2.conn c with
        idle := if (w.2.conn c).inflight = 0 then false else (w.2.conn c).idle
        inflight := (w.2.conn c).inflight + 1, idleSinceMs := 0, active := r :: (w.2.conn c).active
        written := (w.2.conn c).written ++ [r] })
  | streamOpened {r} (hhand : .sub r c ∈ w.1) (hproto : (w.2.conn c).proto = .h3)
      (heq : pc' = { w.2.conn c with nextStream := (w.2.conn c).nextStream + 1 })
  | activated {r} (hhand : .sent r c ∈ w.1) (hproto : (w.2.conn c).proto = .h2)
      (hev : o = [.lateSubmit r c] ∧ (w.2.conn c).state = .closing ∨ Submittable (w.2.conn c))
      (heq : pc' = { w.2.conn c with
        idle := if (w.2.conn c).inflight = 0 then false else (w.2.conn c).idle
        inflight := (w.2.conn c).inflight + 1, idleSinceMs := 0, active := r :: (w.2.conn c).active })
  | activatedH3 {r} (hhand : .sent r c ∈ w.1) (hproto : (w.2.conn c).proto = .h3)
      (hrecv : (w.2.conn c).inRecv = false) (hh3c : (w.2.conn c).h3c = true)
      (hev : o = [.lateSubmit r c] ∧ (w.2.conn c).state = .closing ∨ Submittable (w.2.conn c))
      (heq : pc' = { w.2.conn c with
        idle := if (w.2.conn c).inflight = 0 then false else (w.2.conn c).idle
        inflight := (w.2.conn c).inflight + 1, idleSinceMs := 0, active := r :: (w.2.conn c).active
        streams := if (w.2.conn c).streams.length < h3MaxStreams then (w.2.conn c).streams ++ [r]
          else (w.2.conn c).streams })
  | taken {r c₀} (hact : r ∈ (w.2.conn c₀).active) (hpc : (w.2.reqs r).pc = some c)
      (hproto : (w.2.conn c₀).proto = .h2 ∨ (w.2.conn c₀).h2.isSome = true)
      (hopen : (w.2.reqs r).responded = false)
      (heq : pc' = { w.2.conn c with
        active := (w.2.conn c).active.erase r, inflight := (w.2.conn c).inflight - 1 })
  | takenH1 {r c₀ h} (hact : r ∈ (w.2.conn c₀).active) (hpc : (w.2.reqs r).pc = some c)
      (hproto : (w.2.conn c₀).proto = .h1) (hopen : (w.2.reqs r).responded = false)
      (hh1 : (w.2.reqs r).h1 = some h) (hdel : h.delivered = true)
      (heq : pc' = { w.2.conn c with
        active := (w.2.conn c).active.erase r, inflight := (w.2.conn c).inflight - 1 })
  | takenStray {r c₀} (hev : o = [.strayClose r]) (hhand : .sent r c₀ ∈ w.1)
      (hproto : (w.2.conn c₀).proto = .h2)
      (heq : pc' = { w.2.conn c with
        active := (w.2.conn c).active.erase r, inflight := (w.2.conn c).inflight - 1 })
  | dropped {r} (hhand : .cancelling r c ∈ w.1) (hproto : (w.2.reqs r).proto ≠ .h3)
      (hact : r ∈ (w.2.conn c).active ∨ (w.2.conn c).state = .closing)
      (hev : o = [.h1Expired r c] ∨ (w.2.reqs r).proto ≠ .h1 ∨ (w.2.conn c).broken = true)
      (heq : pc' = { w.2.conn c with
        active := (w.2.conn c).active.erase r, inflight := (w.2.conn c).inflight - 1 })
  | streamTaken {r sid} (hcalm : w.1 = []) (hfind : poolH3FindStream w.2 c sid = some r)
      (hrecv : (w.2.conn c).inRecv = true) (hopen : (w.2.reqs r).responded = false)
      (hev : o = [] ∨ o = [.streamClosed c sid false] ∧ sid < 4 * (w.2.conn c).nextStream)
      (heq : pc' = { w.2.conn c with
        streams := swapRemove (fun x => (w.2.reqs x).h3StreamId == (w.2.reqs r).h3StreamId) (w.2.conn c).streams
        active := (w.2.conn c).active.erase r, inflight := (w.2.conn c).inflight - 1 })
  | streamDropped {r} (hhand : .cancelling r c ∈ w.1) (hproto : (w.2.reqs r).proto = .h3)
      (hact : r ∈ (w.2.conn c).active ∨ (w.2.conn c).state = .closing)
      (heq : pc' = { w.2.conn c with
        streams := if (w.2.conn c).h3c then
            swapRemove (fun x => (w.2.reqs x).h3StreamId == (w.2.reqs r).h3StreamId) (w.2.conn c).streams
          else (w.2.conn c).streams
        active := (w.2.conn c).active.erase r, inflight := (w.2.conn c).inflight - 1 })
  -- the end of a connection
  | failed (hlive : (w.2.conn c).state ≠ .closing)
      (hrecv : (w.2.conn c).inRecv = false ∨ (w.2.conn c).state = .handshaking)
      (hev : o = [.failed c (!(w.2.conn c).streams.isEmpty) (w.2.answers c)])
      (heq : pc' = { w.2.conn c with
        broken := true, inflight := 0, active := [], waiting := {}, state := .closing })
  | closed (hwhy : (w.2.conn c).drained = true ∧ ((w.2.conn c).inflight = 0 ∨ (w.2.conn c).state = .handshaking) ∨
      o = [.idleClose c (w.2.strands c)] ∧ (w.2.conn c).inflight = 0)
      (heq : pc' = { w.2.conn c with state := .closing })
  -- an HTTP/1.1 connection is read from
  | ignored (data : Str8) (hev : o = [.h1Read c (w.2.conn c).written (w.2.conn c).readBytes data])
      (hnone : (w.2.conn c).active.head?.bind (fun r => ((w.2.reqs r).h1.map (fun h => (r, h)))) = none)
      (heq : pc' = { w.2.conn c with
        readBytes := (w.2.conn c).readBytes ++ data, ended := (w.2.conn c).ended || !true })
  | fed {r h} (data : Str8) (hev : o = [.h1Read c (w.2.conn c).written (w.2.conn c).readBytes data])
      (hopen : (w.2.conn c).ended = false) (hhead : (w.2.conn c).active.head? = some r)
      (hh1 : (w.2.reqs r).h1 = some h)
      (heq : pc' = { w.2.conn c with
        readBytes := (w.2.conn c).readBytes ++ data
        ended := (w.2.conn c).ended || !(h1SessionRecv cfg.phr h data).ok })
  | ended (hev : o = [.h1Closed c (w.2.conn c).written (w.2.conn c).readBytes])
      (heq : pc' = { w.2.conn c with ended := true })

theorem Mild.refl (pc : PoolConn) : Mild pc pc :=
  ⟨rfl, rfl, rfl, rfl, rfl, id, rfl, rfl, rfl, rfl, rfl, rfl, rfl, rfl, rfl, rfl, rfl, rfl⟩

variable {cfg : PoolCfg} {w w' : PoolWorld} {o : List PoolEvent} {c y : ConnId}

theorem Change.refl : Change cfg w o c (w.2.conn c) := .quiet (.refl _)

/-- Only the connection `y` changes. -/
theorem Change.updConn {s : Pool} {g : PoolConn → PoolConn} (hs : s.conn = w.2.conn)
    (h : Change cfg w o y (g (w.2.conn y))) : Change cfg w o c ((s.updConn y g).conn c) := by
  rw [Pool.updConn_conn, hs]
  split
  · next hc => exact hc ▸ h
  · exact .refl

theorem Move.change (h : Move cfg w o w') : Change cfg w o c (w'.2.conn c) := by
  cases h
  all_goals dsimp only
  case «open» H s r p hroom =>
      rw [Pool.addConn_conn]
      split
      · next hc => exact .born hc List.mem_cons_self rfl
      · exact .refl
  case park hev =>
      exact .updConn rfl (.queued (.inl List.mem_cons_self) (hev.imp id (fun h => .inr h.2)) rfl)
  case parkNew hev =>
      exact .updConn rfl (.queued (.inr List.mem_cons_self) (.inr (hev.imp id And.right)) rfl)
  case pop hcalm hpop hcap => exact .updConn rfl (.popped hpop hcap rfl)
  case writeH1 hproto hcap =>
      rw [Pool.afterSubmit, Pool.startH1, Pool.updConn_updConn]
      exact .updConn rfl (.written List.mem_cons_self hproto hcap rfl rfl)
  case openStream hproto =>
      rw [Pool.openStream, Pool.updReq_conn]
      exact .updConn rfl (.streamOpened List.mem_cons_self hproto rfl)
  case activate hproto hev =>
      exact .updConn rfl (.activated List.mem_cons_self hproto (hev.imp id And.right) rfl)
  case activateH3 hproto hrecv hh3c hev =>
      rw [Pool.afterSubmit, Pool.pushStream, Pool.updConn_updConn]
      exact .updConn rfl (.activatedH3 List.mem_cons_self hproto hrecv hh3c (hev.imp id And.right) rfl)
  case take got hact hh2 hpc hresp => exact .updConn rfl (.taken hact hpc hh2 hresp rfl)
  case takeH1 hact hproto hpc hresp hh1 hdel =>
      exact .updConn rfl (.takenH1 hact hpc hproto hresp hh1 hdel rfl)
  case takeStray got hproto hpc hresp =>
      exact .updConn rfl (.takenStray rfl List.mem_cons_self hproto rfl)
  case failAll hc hlive hrecv =>
      rw [Pool.close, Pool.detachAll, Pool.updConn_updConn]
      exact .updConn rfl (.failed hlive hrecv rfl rfl)
  case rehome hcalm hbroken => exact .updConn rfl (.emptied rfl)
  case closeDrained hdrained hempty => exact .updConn rfl (.closed (.inl ⟨hdrained, hempty⟩) rfl)
  case idleClose hc hempty => exact .updConn rfl (.closed (.inr ⟨rfl, hempty⟩) rfl)
  case evict H s =>
      rw [Pool.markAllBroken_conn]
      split
      · exact .quiet ⟨rfl, rfl, rfl, rfl, rfl, fun _ => rfl, rfl, rfl, rfl, rfl, rfl, rfl, rfl, rfl, rfl, rfl,
          rfl, rfl⟩
      · exact .refl
  case touch hc hmild => exact .updConn rfl (.quiet hmild)
  -- the others change no connection
  all_goals exact .refl

theorem Act.change (h : Act cfg w o w') : Change cfg w o c (w'.2.conn c) := by
  cases h
  case move h => exact h.change
  all_goals dsimp only
  case ready h2 h3c hc hstate hh2 hh3 => exact .updConn rfl (.readied h2 h3c hstate hh2 hh3 rfl)
  case fallback hc hstate => exact .updConn rfl (.emptied rfl)
  case takeStream s r y sid got hfind hrecv hresp hev =>
      have hsame : (fun x => ((s.updReq r (fun q => { q with h3Fin := true })).reqs x).h3StreamId ==
          (s.reqs r).h3StreamId) = fun x => (s.reqs x).h3StreamId == (s.reqs r).h3StreamId := by
        funext x
        rw [Pool.updReq_reqs]
        split
        · next hx => rw [hx]
        · rfl
      rw [Pool.activeRemove, Pool.removeStream, Pool.updConn_updConn, hsame]
      exact .updConn rfl (.streamTaken rfl hfind hrecv hresp hev rfl)
  case dropActive hproto hact hev =>
      exact .updConn rfl (.dropped List.mem_cons_self hproto hact (hev.imp id And.right) rfl)
  case dropStream hproto hact =>
      rw [Pool.activeRemove, Pool.dropStream, Pool.updConn_updConn]
      exact .updConn rfl (.streamDropped List.mem_cons_self hproto hact rfl)
  case dropWaiting hact => exact .updConn rfl (.forgot List.mem_cons_self rfl)
  all_goals exact .refl

/-- **What a move does to one connection.** -/
theorem Turn.change (h : Turn cfg w o w') : Change cfg w o c (w'.2.conn c) := by
  cases h
  case act h => exact h.change
  all_goals dsimp only
  case setInRecv b hc hb => exact .updConn rfl (.reading b hb rfl)
  case h1Ignore data hc hnone => exact .updConn rfl (.ignored data rfl hnone rfl)
  case h1Feed data hproto hopen hhead hh1 =>
      rw [Pool.updReq_conn]
      exact .updConn rfl (.fed data rfl hopen hhead hh1 rfl)
  case h1Closed hc hproto => exact .updConn rfl (.ended rfl rfl)
  case h1Eof hproto hopen hhead hh1 =>
      rw [Pool.updReq_conn]
      exact .updConn rfl (.ended rfl rfl)

/-! ## Requests -/

/-- The request keeps its HTTP/1.1 session and its stream. -/
structure SameExchange (q q' : PoolReq) : Prop where
  h1 : q'.h1 = q.h1
  sid : q'.h3StreamId = q.h3StreamId

/-- What a move can do to the exchange of the request `r`. -/
inductive ReqChange (cfg : PoolCfg) (w : PoolWorld) (o : List PoolEvent) (w' : PoolWorld) (r : ReqId) : Prop
  | same (h : SameExchange (w.2.reqs r) (w'.2.reqs r))
  | born (hr : r = w.2.nreq)
  | reset (hhand : (∃ got, .off r got ∈ w.1) ∨ .answered r ∈ w.1) (hh1 : (w'.2.reqs r).h1 = none)
      (hsid : (w'.2.reqs r).h3StreamId = (w.2.reqs r).h3StreamId)
  | started {c : ConnId} (hhand : .sub r c ∈ w.1) (hproto : (w.2.conn c).proto = .h1)
      (hh1 : (w'.2.reqs r).h1 = some (h1SessionStart ((w.2.reqs r).method = .head)))
      (hsid : (w'.2.reqs r).h3StreamId = (w.2.reqs r).h3StreamId)
  | streamOpened {c : ConnId} (hhand : .sub r c ∈ w.1) (hproto : (w.2.conn c).proto = .h3)
      (hsid : (w'.2.reqs r).h3StreamId = 4 * (w.2.conn c).nextStream)
      (hnext : (w'.2.conn c).nextStream = (w.2.conn c).nextStream + 1)
      (hh1 : (w'.2.reqs r).h1 = (w.2.reqs r).h1)
  | fed {c : ConnId} {h : H1Session} (data : Str8)
      (hev : o = [.h1Read c (w.2.conn c).written (w.2.conn c).readBytes data])
      (hhead : (w.2.conn c).active.head? = some r) (hh1 : (w.2.reqs r).h1 = some h)
      (hh1' : (w'.2.reqs r).h1 = some (h1SessionRecv cfg.phr h data).sess)
      (hsid : (w'.2.reqs r).h3StreamId = (w.2.reqs r).h3StreamId)
  | eof {c : ConnId} {h : H1Session} (hev : o = [.h1Closed c (w.2.conn c).written (w.2.conn c).readBytes])
      (hhead : (w.2.conn c).active.head? = some r) (hh1 : (w.2.reqs r).h1 = some h)
      (hh1' : (w'.2.reqs r).h1 = some (h1SessionEof h).sess)
      (hsid : (w'.2.reqs r).h3StreamId = (w.2.reqs r).h3StreamId)

variable {r x : ReqId} {s : Pool}

/-- Only the request `x` changes, as `f` says. -/
theorem ReqChange.updReq {f : PoolReq → PoolReq} (hreqs : w'.2.reqs = (w.2.updReq x f).reqs)
    (h : w'.2.reqs x = f (w.2.reqs x) → ReqChange cfg w o w' x) : ReqChange cfg w o w' r := by
  rcases eq_or_ne r x with rfl | hr
  · exact h (by rw [hreqs, Pool.updReq_reqs, if_pos rfl])
  · have heq : w'.2.reqs r = w.2.reqs r := by rw [hreqs, Pool.updReq_reqs, if_neg hr]
    exact .same (heq ▸ ⟨rfl, rfl⟩)

/-- The request `x` changes, but not its exchange. -/
theorem ReqChange.updReq_same {f : PoolReq → PoolReq} (hreqs : w'.2.reqs = (w.2.updReq x f).reqs)
    (hf : SameExchange (w.2.reqs x) (f (w.2.reqs x))) : ReqChange cfg w o w' r :=
  .updReq hreqs (fun hx => .same (hx ▸ hf))

theorem Move.reqChange (h : Move cfg w o w') : ReqChange cfg w o w' r := by
  cases h
  case dispatch H s proto method url deadline hok =>
      rcases eq_or_ne r s.nreq with hr | hr
      · exact .born hr
      · refine .same ?_
        dsimp only
        rw [Pool.addReq_reqs, if_neg hr]
        exact ⟨rfl, rfl⟩
  case assign H s x y p hpc => exact .updReq_same (x := x) rfl ⟨rfl, rfl⟩
  case reassign H s x y => exact .updReq_same (x := x) rfl ⟨rfl, rfl⟩
  case parkNew H s x y hev => exact .updReq_same (x := x) (f := fun q => { q with pc := some y }) rfl ⟨rfl, rfl⟩
  case writeH1 H s x y hproto hcap =>
      refine .updReq (x := x) (f := fun q => { q with h1 := some (h1SessionStart (q.method = .head)) }) rfl
        fun hx => ?_
      exact .started List.mem_cons_self hproto (by rw [hx]) (by rw [hx])
  case openStream H s x y hproto =>
      refine .updReq (x := x) (f := fun q => { q with h3StreamId := 4 * (s.conn y).nextStream }) rfl fun hx => ?_
      refine .streamOpened List.mem_cons_self hproto (by rw [hx]) ?_ (by rw [hx])
      simp only [Pool.openStream, Pool.updReq_conn, Pool.updConn_conn, if_pos]
  case retry H s x got hleft hresp =>
      refine .updReq (x := x) rfl fun hx => ?_
      exact .reset (.inl ⟨got, List.mem_cons_self⟩) (by rw [hx]) (by rw [hx])
  case answer H s x got resp hopen hresp => exact .updReq_same (x := x) rfl ⟨rfl, rfl⟩
  case release H s x =>
      refine .updReq (x := x) rfl fun hx => ?_
      exact .reset (.inr List.mem_cons_self) (by rw [hx]) (by rw [hx])
  case releaseOff H s x got hresp =>
      refine .updReq (x := x) rfl fun hx => ?_
      exact .reset (.inl ⟨got, List.mem_cons_self⟩) (by rw [hx]) (by rw [hx])
  case unassign H s x p => exact .updReq_same (x := x) rfl ⟨rfl, rfl⟩
  all_goals exact .same ⟨rfl, rfl⟩

/-- **What a move does to one request's exchange.** -/
theorem Turn.reqChange (h : Turn cfg w o w') : ReqChange cfg w o w' r := by
  cases h with
  | setInRecv b hc hb | h1Ignore data hc hnone | h1Closed hc hproto => exact .same ⟨rfl, rfl⟩
  | @h1Feed H s y x h data hproto hopen hhead hh1 =>
    refine .updReq (x := x) (f := fun q => { q with h1 := some (h1SessionRecv cfg.phr h data).sess }) rfl
      fun hx => ?_
    exact .fed data rfl hhead hh1 (by rw [hx]) (by rw [hx])
  | @h1Eof H s y x h hproto hopen hhead hh1 =>
    refine .updReq (x := x) (f := fun q => { q with h1 := some (h1SessionEof h).sess }) rfl fun hx => ?_
    exact .eof rfl hhead hh1 (by rw [hx]) (by rw [hx])
  | act h =>
    cases h
    case move h => exact h.reqChange
    case h3Fin H s x => exact .updReq_same (x := x) rfl ⟨rfl, rfl⟩
    case legacy H s x got => exact .updReq_same (x := x) rfl ⟨rfl, rfl⟩
    case takeStream s x y sid got hfind hrecv hresp hev =>
        exact .updReq_same (x := x) (f := fun q => { q with h3Fin := true }) rfl ⟨rfl, rfl⟩
    case disarm H s x => exact .updReq_same (x := x) rfl ⟨rfl, rfl⟩
    case expire s x hlt harmed hresp =>
        refine .updReq (x := x) (f := fun q => { q with timerArmed := false, responded := true }) ?_ ?_
        · funext y
          simp only [Pool.respond, Pool.updReq_reqs]
          split <;> rfl
        · exact fun hx => .same (hx ▸ ⟨rfl, rfl⟩)
    all_goals exact .same ⟨rfl, rfl⟩

/-! ## Events -/

/-- Bytes are read from an HTTP/1.1 connection, or its end. -/
def PoolEvent.reads : PoolEvent → Bool
  | h1Read .. => true
  | h1Closed .. => true
  | _ => false

/-- What an act from `w` to `w'` has done that shows an event. -/
def PoolEvent.Shown (cfg : PoolCfg) (w w' : PoolWorld) : PoolEvent → Prop
  | dispatched r => r = w.2.nreq
  | write r c => .streamed r c ∈ w.1 ∧ (w.2.conn c).proto = .h3 ∨ .sub r c ∈ w.1 ∧
      ((w.2.conn c).proto = .h1 → (w'.2.reqs r).h1 = some (h1SessionStart ((w.2.reqs r).method = .head)))
  | strayClose r => ∃ c, .sent r c ∈ w.1 ∧ (w.2.conn c).proto = .h2
  | callback r resp => resp.ok = false ∨
      ∃ g, .off r (some g) ∈ w.1 ∧ resp = responseDecodeEncoding cfg.decode g
  | failed c t _ => (w'.2.conn c).state = .closing ∧ (w'.2.conn c).inRecv = (w.2.conn c).inRecv ∧
      ((w.2.conn c).inRecv = false ∨ (w.2.conn c).state = .handshaking) ∧ t = !(w.2.conn c).streams.isEmpty
  | evicted n => n = w.2.nconn ∧ w'.2 = w.2.markAllBroken
  -- the request whose stream it is leaves, or nothing happens
  | streamClosed c sid b => w.1 = [] ∧ sid < 4 * (w.2.conn c).nextStream ∧
      ((∃ r got, poolH3FindStream w.2 c sid = some r ∧ w'.1 = [.off r got] ∧
          (w'.2.conn c).active = (w.2.conn c).active.erase r) ∨
        b = h3FinSet w.2 c sid ∧ ∀ r, (w.2.conn c).h3c = true → poolH3FindStream w.2 c sid = some r →
          (w.2.reqs r).h3Fin = true ∨ (w.2.reqs r).responded = true)
  | h1Read .. => False
  | h1Closed .. => False
  | _ => True

theorem Move.shown (h : Move cfg w o w') : o = [] ∨ ∃ e, o = [e] ∧ e.Shown cfg w w' := by
  cases h
  case dispatch => exact .inr ⟨_, rfl, rfl⟩
  case park ev hev => exact hev.elim (fun h => .inr ⟨_, h, trivial⟩) (fun h => .inl h.1)
  case parkNew ev hev => exact hev.elim (fun h => .inr ⟨_, h, trivial⟩) (fun h => .inl h.1)
  case write hproto =>
      refine .inr ⟨_, rfl, .inr ⟨List.mem_cons_self, fun hh1 => ?_⟩⟩
      rw [hproto] at hh1
      cases hh1
  case writeH1 hproto hcap =>
      refine .inr ⟨_, rfl, .inr ⟨List.mem_cons_self, fun _ => ?_⟩⟩
      simp only [Pool.afterSubmit, Pool.startH1, Pool.updConn_reqs, Pool.updReq_reqs, if_pos]
  case writeH3 hproto => exact .inr ⟨_, rfl, .inl ⟨List.mem_cons_self, hproto⟩⟩
  case activate ev hproto hev => exact hev.elim (fun h => .inr ⟨_, h.1, trivial⟩) (fun h => .inl h.1)
  case activateH3 ev hproto hrecv hh3c hev => exact hev.elim (fun h => .inr ⟨_, h.1, trivial⟩) (fun h => .inl h.1)
  case takeStray got hproto hpc hresp => exact .inr ⟨_, rfl, _, List.mem_cons_self, hproto⟩
  case answer hopen hresp =>
      refine .inr ⟨_, rfl, hresp.imp_right ?_⟩
      rintro ⟨g, rfl, heq⟩
      exact ⟨g, List.mem_cons_self, heq⟩
  case failAll hc hlive hrecv =>
      refine .inr ⟨_, rfl, ?_, ?_, hrecv, rfl⟩ <;> simp only [Pool.close, Pool.detachAll, Pool.updConn_conn, if_pos]
  case evict => exact .inr ⟨_, rfl, rfl, rfl⟩
  all_goals first | exact .inl rfl | exact .inr ⟨_, rfl, trivial⟩

theorem Act.shown (h : Act cfg w o w') : o = [] ∨ ∃ e, o = [e] ∧ e.Shown cfg w w' := by
  cases h
  case move h => exact h.shown
  case takeStream s x y sid got hfind hrecv hresp hev =>
      rcases hev with rfl | ⟨rfl, hsid⟩
      · exact .inl rfl
      · refine .inr ⟨_, rfl, rfl, hsid, .inl ⟨x, got, hfind, rfl, ?_⟩⟩
        simp only [Pool.activeRemove, Pool.removeStream, Pool.updConn_conn, if_pos, Pool.updReq_conn]
  case streamClosed hsid hnone => exact .inr ⟨_, rfl, rfl, hsid, .inr ⟨rfl, hnone⟩⟩
  case dropActive ev hproto hact hev => exact hev.elim (fun h => .inr ⟨_, h, trivial⟩) (fun h => .inl h.1)
  case expire hlt harmed hresp => exact .inr ⟨_, rfl, .inl rfl⟩
  all_goals first | exact .inl rfl | exact .inr ⟨_, rfl, trivial⟩

theorem Act.reads_nothing {e : PoolEvent} (h : Act cfg w o w') (he : e ∈ o) : e.reads = false := by
  rcases h.shown with rfl | ⟨x, rfl, hx⟩
  · cases he
  · cases List.mem_singleton.mp he
    cases e with
    | h1Read | h1Closed => exact hx.elim
    | _ => rfl

theorem Turn.shown (h : Turn cfg w o w') : o = [] ∨ ∃ e, o = [e] ∧ (e.reads = true ∨ e.Shown cfg w w') := by
  cases h with
  | act h => exact h.shown.imp_right fun ⟨e, heq, hshown⟩ => ⟨e, heq, .inr hshown⟩
  | setInRecv b hc hb => exact .inl rfl
  | _ => exact .inr ⟨_, rfl, .inl rfl⟩

/-- A move shows at most one event. -/
theorem Turn.length_le_one (h : Turn cfg w o w') : o.length ≤ 1 := by
  rcases h.shown with rfl | ⟨e, rfl, -⟩
  · exact Nat.zero_le 1
  · exact le_rfl

/-- **What a move has done that shows an event.** -/
theorem Turn.shown_of_mem {e : PoolEvent} (h : Turn cfg w o w') (he : e ∈ o) (hread : e.reads = false) :
    e.Shown cfg w w' := by
  rcases h.shown with rfl | ⟨x, rfl, hx⟩
  · cases he
  · cases List.mem_singleton.mp he
    exact hx.resolve_left (by rw [hread]; exact Bool.false_ne_true)

/-! ## The hand -/

/-- How a request has come into hand by a move. -/
def Held.Comes (w : PoolWorld) (o : List PoolEvent) (w' : PoolWorld) : Held → Prop
  -- dispatched, retried, or taken off the waiting list of a broken connection
  | free r p => r = w.2.nreq ∧ (w'.2.reqs r).proto = p ∨ (∃ got, .off r got ∈ w.1 ∧ p = (w.2.reqs r).proto) ∨
      ∃ c, r ∈ (w.2.conn c).waiting.nodes ∧ p = (w.2.conn c).proto
  | streamed r c => w.1.head? = some (.sub r c) ∧ (w'.2.reqs r).h3StreamId = 4 * (w.2.conn c).nextStream ∧
      (w'.2.conn c).nextStream = (w.2.conn c).nextStream + 1
  | sent r c => .streamed r c ∈ w.1 ∨ .sub r c ∈ w.1 ∧ (w.2.conn c).proto = .h2
  -- without a response, or with one that came on the connection it is active on
  | off r got => got = none ∨ .strayClose r ∈ o ∨
      (∃ c, r ∈ (w.2.conn c).active ∧ ((w.2.conn c).proto = .h2 ∨ (w.2.conn c).h2.isSome = true)) ∨
      (∃ c h, r ∈ (w.2.conn c).active ∧ (w.2.conn c).proto = .h1 ∧ (w.2.reqs r).h1 = some h ∧
        h.delivered = true ∧ got = some h.answer) ∨
      ∃ c, r ∈ (w.2.conn c).streams
  | _ => True

/-- One request comes into hand, and none of the others is new. -/
theorem hand_cons {x y : Held} {H : List Held} (hx : x ∈ y :: H) (hy : y.Comes w o w') (hH : H ⊆ w.1) :
    x ∈ w.1 ∨ x.Comes w o w' := by
  rcases List.mem_cons.mp hx with rfl | hx
  · exact .inr hy
  · exact .inl (hH hx)

/-- Several requests come into hand. -/
theorem hand_map {x : Held} {H : List Held} {l : List ReqId} {f : ReqId → Held} (hx : x ∈ l.map f ++ H)
    (hf : ∀ r ∈ l, (f r).Comes w o w') (hH : H ⊆ w.1) : x ∈ w.1 ∨ x.Comes w o w' := by
  rcases List.mem_append.mp hx with hx | hx
  · obtain ⟨r, hr, rfl⟩ := List.mem_map.mp hx
    exact .inr (hf r hr)
  · exact .inl (hH hx)

theorem Move.comes {x : Held} (h : Move cfg w o w') (hx : x ∈ w'.1) : x ∈ w.1 ∨ x.Comes w o w' := by
  cases h
  case dispatch H s proto method url deadline hok =>
      refine hand_cons hx (.inl ⟨rfl, ?_⟩) (List.Subset.refl H)
      simp only [Pool.addReq_reqs, if_pos, PoolReq.ofUrl]
  case write hproto => exact hand_cons hx (.inr ⟨List.mem_cons_self, hproto⟩) (List.subset_cons_self _ _)
  case openStream H s r c hproto =>
      refine hand_cons hx ⟨rfl, ?_, ?_⟩ (List.subset_cons_self _ _)
      · simp only [Pool.openStream, Pool.updReq_reqs, if_pos]
      · simp only [Pool.openStream, Pool.updReq_conn, Pool.updConn_conn, if_pos]
  case writeH3 hproto => exact hand_cons hx (.inl List.mem_cons_self) (List.subset_cons_self _ _)
  case giveUp | withdraw | abandon => exact hand_cons hx (.inl rfl) (List.subset_cons_self _ _)
  case take H s r c₀ c got hact hh2 hpc hresp =>
      exact hand_cons hx (.inr (.inr (.inl ⟨c₀, hact, hh2⟩))) (List.Subset.refl H)
  case takeH1 H s r c₀ c h hact hproto hpc hresp hh1 hdel =>
      exact hand_cons hx (.inr (.inr (.inr (.inl ⟨c₀, h, hact, hproto, hh1, hdel, rfl⟩)))) (List.Subset.refl H)
  case takeStray got hproto hpc hresp =>
      exact hand_cons hx (.inr (.inl List.mem_cons_self)) (List.Subset.refl _)
  case retry H s r got hleft hresp =>
      exact hand_cons hx (.inr (.inl ⟨got, List.mem_cons_self, rfl⟩)) (List.subset_cons_self _ _)
  case failAll H s c hc hlive hrecv =>
      rw [List.append_assoc] at hx
      rcases List.mem_append.mp hx with hx | hx
      · obtain ⟨r, -, rfl⟩ := List.mem_map.mp hx
        exact .inr (.inl rfl)
      · exact hand_map hx (fun _ _ => .inl rfl) (List.Subset.refl H)
  case rehome H s c hcalm hbroken =>
      exact hand_map hx (fun r hr => .inr (.inr ⟨c, hr, rfl⟩)) (List.Subset.refl H)
  case «open» | assign | answer => exact hand_cons hx trivial (List.subset_cons_self _ _)
  case pop H s r c w hcalm hpop hcap => exact hand_cons hx trivial (List.Subset.refl H)
  -- nothing comes into hand
  all_goals first | exact .inl hx | exact .inl (List.mem_cons_of_mem _ hx)

/-- **How a request has come into hand.** -/
theorem Turn.comes {x : Held} (h : Turn cfg w o w') (hx : x ∈ w'.1) : x ∈ w.1 ∨ x.Comes w o w' := by
  cases h with
  | act h =>
    cases h
    case move h => exact h.comes hx
    case fallback s c hc hstate => exact hand_map hx (fun _ _ => .inl rfl) (List.Subset.refl [])
    case legacy => exact hand_cons hx trivial (List.subset_cons_self _ _)
    case takeStream s r c sid got hfind hrecv hresp hev =>
        exact hand_cons hx (.inr (.inr (.inr (.inr ⟨c, List.mem_of_find?_eq_some hfind⟩)))) (List.Subset.refl [])
    case expire | cancel | dropActive | dropStream | dropWaiting | dropNone =>
        exact hand_cons hx trivial (List.nil_subset _)
    all_goals exact .inl hx
  | _ => exact .inl hx

end HolyTls

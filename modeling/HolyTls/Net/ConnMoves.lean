import HolyTls.Net.Connection

/-!
# `Net.ConnMoves` — what a connection's code can do

A `ConnMove` is one change of a connection by code that may run inside a callback, under the conditions the
code checks right there; `ConnTurn` adds what only the handlers of events do. Beside the connection stands
the status of a handshake step that is still to be acted on: `conn_drive_handshake` first writes out what
TLS has ready, which may fail and call the owner, and looks at the status afterwards.

`connReach_turns` says that every run is a sequence of turns. `ConnInv` is what every turn preserves about
the order in which a connection is set up.
-/

namespace HolyTls.Net

open Prog Runs

variable {o : List ConnEvent}

/-- The status of a handshake step that is to be acted on, and the connection. -/
abbrev ConnWorld := Option HsStatus × Connection

/-- Nothing changes but the proxy negotiation and its buffer. -/
structure Connection.Quiet (c c' : Connection) : Prop where
  state : c'.state = c.state
  tcp : c'.tcp = c.tcp
  ready : c'.readyFired = c.readyFired
  early : c'.earlyFired = c.earlyFired
  established : c'.established = c.established
  started : c'.started = c.started
  resolving : c'.resolving = c.resolving
  connecting : c'.connecting = c.connecting
  writes : c'.writes = c.writes
  reading : c'.reading = c.reading
  fed : c'.fed = c.fed
  pending : c'.pending = c.pending

/-- Events that no theorem is about. -/
def ConnEvent.quiet : ConnEvent → Bool
  | .readData => true
  | .onReadable => true
  | _ => false

/-- `SSL_write` takes bytes in some runs. -/
def wroteEvents (runs : List Str8) : List ConnEvent := runs.map .wrote

/-- Why `conn_fail` is called, with the events that go with it: a write is refused, or the memory for what
    has to wait (behind what waits already, or as the rest of what `SSL_write` has not taken); the stream ends
    before the connection is established or after it has been reported closed; or something goes wrong before
    `on_ready` can have reported success. -/
inductive FailCause : ConnWorld → List ConnEvent → Prop
  | refused {g c} (err : Str8) : FailCause (g, c) [.refused err]
  | queue {g c} (data err : Str8) (h : c.pending ≠ []) : FailCause (g, c) [.sent data, .refused err]
  | spill {g c} (runs : List Str8) (rest err : Str8) (h : c.state = .established ∨ c.state = .earlyData) :
      FailCause (g, c)
        (wroteEvents runs ++ [.wouldBlock c.state, .sent (runs.flatten ++ rest), .refused err])
  | readEnd {c} (err : Option Str8) (h : c.state ≠ .established) : FailCause (none, c) [.readEnd err]
  | setup {c} (h : c.established = false) : FailCause (none, c) []
  | status {st c} (h : st ≠ .earlyData) : FailCause (some st, c) []

/-- What `conn_fail` tells the owner. -/
def failEvents (c : Connection) (reason : Str8) : List ConnEvent :=
  if c.readyFired then [] else [.onReady (some reason)]

/-- What a connection's code does, step by step. -/
inductive ConnMove : ConnWorld → List ConnEvent → ConnWorld → Prop
  | quiet {g c c'} (ev : List ConnEvent) (hev : ∀ e ∈ ev, e.quiet = true) (h : c.Quiet c') :
      ConnMove (g, c) ev (g, c')
  | submit {g c} (data : Str8) (h : c.tcp = .open) : ConnMove (g, c) [.submitted data] (g, c.addWrite)
  -- plaintext: `SSL_write` takes all of it, or a part, or it is queued behind what waits already
  | send {g c} (runs : List Str8) (hp : c.pending = []) :
      ConnMove (g, c) (wroteEvents runs ++ [.sent runs.flatten]) (g, c)
  | spill {g c} (runs : List Str8) (rest : Str8) (cap : Nat) (hp : c.pending = [])
      (h : c.state = .established ∨ c.state = .earlyData) :
      ConnMove (g, c) (wroteEvents runs ++ [.wouldBlock c.state, .sent (runs.flatten ++ rest)])
        (g, { c with pending := rest, pendingCap := cap })
  | queue {g c} (data : Str8) (cap : Nat) (hp : c.pending ≠ []) :
      ConnMove (g, c) [.sent data] (g, { c with pending := c.pending ++ data, pendingCap := cap })
  | sslError {g c} (runs : List Str8) : ConnMove (g, c) (wroteEvents runs ++ [.sslError]) (g, c)
  | fail {g c} (ev : List ConnEvent) (reason : Str8) (h : FailCause (g, c) ev) :
      ConnMove (g, c) (ev ++ failEvents c reason) (g, (c.setState .failed).fireReady)
  -- `conn_connect` gives up before it starts anything
  | reject {c} (reason : Str8) (h : c.readyFired = false) (hp : c.established = false) :
      ConnMove (none, c) [.onReady (some reason)] (none, c.fireReady)
  | close {g c} : ConnMove (g, c) [.closeCall c.resolving] (g, c.close)
  -- the connection enters a phase before the handshake has brought anything
  | phase {g c} (st : ConnState) (hst : st ≠ .established) (h : c.fed = false) :
      ConnMove (g, c) [] (g, c.setState st)
  -- a handshake step, and what follows from its status
  | handshake {c} (st : HsStatus) (hfed : st = .done → c.fed = true) (h : c.established = false) :
      ConnMove (none, c) [.handshake st] (some st, if st = .done then c.finishTls else c)
  | establish {c} : ConnMove (some .done, c) [] (some .done, c.setState .established)
  -- what waits is written, all of it or not; then the step has failed
  | flush {c} (runs : List Str8) (rest : Str8) (h : c.pending = runs.flatten ++ rest) :
      ConnMove (some .done, c) (wroteEvents runs)
        (if rest = [] then some .done else some .error, { c with pending := [], pendingCap := 0 })
  | ready {c} (h : c.readyFired = false) (hst : c.state = .established) (hp : c.pending = []) :
      ConnMove (some .done, c) [.onReady none] (none, c.fireReady)
  | window {c} : ConnMove (some .earlyData, c) [] (some .earlyData, c.setState .earlyData)
  | early {c} (h : c.earlyFired = false) :
      ConnMove (some .earlyData, c) [.onEarlyReady] (none, c.fireEarly)
  | acted {st c} (h : st = .done ∨ st = .error → c.readyFired = true) : ConnMove (some st, c) [] (none, c)

/-- What the handlers of events do. -/
inductive ConnTurn : ConnWorld → List ConnEvent → ConnWorld → Prop
  | move {w o w'} (h : ConnMove w o w') : ConnTurn w o w'
  | connect {c} (h : c.started = false) :
      ConnTurn (none, c) [.connect] (none, { c with started := true, tcp := .open })
  | resolve {c} (hs : c.started = true) (htcp : c.tcp = .open) (hc : c.connecting = false)
      (hr : c.reading = false) (hf : c.fed = false) :
      ConnTurn (none, c) [] (none, { c with resolving := true })
  | dial {c} (hs : c.started = true) (htcp : c.tcp = .open) (hres : c.resolving = false)
      (hr : c.reading = false) (hf : c.fed = false) :
      ConnTurn (none, c) [] (none, { c with connecting := true, state := .connecting })
  | resolved {c} (h : c.resolving = true) :
      ConnTurn (none, c) [.completion .resolve] (none, { c with resolving := false })
  -- a resolution that completes, and the connect that it makes possible
  | resolvedDial {c} (h : c.resolving = true) :
      ConnTurn (none, c) [.completion .resolve]
        (none, { c with resolving := false, connecting := true, state := .connecting })
  | connected {c} (h : c.connecting = true) :
      ConnTurn (none, c) [.completion .connect] (none, { c with connecting := false })
  | startRead {c} (hs : c.started = true) (hres : c.resolving = false) (hc : c.connecting = false) :
      ConnTurn (none, c) [] (none, { c with reading := decide (c.tcp = .open) })
  | feed {c} (hr : c.reading = true) (htls : c.state ≠ .proxyTls) (hneg : c.state ≠ .proxyNegotiate) :
      ConnTurn (none, c) [] (none, { c with fed := true })
  | closed {c} (err : Option Str8) (h : c.state = .established) :
      ConnTurn (none, c) [.readEnd err, .onClosed err] (none, c.setState .closing)
  | written {c} (h : 0 < c.writes) :
      ConnTurn (none, c) [.completion .write] (none, { c with writes := c.writes - 1 })
  | handleClosed {c} (h : c.tcp = .closing) (hc : c.connecting = false) (hw : c.writes = 0) :
      ConnTurn (none, c) [.completion .close, .onFullyClosed] (none, { c with tcp := .absent })

/-- A change that shows in nothing. -/
theorem ConnMove.calm {g : Option HsStatus} {c c' : Connection} (h : c.Quiet c') : ConnMove (g, c) [] (g, c') :=
  .quiet [] (fun _ h => by cases h) h

/-! ## What moves keep -/

variable {w w' : ConnWorld}

theorem ConnMove.fed (h : ConnMove w o w') : w'.2.fed = w.2.fed := by
  cases h with
  | quiet ev hev h => exact h.fed
  | handshake st hfed h =>
    dsimp only
    split
    · rfl
    · rfl
  | _ => rfl

theorem ConnMove.readyFired (h : ConnMove w o w') (hr : w.2.readyFired = true) : w'.2.readyFired = true := by
  cases h with
  | quiet ev hev h => exact h.ready.trans hr
  | handshake st hfed h =>
    dsimp only
    split
    · exact hr
    · exact hr
  | fail ev reason h | reject reason h hp | ready h hst hp => rfl
  | _ => exact hr

theorem ConnMoves.readyFired (h : Trace ConnMove w o w') (hr : w.2.readyFired = true) :
    w'.2.readyFired = true :=
  h.preserves (P := fun w => w.2.readyFired = true) (fun _ _ _ => ConnMove.readyFired) hr

/-- How far a connection is set up. -/
structure ConnInv (c : Connection) : Prop where
  fresh : c.started = false →
    c.tcp = .absent ∧ c.resolving = false ∧ c.connecting = false ∧ c.writes = 0
  single : c.resolving = true → c.connecting = false
  setup : c.resolving = true ∨ c.connecting = true ∨ c.started = false → c.reading = false ∧ c.fed = false
  proxy : c.state = .proxyTls ∨ c.state = .proxyNegotiate → c.fed = false
  tls : c.established = true → c.fed = true

theorem ConnInv.init : ConnInv {} where
  fresh := fun _ => ⟨rfl, rfl, rfl, rfl⟩
  single := fun h => by cases h
  setup := fun _ => ⟨rfl, rfl⟩
  proxy := fun _ => rfl
  tls := fun h => by cases h

theorem ConnMove.inv (h : ConnMove w o w') (hi : ConnInv w.2) : ConnInv w'.2 := by
  cases h with
  | quiet ev hev h =>
    obtain ⟨hst, htcp, -, -, hest, hstart, hres, hconn, hw, hread, hfed, -⟩ := h
    constructor
    · intro h
      rw [htcp, hres, hconn, hw]
      exact hi.fresh (hstart ▸ h)
    · intro h
      rw [hconn]
      exact hi.single (hres ▸ h)
    · intro h
      rw [hread, hfed]
      rw [hres, hconn, hstart] at h
      exact hi.setup h
    · intro h
      rw [hfed]
      rw [hst] at h
      exact hi.proxy h
    · intro h
      rw [hfed]
      exact hi.tls (hest ▸ h)
  | @submit g c data htcp =>
    refine ⟨?_, hi.single, hi.setup, hi.proxy, hi.tls⟩
    intro h
    -- a connection that has not been started has no handle to write to
    have habs : c.tcp = .absent := (hi.fresh h).1
    rw [htcp] at habs
    cases habs
  | fail ev reason h | establish | window =>
    exact ⟨hi.fresh, hi.single, hi.setup, (by rintro (h | h) <;> cases h), hi.tls⟩
  | reject reason h hp | ready h hst hp | spill runs rest cap hp h | queue data cap hp | flush runs rest h
  | early h => exact ⟨hi.fresh, hi.single, hi.setup, hi.proxy, hi.tls⟩
  | @close g c =>
    refine ⟨?_, hi.single, ?_, (by rintro (h | h) <;> cases h), hi.tls⟩
    · intro h
      obtain ⟨htcp, hrest⟩ := hi.fresh h
      refine ⟨?_, hrest⟩
      simp only [Connection.close, show c.tcp = .absent from htcp]
      rfl
    · intro h
      have hs := hi.setup h
      refine ⟨?_, hs.2⟩
      simp only [Connection.close]
      split
      · rfl
      · exact hs.1
  | phase st hst h => exact ⟨hi.fresh, hi.single, hi.setup, fun _ => h, hi.tls⟩
  | handshake st hfed h =>
    dsimp only
    split
    · next hdone => exact ⟨hi.fresh, hi.single, hi.setup, hi.proxy, fun _ => hfed hdone⟩
    · exact hi
  | send runs hp | sslError runs | acted h => exact hi

theorem ConnTurn.inv (h : ConnTurn w o w') (hi : ConnInv w.2) : ConnInv w'.2 := by
  cases h with
  | move h => exact h.inv hi
  | connect h =>
    have hs := hi.setup (.inr (.inr h))
    refine ⟨(fun h => by cases h), hi.single, fun _ => hs, hi.proxy, hi.tls⟩
  | resolve hs htcp hc hr hf =>
    exact ⟨fun h => by simp_all, fun _ => hc, fun _ => ⟨hr, hf⟩, fun _ => hf, hi.tls⟩
  | dial hs htcp hres hr hf =>
    exact ⟨fun h => by simp_all, fun h => by simp_all, fun _ => ⟨hr, hf⟩, fun _ => hf, hi.tls⟩
  | @resolvedDial c h =>
    have hs := hi.setup (.inl h)
    refine ⟨?_, (fun h => by cases h), fun _ => hs, fun _ => hs.2, hi.tls⟩
    intro hst
    have hres : c.resolving = false := (hi.fresh hst).2.1
    rw [h] at hres
    cases hres
  | resolved h =>
    have hs := hi.setup (.inl h)
    refine ⟨?_, (fun h => by cases h), fun _ => hs, hi.proxy, hi.tls⟩
    intro hst
    obtain ⟨htcp, -, hrest⟩ := hi.fresh hst
    exact ⟨htcp, rfl, hrest⟩
  | connected h =>
    have hs := hi.setup (.inr (.inl h))
    refine ⟨?_, fun _ => rfl, fun _ => hs, hi.proxy, hi.tls⟩
    intro hst
    obtain ⟨htcp, hres, -, hw⟩ := hi.fresh hst
    exact ⟨htcp, hres, rfl, hw⟩
  | startRead hs hres hc =>
    exact ⟨hi.fresh, hi.single, (by rintro (h | h | h) <;> simp_all), hi.proxy, hi.tls⟩
  | @feed c hr htls hneg =>
    -- reads come only once nothing of the setup is under way
    have hno : ¬ (c.resolving = true ∨ c.connecting = true ∨ c.started = false) := by
      intro h
      have hread : c.reading = false := (hi.setup h).1
      rw [hr] at hread
      cases hread
    refine ⟨hi.fresh, hi.single, fun h => absurd h hno, ?_, fun _ => rfl⟩
    rintro (h | h)
    · exact absurd h htls
    · exact absurd h hneg
  | closed err h => exact ⟨hi.fresh, hi.single, hi.setup, (by rintro (h | h) <;> cases h), hi.tls⟩
  | @written c hw =>
    refine ⟨?_, hi.single, hi.setup, hi.proxy, hi.tls⟩
    intro hst
    obtain ⟨-, -, -, hw0⟩ := hi.fresh hst
    rw [show c.writes = 0 from hw0] at hw
    cases hw
  | @handleClosed c h hc hw =>
    refine ⟨?_, hi.single, hi.setup, hi.proxy, hi.tls⟩
    intro hst
    obtain ⟨-, hrest⟩ := hi.fresh hst
    exact ⟨rfl, hrest⟩

theorem ConnTurns.inv (h : Trace ConnTurn w o w') (hi : ConnInv w.2) : ConnInv w'.2 :=
  h.preserves (P := fun w => ConnInv w.2) (fun _ _ _ => ConnTurn.inv) hi

end HolyTls.Net

import HolyTls.Net.ConnSweep

/-!
# `Net.ConnData` — plaintext across the 0-RTT boundary

In the 0-RTT window `SSL_write` may take only a part of what it is offered, or nothing. The rest waits in
`pending`, and everything sent later queues behind it, until the handshake is done and `conn_flush_pending`
writes it. `DataInv` is what every turn keeps: what TLS has taken, followed by what waits, is what the owner
has passed in; once `on_ready` has reported success nothing waits any more.

On an established connection `conn_send_plaintext` relies on `SSL_write` never blocking (the write BIO is in
memory): what it put into `pending` then would never leave it (`early_data_stranded`).
-/

namespace HolyTls.Net

open Prog Runs

/-! ## What the log tells -/

/-- The bytes that TLS has taken, in order. -/
def acceptedBytes (l : List ConnEvent) : Str8 :=
  l.flatMap (fun e => match e with
    | .wrote run => run
    | _ => [])

/-- The bytes given to the calls of `conn_send_plaintext` that returned 1, in order. -/
def passedBytes (l : List ConnEvent) : Str8 :=
  l.flatMap (fun e => match e with
    | .sent data => data
    | _ => [])

@[simp] theorem acceptedBytes_append (l l' : List ConnEvent) :
    acceptedBytes (l ++ l') = acceptedBytes l ++ acceptedBytes l' := List.flatMap_append

@[simp] theorem passedBytes_append (l l' : List ConnEvent) :
    passedBytes (l ++ l') = passedBytes l ++ passedBytes l' := List.flatMap_append

@[simp] theorem acceptedBytes_wrote (runs : List Str8) : acceptedBytes (wroteEvents runs) = runs.flatten := by
  induction runs with
  | nil => rfl
  | cons run runs ih =>
    rw [List.flatten_cons, ← ih]
    rfl

@[simp] theorem passedBytes_wrote (runs : List Str8) : passedBytes (wroteEvents runs) = [] := by
  induction runs with
  | nil => rfl
  | cons run runs ih => exact ih

theorem onReady_not_mem_wrote (runs : List Str8) (err : Option Str8) : .onReady err ∉ wroteEvents runs := by
  simp [wroteEvents]

/-- `SSL_write` takes something or blocks, and does not block on an established connection. -/
def ConnEvent.obliging : ConnEvent → Bool
  | .sslError => false
  | .wouldBlock .established => false
  | _ => true

/-- An event that is about plaintext, or reports success. -/
def ConnEvent.aboutData : ConnEvent → Bool
  | .wrote _ => true
  | .sent _ => true
  | .onReady none => true
  | _ => false

theorem acceptedBytes_other {o : List ConnEvent} (h : ∀ e ∈ o, e.aboutData = false) : acceptedBytes o = [] := by
  apply List.flatMap_eq_nil_iff.mpr
  intro e he
  cases e with
  | wrote run => cases h _ he
  | _ => rfl

theorem passedBytes_other {o : List ConnEvent} (h : ∀ e ∈ o, e.aboutData = false) : passedBytes o = [] := by
  apply List.flatMap_eq_nil_iff.mpr
  intro e he
  cases e with
  | sent data => cases h _ he
  | _ => rfl

/-! ## The invariant -/

/-- Where the plaintext is. -/
structure DataInv (l : List ConnEvent) (w : ConnWorld) : Prop where
  done : w.1 = some .done → w.2.established = true
  -- a flush that stopped short leaves the step with an error in hand, and `on_ready` will report it
  balanced : (w.2.readyFired = false ∧ w.1 ≠ some .error) ∨ .onReady none ∈ l →
    acceptedBytes l ++ w.2.pending = passedBytes l
  settled : .onReady none ∈ l →
    w.2.pending = [] ∧ w.2.established = true ∧ w.1 = none ∧ w.2.state ≠ .earlyData ∧ w.2.readyFired = true

theorem DataInv.init : DataInv [] (none, {}) where
  done := fun h => by cases h
  balanced := fun _ => rfl
  settled := fun h => by cases h

section

variable {l o : List ConnEvent} {g : Option HsStatus} {c c' : Connection}

/-- With a status in hand, success has not been reported. -/
theorem DataInv.not_ready {st : HsStatus} (h : DataInv l (some st, c)) : .onReady none ∉ l := by
  intro hr
  cases (h.settled hr).2.2.1

/-- A step that moves no plaintext. -/
theorem DataInv.still (h : DataInv l (g, c)) (ho : ∀ e ∈ o, e.aboutData = false)
    (hp : c'.pending = c.pending) (hready : c.readyFired = true → c'.readyFired = true)
    (hest : c'.established = c.established) (hst : c'.state = .earlyData → c.state = .earlyData) :
    DataInv (l ++ o) (g, c') := by
  have hmem : .onReady none ∈ l ++ o → .onReady none ∈ l := by
    intro hm
    rcases List.mem_append.mp hm with hm | hm
    · exact hm
    · cases ho _ hm
  refine ⟨?_, ?_, ?_⟩
  · intro hg
    exact hest.trans (h.done hg)
  · intro hpre
    have hbal := h.balanced (hpre.imp (fun hr => ⟨?_, hr.2⟩) hmem)
    · rw [acceptedBytes_append, passedBytes_append, acceptedBytes_other ho, passedBytes_other ho]
      simpa [hp] using hbal
    · by_contra hf
      have hf' : c'.readyFired = true := hready (Bool.not_eq_false _ ▸ hf)
      rw [hr.1] at hf'
      cases hf'
  · intro hm
    obtain ⟨hpend, he, hg, hs, hr⟩ := h.settled (hmem hm)
    exact ⟨hp.trans hpend, hest.trans he, hg, fun hs' => hs (hst hs'), hready hr⟩

/-- Once success has been reported, `SSL_write` has no occasion to block. -/
theorem DataInv.no_block (h : DataInv l (g, c)) (hst : c.state = .established ∨ c.state = .earlyData)
    (hok : .wouldBlock c.state ∈ o) (ho : ∀ e ∈ l ++ o, e.obliging = true) : .onReady none ∉ l := by
  intro hr
  have hs : c.state = .established := hst.resolve_right (h.settled hr).2.2.2.1
  have hob := ho _ (List.mem_append_right l hok)
  rw [hs] at hob
  cases hob

/-- A step that moves plaintext; after `on_ready` it leaves nothing waiting. -/
theorem DataInv.moved (h : DataInv l (g, c)) (ho : .onReady none ∉ o) (hst : c'.state = c.state)
    (hest : c'.established = c.established) (hready : c'.readyFired = c.readyFired)
    (hset : .onReady none ∈ l → c'.pending = [])
    (hbal : acceptedBytes l ++ c.pending = passedBytes l →
      acceptedBytes (l ++ o) ++ c'.pending = passedBytes (l ++ o)) : DataInv (l ++ o) (g, c') := by
  have hmem : .onReady none ∈ l ++ o → .onReady none ∈ l := by
    intro hm
    exact (List.mem_append.mp hm).resolve_right ho
  refine ⟨fun hg => hest.trans (h.done hg), ?_, ?_⟩
  · intro hpre
    exact hbal (h.balanced (hpre.imp (fun hr => ⟨hready.symm.trans hr.1, hr.2⟩) hmem))
  · intro hm
    obtain ⟨-, he, hg, hs, hr⟩ := h.settled (hmem hm)
    exact ⟨hset (hmem hm), hest.trans he, hg, fun hs' => hs (hst ▸ hs'), hready.trans hr⟩

end

theorem FailCause.data {l ev : List ConnEvent} {g : Option HsStatus} {c : Connection} {reason : Str8}
    (hcause : FailCause (g, c) ev) (h : DataInv l (g, c))
    (hok : ∀ e ∈ l ++ (ev ++ failEvents c reason), e.obliging = true) :
    DataInv (l ++ (ev ++ failEvents c reason)) (g, (c.setState .failed).fireReady) := by
  have hreport : ∀ e ∈ failEvents c reason, e.aboutData = false := by
    intro e he
    unfold failEvents at he
    split at he
    · cases he
    · cases List.mem_singleton.mp he
      rfl
  -- plaintext goes down with the connection only when success has not been reported
  have hlost : .onReady none ∉ l → .onReady none ∉ ev →
      DataInv (l ++ (ev ++ failEvents c reason)) (g, (c.setState .failed).fireReady) := by
    intro hl hev
    have hno : .onReady none ∉ l ++ (ev ++ failEvents c reason) := by
      intro hm
      rcases List.mem_append.mp hm with hm | hm
      · exact hl hm
      · rcases List.mem_append.mp hm with hm | hm
        · exact hev hm
        · cases hreport _ hm
    refine ⟨h.done, ?_, fun hm => absurd hm hno⟩
    rintro (hpre | hm)
    · cases hpre.1
    · exact absurd hm hno
  have hstill : (∀ e ∈ ev, e.aboutData = false) →
      DataInv (l ++ (ev ++ failEvents c reason)) (g, (c.setState .failed).fireReady) := by
    intro hev
    refine h.still ?_ rfl (fun _ => rfl) rfl (fun hs => by cases hs)
    intro e he
    exact (List.mem_append.mp he).elim (hev e) (hreport e)
  cases hcause with
  | refused err | readEnd err hst => exact hstill (by simp [ConnEvent.aboutData])
  | setup hest | status hst => exact hstill (by simp)
  | queue data err hp =>
    refine hlost ?_ (by simp)
    intro hr
    exact hp (h.settled hr).1
  | spill runs rest err hst =>
    refine hlost ?_ (by simp [onReady_not_mem_wrote])
    exact h.no_block hst (by simp) hok

theorem ConnMove.data {l o : List ConnEvent} {w w' : ConnWorld} (hm : ConnMove w o w') (hi : ConnInv w.2)
    (h : DataInv l w) (hok : ∀ e ∈ l ++ o, e.obliging = true) : DataInv (l ++ o) w' := by
  cases hm with
  | quiet ev hev hq =>
    refine h.still ?_ hq.pending (fun hr => hq.ready.trans hr) hq.established (fun hs => hq.state ▸ hs)
    intro e he
    have hquiet := hev e he
    cases e <;> first | rfl | cases hquiet
  | submit data htcp => exact h.still (by simp [ConnEvent.aboutData]) rfl id rfl id
  | @send g c runs hp =>
    refine h.moved (by simp [onReady_not_mem_wrote]) rfl rfl rfl (fun _ => hp) ?_
    intro hbal
    rw [hp, List.append_nil] at hbal
    simp only [acceptedBytes_append, passedBytes_append, acceptedBytes_wrote, passedBytes_wrote, hbal, hp]
    simp [acceptedBytes, passedBytes]
  | @spill g c runs rest cap hp hst =>
    -- `SSL_write` blocks, so success has not been reported
    have hno := h.no_block hst (by simp) hok
    refine h.moved (by simp [onReady_not_mem_wrote]) rfl rfl rfl (fun hr => absurd hr hno) ?_
    intro hbal
    rw [hp, List.append_nil] at hbal
    simp only [acceptedBytes_append, passedBytes_append, acceptedBytes_wrote, passedBytes_wrote, hbal]
    simp [acceptedBytes, passedBytes]
  | @queue g c data cap hp =>
    refine h.moved (by simp) rfl rfl rfl (fun hr => absurd (h.settled hr).1 hp) ?_
    intro hbal
    simp only [acceptedBytes_append, passedBytes_append, ← hbal]
    simp [acceptedBytes, passedBytes]
  | sslError runs =>
    have hob := hok .sslError (by simp)
    cases hob
  | fail ev reason hcause => exact hcause.data h hok
  | reject reason hr hest =>
    exact h.still (by simp [ConnEvent.aboutData]) rfl (fun _ => rfl) rfl id
  | close => exact h.still (by simp [ConnEvent.aboutData]) rfl id rfl (fun hs => by cases hs)
  | @phase g c st hst hf =>
    -- the phases before the handshake are over once success is reported
    have hno : .onReady none ∉ l := by
      intro hr
      have hfed : c.fed = true := hi.tls (h.settled hr).2.1
      rw [hf] at hfed
      cases hfed
    rw [List.append_nil]
    exact ⟨h.done, h.balanced, fun hr => absurd hr hno⟩
  | @handshake c st hfed hest =>
    have hno : .onReady none ∉ l ++ [.handshake st] := by
      intro hr
      have he : c.established = true := (h.settled (by simpa using hr)).2.1
      rw [hest] at he
      cases he
    have hsame : ∀ c' : Connection, c'.pending = c.pending → c'.readyFired = c.readyFired →
        (st = .done → c'.established = true) → DataInv (l ++ [.handshake st]) (some st, c') := by
      intro c' hp hr he
      refine ⟨fun hg => he (Option.some.inj hg), ?_, fun hm => absurd hm hno⟩
      rintro (hpre | hm)
      · have hbal := h.balanced (.inl ⟨hr.symm.trans hpre.1, by simp⟩)
        rw [acceptedBytes_append, passedBytes_append, hp, ← hbal]
        simp [acceptedBytes, passedBytes]
      · exact absurd hm hno
    split
    · exact hsame _ rfl rfl (fun _ => rfl)
    · rename_i hst
      exact hsame _ rfl rfl (fun hd => absurd hd hst)
  | establish =>
    rw [List.append_nil]
    exact ⟨h.done, h.balanced, fun hr => absurd hr h.not_ready⟩
  | @flush c runs rest hp =>
    have hno : .onReady none ∉ l ++ wroteEvents runs := by
      intro hm
      exact (List.mem_append.mp hm).elim h.not_ready (onReady_not_mem_wrote runs none)
    refine ⟨fun _ => h.done rfl, ?_, fun hm => absurd hm hno⟩
    rintro (hpre | hm)
    · have hrest : rest = [] := by
        by_contra hne
        exact hpre.2 (if_neg hne)
      have hbal : acceptedBytes l ++ c.pending = passedBytes l := h.balanced (.inl ⟨hpre.1, by simp⟩)
      rw [hp, hrest, List.append_nil] at hbal
      simp [hbal]
    · exact absurd hm hno
  | @ready c hr hst hp =>
    have hbal : acceptedBytes l ++ c.pending = passedBytes l := h.balanced (.inl ⟨hr, by simp⟩)
    refine ⟨fun hg => (by cases hg), fun _ => ?_, fun _ => ⟨hp, h.done rfl, rfl, ?_, rfl⟩⟩
    · rw [acceptedBytes_append, passedBytes_append, ← hbal]
      simp [acceptedBytes, passedBytes, Connection.fireReady]
    · show c.state ≠ .earlyData
      rw [hst]
      decide
  | window =>
    rw [List.append_nil]
    exact ⟨fun hg => (by cases hg), h.balanced, fun hr => absurd hr h.not_ready⟩
  | early he =>
    have hno : .onReady none ∉ l ++ [.onEarlyReady] := by
      intro hm
      exact h.not_ready (by simpa using hm)
    refine ⟨fun hg => (by cases hg), ?_, fun hm => absurd hm hno⟩
    rintro (hpre | hm)
    · have hbal := h.balanced (.inl ⟨hpre.1, by simp⟩)
      rw [acceptedBytes_append, passedBytes_append, ← hbal]
      simp [acceptedBytes, passedBytes, Connection.fireEarly]
    · exact absurd hm hno
  | @acted st c hst =>
    rw [List.append_nil]
    refine ⟨fun hg => (by cases hg), ?_, fun hr => absurd hr h.not_ready⟩
    rintro (hpre | hm)
    · refine h.balanced (.inl ⟨hpre.1, ?_⟩)
      intro herr
      have hfired := hst (.inr (Option.some.inj herr))
      rw [hpre.1] at hfired
      cases hfired
    · exact absurd hm h.not_ready

theorem ConnTurn.data {l o : List ConnEvent} {w w' : ConnWorld} (hm : ConnTurn w o w') (hi : ConnInv w.2)
    (h : DataInv l w) (hok : ∀ e ∈ l ++ o, e.obliging = true) : DataInv (l ++ o) w' := by
  cases hm with
  | move hm => exact hm.data hi h hok
  | dial hs htcp hres hr hf => exact h.still (by simp) rfl id rfl (fun hs => by cases hs)
  | resolvedDial hr | closed err hst =>
    exact h.still (by simp [ConnEvent.aboutData]) rfl id rfl (fun hs => by cases hs)
  | _ => exact h.still (by simp [ConnEvent.aboutData]) rfl id rfl id

/-- Along every run on which `SSL_write` obliges. -/
theorem connReach_data {cfg : ConnCfg} {w : Machine.System Connection ConnEvent}
    (h : (connMachine cfg).Reach w) (hok : ∀ e ∈ w.log, e.obliging = true) :
    DataInv w.log (none, w.state) := by
  have hrun := Trace.invariant (I := fun l w => ConnInv w.2 ∧ DataInv l w)
    (C := fun l => ∀ e ∈ l, e.obliging = true) ?_ ?_ (connReach_turns h).1 [] ⟨ConnInv.init, DataInv.init⟩ hok
  · exact hrun.2
  · intro l l' hall e he
    exact hall e (List.mem_append_left l' he)
  · intro l w o w' hI hm hall
    exact ⟨hm.inv hI.1, hm.data hI.1 hI.2 hall⟩

/-- **No plaintext is lost, doubled or moved.** Once `on_ready` has reported success, TLS has taken exactly
    the bytes that were passed in, in order, as long as `SSL_write` does not block on an established
    connection. -/
theorem plaintext_in_order {cfg : ConnCfg} {w : Machine.System Connection ConnEvent}
    (h : (connMachine cfg).Reach w) (hok : ∀ e ∈ w.log, e.obliging = true)
    (hready : .onReady none ∈ w.log) : acceptedBytes w.log = passedBytes w.log := by
  have hinv := connReach_data h hok
  have hbal := hinv.balanced (.inr hready)
  rwa [(hinv.settled hready).1, List.append_nil] at hbal

/-- A connection with a cached address, on which the 0-RTT window takes two bytes of three. -/
def earlyRun : List (Machine.Turn ConnAns ConnInput) :=
  [ { event   := .connect
      answers := [.pumpValid true, .configured true, .dnsCached true, .rc none] },
    { event   := .connected none
      answers := [.handshake .earlyData none, .output [],
        .calls [.send [1, 2, 3]], .sslWrite 2, .sslWrite (-1), .realloc true, .output [], .output []] },
    { event   := .readData [22]
      answers := [.handshake .done none, .output [], .sslWrite 1, .output [],
        .calls [.send [4]], .sslWrite 1, .output []] } ]

theorem plaintext_in_order_split :
    ∃ w, (connMachine {}).Reach w ∧ passedBytes w.log = [1, 2, 3, 4] ∧ acceptedBytes w.log = passedBytes w.log := by
  have hrun : ((connMachine {}).play earlyRun).map (fun w =>
      (decide (∀ e ∈ w.log, e.obliging = true), decide (.onReady none ∈ w.log), passedBytes w.log)) =
      some (true, true, [1, 2, 3, 4]) := by decide +kernel
  obtain ⟨w, hplay, hw⟩ := Option.map_eq_some_iff.mp hrun
  simp only [Prod.mk.injEq, decide_eq_true_eq] at hw
  have hreach := Machine.Reach.of_play hplay
  exact ⟨w, hreach, hw.2.2, plaintext_in_order hreach hw.1 hw.2.1⟩

/-- A would-block on an established connection: the call returns 1, the connection stays established, and
    the byte stays in `pending`. -/
theorem early_data_stranded :
    ∃ w, (connMachine {}).Reach w ∧ .onReady none ∈ w.log ∧ .sslError ∉ w.log ∧
      w.state.state = .established ∧ acceptedBytes w.log ≠ passedBytes w.log := by
  have hrun : ((connMachine {}).play (earlyRun ++
      [{ event := .call (.send [5]), answers := [.sslWrite (-1), .realloc true, .output []] }])).map (fun w =>
      (decide (.onReady none ∈ w.log), decide (.sslError ∉ w.log), w.state.state,
        decide (acceptedBytes w.log ≠ passedBytes w.log))) =
      some (true, true, .established, true) := by decide +kernel
  obtain ⟨w, hplay, hw⟩ := Option.map_eq_some_iff.mp hrun
  simp only [Prod.mk.injEq, decide_eq_true_eq] at hw
  exact ⟨w, Machine.Reach.of_play hplay, hw.1, hw.2.1, hw.2.2.1, hw.2.2.2⟩

end HolyTls.Net

import HolyTls.Net.ConnMoves

/-!
# `Net.ConnSweep` — a connection's code makes moves

One lemma per function of `Net.Connection`. Functions that run a callback rely on `Answers`, that what the
owner can call makes moves; `connRec_answers` proves it by induction on how deep the connection is entered.
The writing functions also say that the state is the same unless the owner has been told of a failure
(`Told`), which is what `conn_drive_handshake` needs between a handshake step and what it does about it.
-/

namespace HolyTls.Net

open Prog Runs

variable {o : List ConnEvent}

/-- The program makes moves; the status in hand goes from `g` to `g'`. -/
abbrev Drives {α : Type} (g : Option HsStatus) (c : Connection) (m : ConnProg α) (g' : Option HsStatus)
    (R : α → Connection → Prop := fun _ _ => True) : Prop :=
  Does ConnMove (g, c) [] c m g' R

/-- The owner's calls make moves, whatever status is in hand. -/
def Answers (self : OwnerCall → ConnProg Unit) : Prop := ∀ k g c, Drives g c (self k) g

/-- The owner has been told of a failure, or the state and what waits to be written are the same. -/
def Told (c c' : Connection) : Prop := c'.readyFired = true ∨ (c'.state = c.state ∧ c'.pending = c.pending)

theorem Told.refl (c : Connection) : Told c c := .inr ⟨rfl, rfl⟩

/-- Once told, for ever told. -/
theorem Told.trans {c₁ c₂ c₃ : Connection} {g g' : Option HsStatus} (h : Told c₁ c₂)
    (ht : Trace ConnMove (g, c₂) o (g', c₃)) (h' : Told c₂ c₃) : Told c₁ c₃ := by
  rcases h with h | h
  · exact .inl (ConnMoves.readyFired ht h)
  · rcases h' with h' | h'
    · exact .inl h'
    · exact .inr ⟨h'.1.trans h.1, h'.2.trans h.2⟩

section

variable {cfg : ConnCfg} {self : OwnerCall → ConnProg Unit} {g : Option HsStatus} {c : Connection}
  {reason err data : Str8}

variable {w : ConnWorld}

/-! ## Reporting -/

/-- A callback makes the calls that the owner makes in it. -/
theorem ownerCallback_drives (hself : Answers self) : Drives g c (ownerCallback self) g := by
  apply Does.await_bind
  intro calls
  apply Does.forEach (fun _ => g) (fun _ => True)
  · intro k ks c' o' _ _
    exact hself k g c'
  · trivial

theorem ownerCallback_told (hself : Answers self) (hr : c.readyFired = true) :
    Drives g c (ownerCallback self) g (fun _ c' => c'.readyFired = true) :=
  Does.strengthen (ownerCallback_drives hself) (fun _ _ _ ht _ => ConnMoves.readyFired ht hr)

/-- `conn_fail` is one move with what caused it, and afterwards the owner knows. -/
theorem connFail_does (hself : Answers self) {ev : List ConnEvent} (hcause : FailCause (g, c) ev) :
    Does ConnMove (g, c) ev c (connFail self reason) g (fun _ c' => c'.readyFired = true) := by
  have hm : ConnMove (g, c) (ev ++ failEvents c reason) (g, (c.setState .failed).fireReady) := .fail ev reason hcause
  apply Does.modify_bind
  apply Does.get_bind
  apply Does.ite
  · intro hr
    -- the owner knows already
    have hsame : (c.setState .failed).fireReady = c.setState .failed := by
      have hr' : c.readyFired = true := hr
      simp only [Connection.setState, Connection.fireReady, hr']
    rw [hsame, failEvents, if_pos (show c.readyFired = true from hr), List.append_nil] at hm
    exact Does.commit hm (Does.pure hr)
  · intro hr
    rw [failEvents, if_neg (show ¬ c.readyFired = true from hr)] at hm
    apply Does.modify_bind
    apply Does.report_bind
    exact Does.commit hm (ownerCallback_told hself rfl)

/-- A refused write is a cause. -/
theorem connRefused_drives (hself : Answers self) :
    Drives g c (connRefused self err) g (fun _ c' => c'.readyFired = true) :=
  Does.report_bind (connFail_does hself (.refused err))

/-! ## Writing -/

theorem connSubmitted_drives (h : c.tcp = .open) :
    Drives g c (connSubmitted data) g (fun _ => Told c) :=
  Does.modify_bind (Does.report (.submit data h) (.inr ⟨rfl, rfl⟩))

theorem connRefused_told (hself : Answers self) : Drives g c (connRefused self err) g (fun _ => Told c) :=
  Does.strengthen (connRefused_drives hself) (fun _ _ _ _ h => .inl h)

/-- Only an open handle is written to. -/
theorem connRawWrite_drives (hself : Answers self) : Drives g c (connRawWrite self data) g (fun _ => Told c) := by
  apply Does.get_bind
  apply Does.ite
  · intro _
    exact Does.pure (Told.refl c)
  · intro h
    have htcp : c.tcp = .open := not_not.mp (fun hne => h (.inr hne))
    apply Does.await_bind
    intro r
    cases r.err with
    | none => exact connSubmitted_drives htcp
    | some e => exact connRefused_told hself

/-- Each turn looks at the handle again, as the one before may have closed it. -/
theorem connPumpLoop_drives (hself : Answers self) (chunks : List OutChunk) :
    Drives g c (connPumpLoop self chunks) g (fun _ => Told c) := by
  induction chunks generalizing c with
  | nil => exact Does.pure (Told.refl c)
  | cons ch rest ih =>
    apply Does.get_bind
    apply Does.ite
    · intro _
      exact Does.pure (Told.refl c)
    · intro h
      have htcp : c.tcp = .open := not_not.mp h
      match ch with
      | .ring data none =>
        apply Does.bind (connSubmitted_drives htcp)
        intro _ c₁ o₁ _ h₁
        exact Does.strengthen ih (fun _ _ _ ht h' => h₁.trans ht h')
      | .ring data (some e) => exact connRefused_told hself
      | .hop data =>
        apply Does.bind (connRawWrite_drives hself)
        intro _ c₁ o₁ _ h₁
        exact Does.strengthen ih (fun _ _ _ ht h' => h₁.trans ht h')

theorem connPumpToSocket_drives (hself : Answers self) :
    Drives g c (connPumpToSocket self) g (fun _ => Told c) := by
  apply Does.await_bind
  intro chunks
  exact connPumpLoop_drives hself chunks

/-- What is sealed for the proxy stays in its TLS. -/
theorem sslWriteOuter_drives (d : Str8) : Drives g c (sslWriteOuter d) g (fun _ c' => c' = c) := by
  suffices hloop : ∀ fuel rest, Does ConnMove (g, c) [] c
      (sslWriteLoop (fun _ => pure ()) fuel rest >>= fun _ => pure ()) g (fun (_ : Unit) c' => c' = c) from
    hloop _ d
  intro fuel
  induction fuel with
  | zero => exact fun rest => Does.pure rfl
  | succ fuel ih =>
    intro rest
    apply Does.ite_bind
    · exact fun _ => Does.pure rfl
    · intro _
      apply Does.assoc
      apply Does.await_bind
      intro n
      apply Does.ite_bind
      · exact fun _ => ih _
      · exact fun _ => Does.pure rfl

/-- The target's TLS takes what it is offered in runs, from the front. -/
theorem sslWriteTarget_bind {β : Type} {f : Str8 × Int → ConnProg β} {g' : Option HsStatus}
    {Q : β → Connection → Prop} {d : Str8} (h : ∀ runs rest n, d = runs.flatten ++ rest →
      Does ConnMove w (o ++ wroteEvents runs) c (f (rest, n)) g' Q) :
    Does ConnMove w o c (sslWriteTarget d >>= f) g' Q := by
  suffices hloop : ∀ fuel rest o, (∀ runs rest' n, rest = runs.flatten ++ rest' →
      Does ConnMove w (o ++ wroteEvents runs) c (f (rest', n)) g' Q) →
      Does ConnMove w o c (sslWriteLoop (fun run => report (.wrote run)) fuel rest >>= f) g' Q from
    hloop _ d o h
  intro fuel
  induction fuel with
  | zero =>
    intro rest o h
    have hend := h [] rest 1 rfl
    rw [wroteEvents, List.map_nil, List.append_nil] at hend
    exact hend
  | succ fuel ih =>
    intro rest o h
    have hend : ∀ n, Does ConnMove w o c (f (rest, n)) g' Q := by
      intro n
      have hend := h [] rest n rfl
      rwa [wroteEvents, List.map_nil, List.append_nil] at hend
    apply Does.ite_bind
    · exact fun _ => hend 1
    · intro _
      apply Does.assoc
      apply Does.await_bind
      intro n
      apply Does.ite_bind
      · intro _
        apply Does.assoc
        apply Does.report_bind
        apply ih
        -- one more run in front of those that follow
        intro runs rest' n' heq
        have hnext := h (rest.take n.toNat :: runs) rest' n'
          (by rw [List.flatten_cons, List.append_assoc, ← heq, List.take_append_drop])
        rw [wroteEvents, List.map_cons] at hnext
        rw [List.append_assoc]
        exact hnext
      · exact fun _ => hend n

/-- Through the outer TLS or straight to the socket. -/
theorem connFlushOutput_drives (hself : Answers self) :
    Drives g c (connFlushOutput self) g (fun _ => Told c) := by
  apply Does.get_bind
  apply Does.ite
  · intro _
    exact Does.pure (Told.refl c)
  · intro _
    apply Does.ite
    · intro _
      exact connPumpToSocket_drives hself
    · intro _
      apply Does.await_bind
      intro chunks
      apply Does.bind (P := fun _ c' => c' = c)
      · apply Does.forEach (fun _ => g) (fun c' => c' = c)
        · rintro d ds c' o' _ rfl
          exact sslWriteOuter_drives d
        · rfl
      · rintro _ c' _ _ rfl
        exact connPumpToSocket_drives hself

/-- `conn_pending_append`, after the events `o` of the call that queues. -/
theorem connPendingAppend_does (hself : Answers self)
    (hok : ∀ cap, ConnMove (g, c) o (g, { c with pending := c.pending ++ data, pendingCap := cap }))
    (hno : ∀ err, FailCause (g, c) (o ++ [.refused err])) :
    Does ConnMove (g, c) o c (connPendingAppend self data) g (fun _ _ => True) := by
  apply Does.ite
  · intro hnil
    have hm := hok c.pendingCap
    rw [hnil, List.append_nil] at hm
    exact Does.commit hm (Does.pure trivial)
  · intro _
    apply Does.get_bind
    apply Does.ite
    · intro _
      apply Does.await_bind
      intro ok
      cases ok with
      | true => exact Does.modify (hok _) trivial
      | false =>
        apply Does.report_bind
        exact Does.forget (connFail_does hself (hno _))
    · intro _
      exact Does.modify (hok c.pendingCap) trivial

/-- What was queued goes out as far as the TLS takes it; the rest is an error of the handshake step. -/
theorem connFlushPending_bind (hself : Answers self) {f : Bool → ConnProg Unit}
    (hall : ∀ c', (c'.readyFired = true ∨ (c'.state = c.state ∧ c'.pending = [])) →
      Drives (some .done) c' (f true) none)
    (hshort : ∀ c', Drives (some .error) c' (f false) none) :
    Drives (some .done) c (connFlushPending self >>= f) none := by
  apply Does.assoc
  apply Does.get_bind
  apply Does.ite_bind
  · intro hnil
    exact hall c (.inr ⟨rfl, hnil⟩)
  · intro _
    apply Does.assoc
    apply sslWriteTarget_bind
    intro runs rest n heq
    apply Does.assoc
    apply Does.modify_bind
    apply Does.commit (.flush runs rest heq)
    apply Does.assoc
    apply Does.bind (connFlushOutput_drives hself)
    intro _ c₁ o₁ _ h₁
    by_cases hrest : rest = []
    · simp only [hrest, if_true]
      exact hall c₁ h₁
    · simp only [hrest, if_false]
      exact hshort c₁

/-! ## The handshake -/

/-- Every status is acted on, and a failure ends the step. -/
theorem connOnStatus_drives (hself : Answers self) (lastErr : Option Str8) (st : HsStatus) :
    Drives (some st) c (connOnStatus self lastErr st) none := by
  -- a failure ends the step
  have hfail : ∀ {st : HsStatus} {c : Connection} {reason : Str8}, st ≠ .earlyData →
      Drives (some st) c (connFail self reason) none := by
    intro st c reason hst
    apply Does.finish (connFail_does hself (.status hst))
    intro _ c' h'
    exact ⟨.acted (fun _ => h'), trivial⟩
  cases st with
  | done =>
    apply Does.modify_bind
    apply Does.commit .establish
    apply connFlushPending_bind hself
    · intro c₁ hc₁
      apply Does.get_bind
      apply Does.ite
      · intro hr
        exact Does.commit (.acted (fun _ => hr)) (Does.pure trivial)
      · intro hr
        obtain ⟨hst, hp⟩ := hc₁.resolve_left hr
        apply Does.modify_bind
        apply Does.report_bind
        exact Does.commit (.ready (Bool.eq_false_iff.mpr hr) hst hp) (ownerCallback_drives hself)
    · intro c₁
      exact hfail (by decide)
  | earlyData =>
    apply Does.modify_bind
    apply Does.commit .window
    apply Does.get_bind
    apply Does.ite
    · intro _
      exact Does.commit (.acted (by rintro (h | h) <;> cases h)) (Does.pure trivial)
    · intro he
      apply Does.modify_bind
      apply Does.report_bind
      apply Does.commit (.early (Bool.eq_false_iff.mpr he))
      apply Does.bind (ownerCallback_drives hself)
      intro _ c₁ _ _ _
      apply Does.get_bind
      apply Does.when
      · exact fun _ => Does.forget (connFlushOutput_drives hself)
      · exact fun _ => trivial
  | earlyRejected =>
    apply Does.modify_bind
    apply Does.commit (.calm (by constructor <;> rfl))
    exact hfail (by decide)
  | error => exact hfail (by decide)
  | wantIo => exact Does.commit (.acted (by rintro (h | h) <;> cases h)) (Does.pure trivial)

/-- One step: what it puts out is flushed before its status is acted on. -/
theorem connDriveHandshake_drives (hself : Answers self) (hest : c.established = false) :
    Drives none c (connDriveHandshake self) none := by
  apply Does.get_bind
  apply Does.await_some_bind
  rintro i ⟨st, lastErr⟩ hans
  -- BoringSSL cannot be done before the server has said something
  have hfed : st = .done → c.fed = true := by
    intro hdone
    cases i <;> simp only [ConnAns.handshake?, reduceCtorEq] at hans
    split at hans
    · cases hans
    · rename_i hnot
      cases hans
      by_contra hf
      exact hnot ⟨hdone, Bool.eq_false_iff.mpr hf⟩
  have hrest : ∀ {c : Connection}, Drives (some st) c (connFlushOutput self >>= fun _ =>
      connOnStatus self lastErr st) none := by
    intro c
    apply Does.bind (connFlushOutput_drives hself)
    intro _ c₁ _ _ _
    exact connOnStatus_drives hself lastErr st
  have hm := ConnMove.handshake st hfed hest
  apply Does.report_bind
  apply Does.when_bind
  · intro hdone
    rw [if_pos (of_decide_eq_true hdone)] at hm
    exact Does.modify_bind (Does.commit hm hrest)
  · intro hnot
    rw [if_neg (of_decide_eq_false hnot)] at hm
    exact Does.commit hm hrest

/-! ## The proxy tunnel -/

/-- Nothing of the server has reached the target's TLS. -/
def Connection.Fresh (c : Connection) : Prop := c.fed = false ∧ c.established = false

/-- Only what is read feeds the TLS, and no move reads. -/
theorem ConnMove.fresh {w' : ConnWorld} (h : ConnMove w o w') (hf : w.2.Fresh) : w'.2.Fresh := by
  refine ⟨h.fed.trans hf.1, ?_⟩
  cases h with
  | quiet ev hev h => exact h.established.trans hf.2
  | @handshake c st hfed h =>
    have hst : st ≠ .done := by
      intro hdone
      have hc : c.fed = false := hf.1
      rw [hfed hdone] at hc
      cases hc
    dsimp only
    rw [if_neg hst]
    exact hf.2
  | _ => exact hf.2

theorem ConnMoves.fresh {w' : ConnWorld} (h : Trace ConnMove w o w') (hf : w.2.Fresh) : w'.2.Fresh :=
  h.preserves (P := fun w => w.2.Fresh) (fun _ _ _ => ConnMove.fresh) hf

/-- Setting up may fail at any point. -/
theorem connFail_setup (hself : Answers self) (hest : c.established = false) :
    Drives none c (connFail self reason) none :=
  Does.forget (connFail_does hself (.setup hest))

/-- A step of the negotiation: fields that nobody else reads, and the state. -/
theorem phase_trace (d : Connection) {st : ConnState} (hst : st ≠ .established) (hq : c.Quiet d)
    (hf : d.fed = false) : Trace ConnMove (g, c) [] (g, d.setState st) :=
  (Trace.single (ConnMove.calm hq)).trans (Trace.single (ConnMove.phase st hst hf))

theorem connRawWrite_step (hself : Answers self) : Drives g c (connRawWrite self data) g :=
  Does.forget (connRawWrite_drives hself)

/-- The tunnel stands: the handshake of the target starts. -/
theorem connProxyTunnelReady_drives (hself : Answers self) (hf : c.Fresh) :
    Drives none c (connProxyTunnelReady self) none := by
  apply Does.modify_bind
  apply Does.settle (phase_trace (c.enterPhase _) (by decide) (by constructor <;> rfl) hf.1)
  exact connDriveHandshake_drives hself hf.2

/-- The messages of the SOCKS5 negotiation: one that cannot be built fails, the others open their step. -/
theorem connSocks5Send_drives (hself : Answers self) (hest : c.established = false) (m : Str8)
    (ph : ProxyPhase) : Drives none c
      (if m = [] then connFail self reason
       else do
        modify (·.enterPhase ph)
        connRawWrite self m) none := by
  apply Does.ite
  · exact fun _ => connFail_setup hself hest
  · intro _
    apply Does.modify_bind
    apply Does.commit (.calm (by constructor <;> rfl))
    exact connRawWrite_step hself

/-- Each phase waits, fails or goes on to the next. -/
theorem connProxyAdvance_drives (hself : Answers self) (hf : c.Fresh) :
    Drives none c (connProxyAdvance cfg self) none := by
  apply Does.get_bind
  cases c.proxyPhase with
  | none => exact Does.pure trivial
  | httpConnect =>
    dsimp only
    cases proxyHttpResponseStatus c.nbuf with
    | none =>
      apply Does.ite
      · exact fun _ => connFail_setup hself hf.2
      · exact fun _ => Does.pure trivial
    | some status =>
      apply Does.ite
      · exact fun _ => connFail_setup hself hf.2
      · exact fun _ => connProxyTunnelReady_drives hself hf
  | socks5Greeting =>
    dsimp only
    cases proxySocks5ParseMethod c.nbuf with
    | none => exact Does.pure trivial
    | some method =>
      apply Does.ite
      · exact fun _ => connSocks5Send_drives hself hf.2 _ _
      · intro _
        apply Does.ite
        · exact fun _ => connSocks5Send_drives hself hf.2 _ _
        · exact fun _ => connFail_setup hself hf.2
  | socks5Auth =>
    dsimp only
    cases proxySocks5ParseUserpassReply c.nbuf with
    | none => exact Does.pure trivial
    | some ok =>
      apply Does.ite
      · exact fun _ => connSocks5Send_drives hself hf.2 _ _
      · exact fun _ => connFail_setup hself hf.2
  | socks5Connect =>
    dsimp only
    cases proxySocks5ParseReply c.nbuf with
    | none => exact Does.pure trivial
    | some r =>
      apply Does.ite
      · exact fun _ => connProxyTunnelReady_drives hself hf
      · exact fun _ => connFail_setup hself hf.2

/-- Nothing that the proxy says feeds the TLS of the target. -/
theorem connProxyConsume_drives (hself : Answers self) (hf : c.Fresh) :
    Drives none c (connProxyConsume cfg self data) none (fun _ => Connection.Fresh) := by
  apply Does.strengthen (R := fun _ _ => True)
  · apply Does.get_bind
    apply Does.ite
    · exact fun _ => connFail_setup hself hf.2
    · intro _
      apply Does.modify_bind
      apply Does.commit (.calm (by constructor <;> rfl))
      exact connProxyAdvance_drives hself hf
  · intro _ _ _ ht _
    exact ConnMoves.fresh ht hf

theorem connProxyOnData_drives (hself : Answers self) (hf : c.Fresh) :
    Drives none c (connProxyOnData cfg self data) none := by
  apply Does.get_bind
  apply Does.ite
  · exact fun _ => Does.forget (connProxyConsume_drives hself hf)
  · intro _
    apply Does.await_bind
    intro chunks
    apply Does.forget (R := fun _ => Connection.Fresh)
    apply Does.forEach (fun _ => none) Connection.Fresh
    · intro d ds c' _ _ hf'
      exact connProxyConsume_drives hself hf'
    · exact hf

/-- The TLS with the proxy; once it stands, the negotiation starts in it. -/
theorem connProxyOuterDrive_drives (hself : Answers self) (hf : c.Fresh) :
    Drives none c (connProxyOuterDrive cfg self) none := by
  apply Does.await_bind
  rintro ⟨st, _⟩
  apply Does.bind (connPumpToSocket_drives hself)
  intro _ c₁ _ ht₁ _
  have hf₁ : c₁.Fresh := ConnMoves.fresh ht₁ hf
  apply Does.ite
  · intro _
    apply Does.bind (sslWriteOuter_drives _)
    rintro _ c₂ _ _ rfl
    apply Does.bind (connPumpToSocket_drives hself)
    intro _ c₃ _ ht₃ _
    have hf₃ : c₃.Fresh := ConnMoves.fresh ht₃ hf₁
    exact ⟨phase_trace (c₃.enterPhase _) (by decide) (by constructor <;> rfl) hf₃.1, trivial⟩
  · intro _
    apply Does.ite
    · exact fun _ => connFail_setup hself hf₁.2
    · exact fun _ => Does.pure trivial

theorem connProxyBegin_drives (hself : Answers self) (hf : c.Fresh) :
    Drives none c (connProxyBegin cfg self) none := by
  apply Does.modify_bind
  apply Does.commit (.calm (by constructor <;> rfl))
  -- a plain negotiation: enter the phase, write the first message
  have hplain : ∀ {c : Connection} {data : Str8} (ph : ProxyPhase), c.Fresh → Drives none c (do
      modify (fun c => { c with proxyPhase := ph, state := .proxyNegotiate })
      connRawWrite self data) none := by
    intro c data ph hf
    apply Does.modify_bind
    exact Does.settle (phase_trace { c with proxyPhase := ph } (by decide) (by constructor <;> rfl) hf.1)
      (connRawWrite_step hself)
  cases cfg.proxy.type with
  | none | http | socks5 => exact hplain _ hf
  | https =>
    apply Does.ite
    · exact fun _ => connFail_setup hself hf.2
    · intro _
      apply Does.await_bind
      intro valid
      apply Does.ite
      · exact fun _ => connFail_setup hself hf.2
      · intro _
        apply Does.await_bind
        intro configured
        apply Does.ite
        · exact fun _ => connFail_setup hself hf.2
        · intro _
          apply Does.modify_bind
          exact Does.settle (phase_trace { c with nbuf := [], outerActive := true } (by decide)
            (by constructor <;> rfl) hf.1) (connProxyOuterDrive_drives hself hf)

/-! ## Calls of the owner -/

/-- Sent, queued behind what waits, or spilled when the TLS takes only a part. -/
theorem connSendPlaintext_drives (hself : Answers self) : Drives g c (connSendPlaintext self data) g := by
  apply Does.get_bind
  apply Does.ite
  · exact fun _ => Does.pure trivial
  · intro hst
    have hopen : c.state = .established ∨ c.state = .earlyData := by
      by_contra hno
      exact hst (not_or.mp hno)
    have hflush : ∀ {c : Connection}, Drives g c (connFlushOutput self >>= fun _ => pure true) g := by
      intro c
      apply Does.bind (connFlushOutput_drives hself)
      intro _ _ _ _ _
      exact Does.pure trivial
    apply Does.ite
    · intro hp
      apply Does.report_bind
      apply Does.bind (connPendingAppend_does hself (fun cap => .queue data cap hp) (fun err => .queue data err hp))
      intro _ _ _ _ _
      exact Does.pure trivial
    · intro hp
      have hp : c.pending = [] := not_not.mp hp
      apply sslWriteTarget_bind
      rintro runs rest n rfl
      dsimp only
      split
      · rename_i hrest
        subst hrest
        rw [List.append_nil]
        apply Does.report_bind
        exact Does.commit (.send runs hp) hflush
      · split
        · apply Does.report_bind
          apply Does.report_bind
          rw [List.append_assoc]
          apply Does.bind (connPendingAppend_does hself ?_ ?_)
          · intro _ _ _ _ _
            exact hflush
          · intro cap
            rw [hp]
            exact .spill runs rest cap hp hopen
          · intro err
            rw [List.append_assoc]
            exact .spill runs rest err hopen
        · apply Does.report_bind
          exact Does.commit (.sslError runs) (Does.pure trivial)

theorem connClose_drives : Drives g c connClose g := by
  apply Does.get_bind
  apply Does.report_bind
  exact Does.modify .close trivial

theorem connOwnerCall_answers (hself : Answers self) : Answers (connOwnerCall self) := by
  intro k g c
  cases k with
  | send data =>
    apply Does.bind (connSendPlaintext_drives hself)
    intro _ _ _ _ _
    exact Does.pure trivial
  | close => exact connClose_drives

/-- By induction on how deep the connection may be entered. -/
theorem connRec_answers (n : Nat) : Answers (connRec n) := by
  induction n with
  | zero => exact fun k g c => Does.stuck
  | succ n ih => exact connOwnerCall_answers ih

/-! ## The handlers of events -/

/-- The program makes turns, and acts on every status it gets. -/
abbrev Turns {α : Type} (c : Connection) (m : ConnProg α) : Prop :=
  Does ConnTurn (none, c) [] c m none (fun _ _ => True)

/-- A move is a turn. -/
theorem Drives.turns {α : Type} {m : ConnProg α} (h : Drives none c m none) : Turns c m :=
  Does.widen h (fun _ _ _ hm => .move hm)

theorem connDeliverReady_reject (hself : Answers self) (hest : c.established = false) :
    Turns c (connDeliverReady self (some reason)) := by
  apply Drives.turns
  apply Does.get_bind
  apply Does.ite
  · exact fun _ => Does.pure trivial
  · intro hr
    apply Does.modify_bind
    apply Does.report_bind
    exact Does.commit (.reject reason (Bool.eq_false_iff.mpr hr) hest) (ownerCallback_drives hself)

/-- The call of `uv_tcp_connect`, once the socket is bound. -/
theorem connDial_does (hself : Answers self) (hest : c.established = false) (hfail : ConnTurn w o (none, c))
    (hdial : ConnTurn w o (none, { c with connecting := true, state := .connecting })) :
    Does ConnTurn w o c (do
      let rc ← await ConnAns.rc?
      match rc with
      | some e => connFail self e
      | none => modify (fun c => { c with connecting := true, state := .connecting })) none
      (fun _ _ => True) := by
  apply Does.await_bind
  intro rc
  cases rc with
  | some e => exact Does.commit hfail (Drives.turns (connFail_setup hself hest))
  | none => exact Does.modify hdial trivial

/-- `conn_begin_tcp_connect`, after what has piled up: it fails, or the connect is under way. -/
theorem connBeginTcpConnect_does (hself : Answers self) (hest : c.established = false)
    (hfail : ConnTurn w o (none, c))
    (hdial : ConnTurn w o (none, { c with connecting := true, state := .connecting })) :
    Does ConnTurn w o c (connBeginTcpConnect cfg self) none (fun _ _ => True) := by
  unfold connBeginTcpConnect
  apply Does.ite
  · intro _
    apply Does.await_bind
    intro bound
    cases bound with
    | some e => exact Does.commit hfail (Drives.turns (connFail_setup hself hest))
    | none => exact connDial_does hself hest hfail hdial
  · intro _
    exact connDial_does hself hest hfail hdial

/-- The target's TLS is not done before it has been fed. -/
theorem ConnInv.fresh_of (hinv : ConnInv c) (hfed : c.fed = false) : c.Fresh := by
  refine ⟨hfed, ?_⟩
  by_contra h
  rw [hinv.tls (Bool.not_eq_false _ ▸ h)] at hfed
  cases hfed

/-- Rejected, resolved from the cache and dialled, or the resolver is asked. -/
theorem connConnect_turns (hself : Answers self) (hinv : ConnInv c) (hs : c.started = false) :
    Turns c (connConnect cfg self) := by
  obtain ⟨-, hres, hconn, -⟩ := hinv.fresh hs
  obtain ⟨hread, hfed⟩ := hinv.setup (.inr (.inr hs))
  have hest := (hinv.fresh_of hfed).2
  apply Does.modify_bind
  apply Does.report_bind
  apply Does.commit (.connect hs)
  apply Does.await_bind
  intro valid
  apply Does.ite
  · exact fun _ => connDeliverReady_reject hself hest
  · intro _
    apply Does.await_bind
    intro configured
    apply Does.ite
    · exact fun _ => connDeliverReady_reject hself hest
    · intro _
      apply Does.await_bind
      intro cached
      apply Does.ite
      · intro _
        exact connBeginTcpConnect_does hself hest (.move (.calm (by constructor <;> rfl)))
          (.dial rfl rfl hres hread hfed)
      · intro _
        apply Does.modify_bind
        apply Does.commit (.move (.phase .resolving (by decide) hfed))
        apply Does.await_bind
        intro rc
        cases rc with
        | some e => exact Drives.turns (connFail_setup hself hest)
        | none => exact Does.modify (.resolve rfl rfl hconn hread hfed) trivial

theorem ConnInv.started_of (hinv : ConnInv c)
    (h : c.resolving = true ∨ c.connecting = true) : c.started = true := by
  by_contra hs
  obtain ⟨-, hres, hconn, -⟩ := hinv.fresh (Bool.eq_false_iff.mpr hs)
  rcases h with h | h
  · rw [hres] at h
    cases h
  · rw [hconn] at h
    cases h

theorem connOnResolved_turns (hself : Answers self) (hinv : ConnInv c) (h : c.resolving = true)
    (err : Option Str8) : Turns c (connOnResolved cfg self err) := by
  obtain ⟨-, hfed⟩ := hinv.setup (.inl h)
  have hf : c.Fresh := hinv.fresh_of hfed
  apply Does.modify_bind
  apply Does.report_bind
  cases err with
  | some e => exact Does.commit (.resolved h) (Drives.turns (connFail_setup hself hf.2))
  | none => exact connBeginTcpConnect_does hself hf.2 (.resolved h) (.resolvedDial h)

/-- Reading starts, then the handshake or the negotiation with a proxy. -/
theorem connOnConnected_turns (hself : Answers self) (hinv : ConnInv c) (h : c.connecting = true)
    (err : Option Str8) : Turns c (connOnConnected cfg self err) := by
  obtain ⟨-, hfed⟩ := hinv.setup (.inr (.inl h))
  have hf : c.Fresh := hinv.fresh_of hfed
  have hres : c.resolving = false := by
    by_contra hr
    rw [hinv.single (Bool.not_eq_false _ ▸ hr)] at h
    cases h
  apply Does.modify_bind
  apply Does.report_bind
  apply Does.commit (.connected h)
  cases err with
  | some e => exact Drives.turns (connFail_setup hself hf.2)
  | none =>
    apply Does.modify_bind
    apply Does.commit (.startRead (hinv.started_of (.inr h)) hres rfl)
    apply Does.ite
    · intro _
      apply Does.modify_bind
      apply Does.commit (.move (.phase .handshaking (by decide) hfed))
      exact Drives.turns (connDriveHandshake_drives hself hf.2)
    · exact fun _ => Drives.turns (connProxyBegin_drives hself hf)

/-- The end of the stream closes an established connection and fails any other. -/
theorem connReadEnd_turns (hself : Answers self) (err : Option Str8) : Turns c (connReadEnd self err) := by
  apply Does.report_bind
  apply Does.get_bind
  apply Does.ite
  · intro hst
    apply Does.modify_bind
    apply Does.report_bind
    apply Does.commit (.closed err hst)
    exact (ownerCallback_drives hself).turns
  · intro hst
    apply Does.widen (M := ConnMove)
    · exact Does.forget (connFail_does hself (.readEnd err hst))
    · exact fun _ _ _ hm => .move hm

/-- The target's TLS is given what came, and then either its handshake goes on or the owner reads. -/
theorem connReadRest_turns (hself : Answers self) : Turns c (do
    let c ← get
    if c.established = false then connDriveHandshake self
    else do
      connFlushOutput self
      report .onReadable
      ownerCallback self) := by
  apply Does.get_bind
  apply Does.ite
  · exact fun hest => (connDriveHandshake_drives hself hest).turns
  · intro _
    apply Drives.turns
    apply Does.bind (connFlushOutput_drives hself)
    intro _ c₁ _ _ _
    apply Does.report_bind
    apply Does.commit (.quiet [.onReadable] (by simp [ConnEvent.quiet]) (by constructor <;> rfl))
    exact ownerCallback_drives hself

/-- What came goes to the outer TLS, the negotiation or the TLS of the target. -/
theorem connReadData_turns (hself : Answers self) (hinv : ConnInv c) (hr : c.reading = true) (d : Str8) :
    Turns c (connReadData cfg self d) := by
  apply Does.report_bind
  apply Does.commit (.move (.quiet [.readData] (by simp [ConnEvent.quiet]) (by constructor <;> rfl)))
  apply Does.get_bind
  apply Does.ite
  · exact fun _ => Does.pure trivial
  · intro _
    apply Does.ite
    · exact fun htls => (connProxyOuterDrive_drives hself (hinv.fresh_of (hinv.proxy (.inl htls)))).turns
    · intro htls
      apply Does.ite
      · exact fun hneg => (connProxyOnData_drives hself (hinv.fresh_of (hinv.proxy (.inr hneg)))).turns
      · intro hneg
        have hfeed : ConnTurn (none, c) [] (none, { c with fed := true }) := .feed hr htls hneg
        apply Does.assoc
        apply Does.get_bind
        apply Does.ite_bind
        · exact fun _ => Does.modify_bind (Does.commit hfeed (connReadRest_turns hself))
        · intro _
          apply Does.assoc
          apply Does.await_bind
          intro chunks
          apply Does.when_bind
          · exact fun _ => Does.modify_bind (Does.commit hfeed (connReadRest_turns hself))
          · exact fun _ => connReadRest_turns hself

theorem connWriteCb_turns (h : 0 < c.writes) : Turns c connWriteCb :=
  Does.modify_bind (Does.report (.written h) trivial)

theorem connOnHandleClosed_turns (h : c.tcp = .closing) (hc : c.connecting = false) (hw : c.writes = 0) :
    Turns c connOnHandleClosed :=
  Does.report_bind (Does.modify_bind (Does.report (.handleClosed h hc hw) trivial))

/-- Every event makes turns. -/
theorem connInput_turns (hself : Answers self) (hinv : ConnInv c) (e : ConnInput)
    (he : connEnabled c e = true) : Turns c (connInput cfg self e) := by
  cases e with
  | connect => exact connConnect_turns hself hinv (by simpa [connEnabled] using he)
  | call k => exact (hself k none c).turns
  | resolved err => exact connOnResolved_turns hself hinv he err
  | connected err => exact connOnConnected_turns hself hinv he err
  | readData d => exact connReadData_turns hself hinv he d
  | readEnd err => exact connReadEnd_turns hself err
  | written => exact connWriteCb_turns (by simpa [connEnabled] using he)
  | handleClosed =>
    simp only [connEnabled, Bool.and_eq_true, decide_eq_true_eq, Bool.not_eq_true'] at he
    exact connOnHandleClosed_turns he.1.1 he.1.2 he.2

end

/-- **Every run of a connection is a sequence of turns.** -/
theorem connReach_turns {cfg : ConnCfg} {w : Machine.System Connection ConnEvent}
    (h : (connMachine cfg).Reach w) :
    Trace ConnTurn (none, {}) w.log (none, w.state) ∧ ConnInv w.state := by
  apply Machine.Reach.trace (m := connMachine cfg) (J := ConnInv) ConnInv.init _ h
  intro n e c hinv he
  apply Does.strengthen (connInput_turns (connRec_answers n) hinv e he)
  intro _ c' o' ht _
  exact ConnTurns.inv ht hinv

end HolyTls.Net

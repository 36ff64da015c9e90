import HolyTls.Pool.Moves

/-!
# `Pool.Frame` — what every move respects

`Base` says that whatever the pool refers to exists. `Frame` is about code that is entered again: whatever
the inner code does, its caller finds connections and requests still there, a closed or broken connection
still closed or broken, a connection that is being read from still being read from, and a request whose
deadline has passed still on its active list unless the connection was closed.

Both are shown for the elementary changes of state first; a move is a few of those.
-/

namespace HolyTls

open Slots

variable {h : Held} {g : PoolConn → PoolConn} {f : PoolReq → PoolReq}

/-! ## Existence -/

/-- A list of the connection holds the request. -/
def PoolConn.refers (pc : PoolConn) (r : ReqId) : Prop :=
  r ∈ pc.waiting.nodes ∨ r ∈ pc.active ∨ r ∈ pc.streams

/-- A request in hand exists, and so does the connection it is on its way to. -/
def Held.Exists (s : Pool) : Held → Prop
  | .opened r c => r < s.nreq ∧ c < s.nconn
  | .sub r c => r < s.nreq ∧ c < s.nconn
  | .streamed r c => r < s.nreq ∧ c < s.nconn
  | .sent r c => r < s.nreq ∧ c < s.nconn
  | .expiring r pc => r < s.nreq ∧ ∀ c, pc = some c → c < s.nconn
  | .cancelling r c => r < s.nreq ∧ c < s.nconn
  | h => h.req < s.nreq

theorem Held.Exists.req_lt {s : Pool} (hh : h.Exists s) : h.req < s.nreq := by
  cases h <;> first | exact hh | exact hh.1

/-- What exists goes on existing while the pool grows. -/
theorem Held.Exists.mono {s s' : Pool} (hh : h.Exists s) (hr : s.nreq ≤ s'.nreq) (hc : s.nconn ≤ s'.nconn) :
    h.Exists s' := by
  cases h with
  | opened r c | sub r c | streamed r c | sent r c | cancelling r c => exact ⟨hh.1.trans_le hr, hh.2.trans_le hc⟩
  | free r p | off r got | answered r => exact Nat.lt_of_lt_of_le hh hr
  | expiring r pc => exact ⟨hh.1.trans_le hr, fun c h => (hh.2 c h).trans_le hc⟩

/-- What the pool refers to exists. -/
structure Base (w : PoolWorld) : Prop where
  hand : ∀ h ∈ w.1, h.Exists w.2
  conns : ∀ c ∈ w.2.conns, c < w.2.nconn
  pc : ∀ r c, (w.2.reqs r).pc = some c → c < w.2.nconn
  fresh : ∀ c, w.2.nconn ≤ c → w.2.conn c = {}
  lists : ∀ c r, (w.2.conn c).refers r → r < w.2.nreq

namespace Base

variable {H H' : List Held} {s : Pool} {r : ReqId} {c : ConnId}

/-- A connection that holds a request exists. -/
theorem lt_of_refers (hb : Base (H, s)) (h : (s.conn c).refers r) : c < s.nconn := by
  by_contra hc
  rw [hb.fresh c (Nat.le_of_not_lt hc)] at h
  rcases h with h | h | h <;> cases h

/-- Other requests are in hand. -/
theorem setHand (hb : Base (H, s)) (hh : ∀ h ∈ H', h.Exists s) : Base (H', s) :=
  ⟨hh, hb.conns, hb.pc, hb.fresh, hb.lists⟩

/-- A request is taken in hand. -/
theorem push (hb : Base (H, s)) (hh : h.Exists s) : Base (h :: H, s) :=
  hb.setHand (List.forall_mem_cons.mpr ⟨hh, hb.hand⟩)

/-- The request in hand is let go. -/
theorem pop (hb : Base (h :: H, s)) : Base (H, s) :=
  hb.setHand (fun x hx => hb.hand x (List.mem_cons_of_mem h hx))

theorem head (hb : Base (h :: H, s)) : h.Exists s := hb.hand h List.mem_cons_self

/-- The requests of a list are taken in hand, each as `g` says. -/
theorem pushMap {g : ReqId → Held} {l : List ReqId} (hb : Base (H, s)) (hl : ∀ r ∈ l, (g r).Exists s) :
    Base (l.map g ++ H, s) := by
  apply hb.setHand
  intro h hh
  rcases List.mem_append.mp hh with hh | hh
  · obtain ⟨r, hr, rfl⟩ := List.mem_map.mp hh
    exact hl r hr
  · exact hb.hand h hh

/-- A request may only be given a connection that exists. -/
theorem updReq (hb : Base (H, s)) (hpc : ∀ c, (f (s.reqs r)).pc = some c → c < s.nconn) :
    Base (H, s.updReq r f) := by
  refine ⟨hb.hand, hb.conns, ?_, hb.fresh, hb.lists⟩
  intro x c h
  rw [Pool.updReq_reqs] at h
  split at h
  · exact hpc c h
  · exact hb.pc x c h

/-- A connection may only list requests that exist. -/
theorem updConn (hb : Base (H, s)) (hc : c < s.nconn) (hg : ∀ r, (g (s.conn c)).refers r → r < s.nreq) :
    Base (H, s.updConn c g) := by
  refine ⟨hb.hand, hb.conns, hb.pc, ?_, ?_⟩
  · intro x hx
    have hne : x ≠ c := fun h => absurd hc (Nat.not_lt.mpr (h ▸ hx))
    rw [Pool.updConn_conn, if_neg hne]
    exact hb.fresh x hx
  · intro x r h
    rw [Pool.updConn_conn] at h
    split at h
    · exact hg r h
    · exact hb.lists x r h

/-- A connection whose lists only lose requests. -/
theorem updConn_le (hb : Base (H, s)) (hc : c < s.nconn)
    (hg : ∀ r, (g (s.conn c)).refers r → (s.conn c).refers r) : Base (H, s.updConn c g) :=
  hb.updConn hc (fun r h => hb.lists c r (hg r h))

/-- A connection that differs from the empty one exists. -/
theorem lt_of_ne (hb : Base (H, s)) (h : s.conn c ≠ {}) : c < s.nconn :=
  Nat.lt_of_not_le (fun hc => h (hb.fresh c hc))

theorem setPc (hb : Base (H, s)) (hc : c < s.nconn) : Base (H, s.setPc r c) := by
  apply hb.updReq
  intro x hx
  cases hx
  exact hc

/-- The waiting list gains the request. -/
theorem waitingPush (hb : Base (H, s)) (hc : c < s.nconn) (hr : r < s.nreq) :
    Base (H, s.waitingPush r c) := by
  apply hb.updConn hc
  rintro x (h | h | h)
  · rcases Waiting.mem_push h with h | rfl
    · exact hb.lists c x (.inl h)
    · exact hr
  · exact hb.lists c x (.inr (.inl h))
  · exact hb.lists c x (.inr (.inr h))

/-- The active list gains the request. -/
theorem afterSubmit (hb : Base (H, s)) (hc : c < s.nconn) (hr : r < s.nreq) :
    Base (H, s.afterSubmit r c) := by
  apply hb.updConn hc
  rintro x (h | h | h)
  · exact hb.lists c x (.inl h)
  · rcases List.mem_cons.mp h with rfl | h
    · exact hr
    · exact hb.lists c x (.inr (.inl h))
  · exact hb.lists c x (.inr (.inr h))

/-- The stream table gains the request, unless it is full. -/
theorem pushStream (hb : Base (H, s)) (hc : c < s.nconn) (hr : r < s.nreq) :
    Base (H, s.pushStream r c) := by
  apply hb.updConn hc
  rintro x (h | h | h)
  · exact hb.lists c x (.inl h)
  · exact hb.lists c x (.inr (.inl h))
  · dsimp only at h
    split at h
    · rcases List.mem_append.mp h with h | h
      · exact hb.lists c x (.inr (.inr h))
      · exact List.mem_singleton.mp h ▸ hr
    · exact hb.lists c x (.inr (.inr h))

theorem activeRemove (hb : Base (H, s)) (hc : c < s.nconn) : Base (H, s.activeRemove r c) := by
  apply hb.updConn_le hc
  rintro x (h | h | h)
  · exact .inl h
  · exact .inr (.inl (List.mem_of_mem_erase h))
  · exact .inr (.inr h)

theorem removeStream {sid : Nat} (hb : Base (H, s)) (hc : c < s.nconn) :
    Base (H, s.removeStream sid c) := by
  apply hb.updConn_le hc
  rintro x (h | h | h)
  · exact .inl h
  · exact .inr (.inl h)
  · exact .inr (.inr (mem_of_mem_swapRemove h))

/-- Both lists are emptied. -/
theorem detachAll (hb : Base (H, s)) (hc : c < s.nconn) : Base (H, s.detachAll c) := by
  apply hb.updConn_le hc
  rintro x (h | h | h)
  · cases h
  · cases h
  · exact .inr (.inr h)

/-- The waiting list is emptied. -/
theorem detachWaiting (hb : Base (H, s)) (hc : c < s.nconn) : Base (H, s.detachWaiting c) := by
  apply hb.updConn_le hc
  rintro x (h | h | h)
  · cases h
  · exact .inr (.inl h)
  · exact .inr (.inr h)

theorem close (hb : Base (H, s)) (hc : c < s.nconn) : Base (H, s.close c) :=
  hb.updConn_le hc (fun _ h => h)

/-- A new request has no connection yet. -/
theorem addReq {q : PoolReq} (hb : Base (H, s)) (hpc : q.pc = none) : Base (H, s.addReq q) := by
  refine ⟨fun h hh => (hb.hand h hh).mono (Nat.le_succ _) (Nat.le_refl _), hb.conns, ?_, hb.fresh,
    fun c r h => Nat.lt_succ_of_lt (hb.lists c r h)⟩
  intro x c h
  rw [Pool.addReq_reqs] at h
  split at h
  · rw [hpc] at h
    cases h
  · exact hb.pc x c h

/-- A new connection has empty lists. -/
theorem addConn {q : PoolReq} {p : PoolProto} (hb : Base (H, s)) : Base (H, s.addConn p q) := by
  refine ⟨fun h hh => (hb.hand h hh).mono (Nat.le_refl _) (Nat.le_succ _), ?_,
    fun r c h => Nat.lt_succ_of_lt (hb.pc r c h), ?_, ?_⟩
  · intro c hc
    rcases List.mem_append.mp hc with hc | hc
    · exact Nat.lt_succ_of_lt (hb.conns c hc)
    · exact List.mem_singleton.mp hc ▸ Nat.lt_succ_self _
  · intro c hc
    have hne : c ≠ s.nconn := by
      have : s.nconn + 1 ≤ c := hc
      omega
    rw [Pool.addConn_conn, if_neg hne]
    exact hb.fresh c (Nat.le_of_succ_le hc)
  · intro c r h
    rw [Pool.addConn_conn] at h
    split at h
    · rcases h with h | h | h <;> cases h
    · exact hb.lists c r h

/-- The table of connections only loses one. -/
theorem removeConn (hb : Base (H, s)) : Base (H, s.removeConn c) :=
  ⟨hb.hand, fun x hx => hb.conns x (mem_of_mem_swapRemove hx), hb.pc, hb.fresh, hb.lists⟩

/-- Only listed connections are marked, and those exist. -/
theorem markAllBroken (hb : Base (H, s)) : Base (H, s.markAllBroken) := by
  refine ⟨hb.hand, hb.conns, hb.pc, ?_, ?_⟩
  · intro c hc
    have hnot : ¬ (c ∈ s.conns ∧ (s.conn c).state ≠ .closing) :=
      fun h => absurd (hb.conns c h.1) (Nat.not_lt.mpr hc)
    rw [Pool.markAllBroken_conn, if_neg hnot]
    exact hb.fresh c hc
  · intro c r h
    rw [Pool.markAllBroken_conn] at h
    split at h <;> exact hb.lists c r h

end Base

/-! ## Frames -/

/-- What happens to a connection while code runs that was entered again. -/
structure ConnFrame (pc pc' : PoolConn) : Prop where
  proto : pc'.proto = pc.proto
  origin : pc'.origin = pc.origin
  host : pc'.host = pc.host
  port : pc'.port = pc.port
  inRecv : pc'.inRecv = pc.inRecv
  h2 : pc'.h2.isSome = pc.h2.isSome
  state : pc'.state = pc.state ∨ pc'.state = .closing
  broken : pc.broken = true → pc'.broken = true
  drained : pc.drained = true → pc'.drained = true
  h3c : pc'.h3c = pc.h3c
  ended : pc'.ended = pc.ended

/-- What happens to a request meanwhile. -/
structure ReqFrame (q q' : PoolReq) : Prop where
  proto : q'.proto = q.proto
  method : q'.method = q.method
  url : q'.url = q.url
  host : q'.host = q.host
  port : q'.port = q.port
  origin : q'.origin = q.origin
  responded : q.responded = true → q'.responded = true
  legacy : q.legacy = true → q'.legacy = true

/-- What happens to the pool: what existed still does, and a request that is answered stays on its active
    list until the connection closes. -/
structure Frame (s s' : Pool) : Prop where
  nreq : s.nreq ≤ s'.nreq
  nconn : s.nconn ≤ s'.nconn
  req : ∀ r, r < s.nreq → ReqFrame (s.reqs r) (s'.reqs r)
  conn : ∀ c, c < s.nconn → ConnFrame (s.conn c) (s'.conn c)
  kept : ∀ r c, r < s.nreq → c < s.nconn → (s.reqs r).responded = true → r ∈ (s.conn c).active →
    r ∈ (s'.conn c).active ∨ (s'.conn c).state = .closing
  recv : ∀ c, (s'.conn c).inRecv = true → (s.conn c).inRecv = true
  ended : ∀ c, (s'.conn c).ended = true → (s.conn c).ended = true

theorem ConnFrame.refl (pc : PoolConn) : ConnFrame pc pc :=
  ⟨rfl, rfl, rfl, rfl, rfl, rfl, .inl rfl, id, id, rfl, rfl⟩

/-- The state is the old one as long as nobody has closed the connection. -/
theorem ConnFrame.trans {a b c : PoolConn} (h : ConnFrame a b) (h' : ConnFrame b c) : ConnFrame a c := by
  refine ⟨h'.proto.trans h.proto, h'.origin.trans h.origin, h'.host.trans h.host, h'.port.trans h.port,
    h'.inRecv.trans h.inRecv, h'.h2.trans h.h2, ?_, h'.broken ∘ h.broken, h'.drained ∘ h.drained,
    h'.h3c.trans h.h3c, h'.ended.trans h.ended⟩
  rcases h'.state with hs | hs
  · rw [hs]
    exact h.state
  · exact .inr hs

/-- Closing is for ever. -/
theorem ConnFrame.closing {a b : PoolConn} (h : ConnFrame a b) (hc : a.state = .closing) :
    b.state = .closing := by
  rcases h.state with hs | hs
  · rw [hs, hc]
  · exact hs

theorem ReqFrame.refl (q : PoolReq) : ReqFrame q q := ⟨rfl, rfl, rfl, rfl, rfl, rfl, id, id⟩

theorem ReqFrame.trans {a b c : PoolReq} (h : ReqFrame a b) (h' : ReqFrame b c) : ReqFrame a c :=
  ⟨h'.proto.trans h.proto, h'.method.trans h.method, h'.url.trans h.url, h'.host.trans h.host,
    h'.port.trans h.port, h'.origin.trans h.origin, h'.responded ∘ h.responded, h'.legacy ∘ h.legacy⟩

namespace Frame

variable {s s₁ s₂ : Pool} {r : ReqId} {c : ConnId}

theorem refl (s : Pool) : Frame s s :=
  ⟨Nat.le_refl _, Nat.le_refl _, fun _ _ => .refl _, fun _ _ => .refl _, fun _ _ _ _ _ h => .inl h,
    fun _ => id, fun _ => id⟩

/-- Frames compose, so what holds of one move holds of a run. -/
theorem trans (h : Frame s s₁) (h' : Frame s₁ s₂) : Frame s s₂ := by
  refine ⟨h.nreq.trans h'.nreq, h.nconn.trans h'.nconn, ?_, ?_, ?_, fun c => h.recv c ∘ h'.recv c,
    fun c => h.ended c ∘ h'.ended c⟩
  · intro r hr
    exact (h.req r hr).trans (h'.req r (hr.trans_le h.nreq))
  · intro c hc
    exact (h.conn c hc).trans (h'.conn c (hc.trans_le h.nconn))
  · intro r c hr hc hresp hact
    have hframe := h'.conn c (hc.trans_le h.nconn)
    rcases h.kept r c hr hc hresp hact with hact | hcl
    · exact h'.kept r c (hr.trans_le h.nreq) (hc.trans_le h.nconn) ((h.req r hr).responded hresp) hact
    · exact .inr (hframe.closing hcl)

/-- Only one request changes. -/
theorem updReq (hf : ReqFrame (s.reqs r) (f (s.reqs r))) : Frame s (s.updReq r f) := by
  refine ⟨Nat.le_refl _, Nat.le_refl _, ?_, fun _ _ => .refl _, fun _ _ _ _ _ h => .inl h,
    fun _ => id, fun _ => id⟩
  intro x _
  rw [Pool.updReq_reqs]
  split
  · next h => exact h ▸ hf
  · exact .refl _

/-- Only one connection changes. -/
theorem updConn (hg : ConnFrame (s.conn c) (g (s.conn c)))
    (hkept : ∀ r, (s.reqs r).responded = true → r ∈ (s.conn c).active →
      r ∈ (g (s.conn c)).active ∨ (g (s.conn c)).state = .closing) : Frame s (s.updConn c g) := by
  refine ⟨Nat.le_refl _, Nat.le_refl _, fun _ _ => .refl _, ?_, ?_, ?_, ?_⟩
  · intro x _
    rw [Pool.updConn_conn]
    split
    · next h => exact h ▸ hg
    · exact .refl _
  · intro r x _ _ hresp hact
    rw [Pool.updConn_conn]
    split
    · next h => exact hkept r hresp (h ▸ hact)
    · exact .inl hact
  · intro x hx
    rw [Pool.updConn_conn] at hx
    split at hx
    · next h => exact h ▸ hg.inRecv ▸ hx
    · exact hx
  · intro x hx
    rw [Pool.updConn_conn] at hx
    split at hx
    · next h => exact h ▸ hg.ended ▸ hx
    · exact hx

/-- A change that leaves the active list alone. -/
theorem updConn_of_active (hg : ConnFrame (s.conn c) (g (s.conn c)))
    (hact : (g (s.conn c)).active = (s.conn c).active) : Frame s (s.updConn c g) :=
  updConn hg (fun _ _ h => .inl (hact ▸ h))

/-- The new request is none of the old ones. -/
theorem addReq (q : PoolReq) : Frame s (s.addReq q) := by
  refine ⟨Nat.le_succ _, Nat.le_refl _, ?_, fun _ _ => .refl _, fun _ _ _ _ _ h => .inl h,
    fun _ => id, fun _ => id⟩
  intro x hx
  rw [Pool.addReq_reqs, if_neg (Nat.ne_of_lt hx)]
  exact .refl _

/-- The new connection is none of the old ones. -/
theorem addConn (p : PoolProto) (q : PoolReq) : Frame s (s.addConn p q) := by
  refine ⟨Nat.le_refl _, Nat.le_succ _, fun _ _ => .refl _, ?_, ?_, ?_, ?_⟩
  · intro x hx
    rw [Pool.addConn_conn, if_neg (Nat.ne_of_lt hx)]
    exact .refl _
  · intro r x _ hx _ hact
    rw [Pool.addConn_conn, if_neg (Nat.ne_of_lt hx)]
    exact .inl hact
  all_goals
    intro x hx
    rw [Pool.addConn_conn] at hx
    split at hx
    · cases hx
    · exact hx

theorem setPc : Frame s (s.setPc r c) := updReq ⟨rfl, rfl, rfl, rfl, rfl, rfl, id, id⟩

theorem clearPc : Frame s (s.clearPc r) := updReq ⟨rfl, rfl, rfl, rfl, rfl, rfl, id, id⟩

/-- The latch of a request is only ever set. -/
theorem respond : Frame s (s.respond r) := updReq ⟨rfl, rfl, rfl, rfl, rfl, rfl, fun _ => rfl, id⟩

theorem resetForRetry : Frame s (s.resetForRetry r) := updReq ⟨rfl, rfl, rfl, rfl, rfl, rfl, id, id⟩

theorem release : Frame s (s.release r) := updReq ⟨rfl, rfl, rfl, rfl, rfl, rfl, id, id⟩

/-- A mild change of one connection. -/
theorem touch {pc' : PoolConn} (h : Mild (s.conn c) pc') : Frame s (s.updConn c (fun _ => pc')) :=
  updConn_of_active ⟨h.proto, h.origin, h.host, h.port, h.inRecv, h.h2, .inl h.state, h.broken,
    fun hd => h.drained.trans hd, h.h3c, h.ended⟩ h.active

theorem waitingPush : Frame s (s.waitingPush r c) :=
  updConn_of_active ⟨rfl, rfl, rfl, rfl, rfl, rfl, .inl rfl, id, id, rfl, rfl⟩ rfl

theorem setWaiting {w : Waiting} : Frame s (s.setWaiting c w) :=
  updConn_of_active ⟨rfl, rfl, rfl, rfl, rfl, rfl, .inl rfl, id, id, rfl, rfl⟩ rfl

/-- The request gets an HTTP/1.1 session, and the connection its bytes. -/
theorem startH1 : Frame s (s.startH1 r c) := by
  have hr : Frame s (s.updReq r (fun q => { q with h1 := some (h1SessionStart (q.method = .head)) })) :=
    updReq ⟨rfl, rfl, rfl, rfl, rfl, rfl, id, id⟩
  exact hr.trans (updConn_of_active ⟨rfl, rfl, rfl, rfl, rfl, rfl, .inl rfl, id, id, rfl, rfl⟩ rfl)

/-- The stream is numbered by the connection. -/
theorem openStream : Frame s (s.openStream r c) := by
  have hc : Frame s (s.updConn c (fun pc => { pc with nextStream := pc.nextStream + 1 })) :=
    updConn_of_active ⟨rfl, rfl, rfl, rfl, rfl, rfl, .inl rfl, id, id, rfl, rfl⟩ rfl
  exact hc.trans (updReq ⟨rfl, rfl, rfl, rfl, rfl, rfl, id, id⟩)

theorem pushStream : Frame s (s.pushStream r c) :=
  updConn_of_active ⟨rfl, rfl, rfl, rfl, rfl, rfl, .inl rfl, id, id, rfl, rfl⟩ rfl

theorem removeStream {sid : Nat} : Frame s (s.removeStream sid c) :=
  updConn_of_active ⟨rfl, rfl, rfl, rfl, rfl, rfl, .inl rfl, id, id, rfl, rfl⟩ rfl

/-- The active list only grows. -/
theorem afterSubmit : Frame s (s.afterSubmit r c) :=
  updConn ⟨rfl, rfl, rfl, rfl, rfl, rfl, .inl rfl, id, id, rfl, rfl⟩
    (fun _ _ h => .inl (List.mem_cons_of_mem r h))

/-- Only a request that is not answered yet is taken off an active list. -/
theorem activeRemove (hresp : (s.reqs r).responded = false) : Frame s (s.activeRemove r c) := by
  apply updConn ⟨rfl, rfl, rfl, rfl, rfl, rfl, .inl rfl, id, id, rfl, rfl⟩
  intro x hx hact
  have hne : x ≠ r := fun h => (by rw [h, hresp] at hx; cases hx)
  exact .inl ((List.mem_erase_of_ne hne).mpr hact)

/-- The active list is left alone. -/
theorem detachWaiting : Frame s (s.detachWaiting c) :=
  updConn_of_active ⟨rfl, rfl, rfl, rfl, rfl, rfl, .inl rfl, id, fun _ => rfl, rfl, rfl⟩ rfl

/-- Nothing has to stay on a connection that closes. -/
theorem close : Frame s (s.close c) :=
  updConn ⟨rfl, rfl, rfl, rfl, rfl, rfl, .inr rfl, id, id, rfl, rfl⟩ (fun _ _ _ => .inr rfl)

/-- The active list is emptied, but the connection is closing. -/
theorem failAll : Frame s ((s.detachAll c).close c) := by
  rw [Pool.close, Pool.detachAll, Pool.updConn_updConn]
  exact updConn ⟨rfl, rfl, rfl, rfl, rfl, rfl, .inr rfl, fun _ => rfl, id, rfl, rfl⟩ (fun _ _ _ => .inr rfl)

theorem removeConn : Frame s (s.removeConn c) :=
  ⟨Nat.le_refl _, Nat.le_refl _, fun _ _ => .refl _, fun _ _ => .refl _, fun _ _ _ _ _ h => .inl h,
    fun _ => id, fun _ => id⟩

/-- Marking closes no connection and takes no request off a list. -/
theorem markAllBroken : Frame s s.markAllBroken := by
  refine ⟨Nat.le_refl _, Nat.le_refl _, fun _ _ => .refl _, ?_, ?_, ?_, ?_⟩
  · intro x _
    rw [Pool.markAllBroken_conn]
    split
    · exact ⟨rfl, rfl, rfl, rfl, rfl, rfl, .inl rfl, fun _ => rfl, id, rfl, rfl⟩
    · exact .refl _
  · intro r x _ _ _ hact
    rw [Pool.markAllBroken_conn]
    split <;> exact .inl hact
  all_goals
    intro x hx
    rw [Pool.markAllBroken_conn] at hx
    split at hx <;> exact hx

end Frame

/-! ## Every move -/

variable {cfg : PoolCfg} {w w' : PoolWorld} {o : List PoolEvent}

/-- **Every move keeps that what the pool refers to exists.** -/
theorem Move.base (h : Move cfg w o w') (hb : Base w) : Base w' := by
  cases h with
  | dispatch proto method url deadline hok =>
    exact (hb.addReq rfl).push (Nat.lt_succ_self _)
  | reject url | refuse => exact hb
  | «open» hroom => exact hb.pop.addConn.push ⟨hb.head, Nat.lt_succ_self _⟩
  | @assign H s r p c hc =>
    have hlt : c < s.nconn := hb.conns c (List.mem_filter.mp hc).1
    exact (hb.pop.setPc hlt).push ⟨hb.head, hlt⟩
  | reassign => exact hb.setPc hb.head.2
  | park ev hev => exact hb.pop.waitingPush hb.head.2 hb.head.1
  | parkNew ev hev => exact (hb.pop.setPc hb.head.2).waitingPush hb.head.2 hb.head.1
  | @pop H s r c w hcalm hpop hcap =>
    have hmem : (s.conn c).refers r := .inl (Waiting.nodes_of_pop hpop ▸ List.mem_cons_self)
    have hlt := hb.lt_of_refers hmem
    refine (hb.updConn_le hlt ?_).push ⟨hb.lists c r hmem, hlt⟩
    rintro x (h | h | h)
    · exact .inl (Waiting.nodes_of_pop hpop ▸ List.mem_cons_of_mem r h)
    · exact .inr (.inl h)
    · exact .inr (.inr h)
  | write hproto | writeH3 hproto | giveUp => exact hb.pop.push hb.head
  | @writeH1 H s r c hproto hcap =>
    have hb' : Base (H, s.startH1 r c) := (hb.pop.updReq (hb.pc r)).updConn_le hb.head.2 (fun _ h => h)
    exact hb'.afterSubmit hb.head.2 hb.head.1
  | @openStream H s r c hproto =>
    have hb' : Base (H, s.openStream r c) := (hb.pop.updConn_le hb.head.2 (fun _ h => h)).updReq (hb.pc r)
    exact hb'.push hb.head
  | activate ev hproto hev => exact hb.pop.afterSubmit hb.head.2 hb.head.1
  | @activateH3 H s r c ev hproto hrecv hh3c hev =>
    have hb' : Base (H, s.pushStream r c) := hb.pop.pushStream hb.head.2 hb.head.1
    exact hb'.afterSubmit hb.head.2 hb.head.1
  | withdraw | abandon => exact hb.pop.push hb.head.1
  | @take H s r c₀ c got hact hh2 hpc hresp | @takeH1 H s r c₀ c h hact hproto hpc hresp hh1 hdel =>
    exact (hb.activeRemove (hb.pc r c hpc)).push (hb.lists c₀ r (.inr (.inl hact)))
  | @takeStray H s r c₀ c got hproto hpc hresp => exact (hb.activeRemove (hb.pc r c hpc)).push hb.head.1
  | retry hleft hresp => exact (hb.pop.updReq (fun x hx => (by cases hx))).push hb.head
  | @answer H s r got resp hopen hresp => exact (hb.pop.updReq (hb.pc r)).push hb.head
  | @release H s r | @releaseOff H s r got hresp => exact hb.pop.updReq (hb.pc r)
  | @failAll H s c hc hlive hrecv =>
    have hb' : Base (H, s.detachAll c) := hb.detachAll hc
    have hb'' : Base (H, (s.detachAll c).close c) := hb'.close hc
    rw [List.append_assoc]
    apply (hb''.pushMap (g := (.off · none)) (l := (s.conn c).waiting.nodes) ?_).pushMap
    · exact fun r hr => hb.lists c r (.inr (.inl hr))
    · exact fun r hr => hb.lists c r (.inl hr)
  | @rehome H s c hcalm hbroken =>
    exact (hb.detachWaiting (hb.lt_of_ne (fun h => (by rw [h] at hbroken; cases hbroken)))).pushMap
      (fun r hr => hb.lists c r (.inl hr))
  | unassign => exact hb.updReq (fun x hx => (by cases hx))
  | @closeDrained H s c hdrained hempty =>
    exact hb.close (hb.lt_of_ne (fun h => (by rw [h] at hdrained; cases hdrained)))
  | idleClose hc hempty => exact hb.close hc
  | remove hclosing => exact hb.removeConn
  | evict => exact hb.markAllBroken
  | @touch H s c pc' hc hmild =>
    apply hb.updConn_le hc
    intro r h
    unfold PoolConn.refers at h ⊢
    rwa [hmild.waiting, hmild.active, hmild.streams] at h

/-- The same for a run of moves. -/
theorem Moves.base (h : Moves cfg w o w') : Base w → Base w' :=
  h.preserves (fun _ _ _ hm => hm.base)

/-- **Every move keeps the frame.** -/
theorem Move.frame (h : Move cfg w o w') : Frame w.2 w'.2 := by
  cases h with
  | dispatch proto method url deadline hok => exact .addReq _
  | reject url | write hproto | writeH3 hproto | giveUp | withdraw | abandon | refuse => exact .refl _
  | «open» hroom => exact .addConn _ _
  | assign hc | reassign => exact .setPc
  | park ev hev => exact .waitingPush
  | parkNew ev hev => exact Frame.setPc.trans .waitingPush
  | pop hcalm hpop hcap => exact .setWaiting
  | writeH1 hproto hcap => exact Frame.startH1.trans .afterSubmit
  | openStream hproto => exact .openStream
  | activate ev hproto hev => exact .afterSubmit
  | activateH3 ev hproto hrecv hh3c hev => exact Frame.pushStream.trans .afterSubmit
  | take got hact hh2 hpc hresp | takeH1 hact hproto hpc hresp hh1 hdel | takeStray got hproto hpc hresp =>
    exact .activeRemove hresp
  | retry hleft hresp => exact .resetForRetry
  | answer hopen hresp => exact .respond
  | release | releaseOff hresp => exact .release
  | @failAll H s c hc hlive hrecv => exact .failAll
  | rehome hcalm hbroken => exact .detachWaiting
  | unassign => exact .clearPc
  | closeDrained hdrained hempty | idleClose hc hempty => exact .close
  | remove hclosing => exact .removeConn
  | evict => exact .markAllBroken
  | touch hc hmild => exact .touch hmild

/-- The same for a run: what the caller finds when code that was entered again is done. -/
theorem Moves.frame (h : Moves cfg w o w') : Frame w.2 w'.2 :=
  h.related (R := fun w w' => Frame w.2 w'.2) (fun _ => .refl _) (fun _ _ _ => Frame.trans)
    (fun _ _ _ hm => hm.frame)

/-! ## Every act -/

/-- The waiting list only loses requests. -/
theorem Base.setWaiting {H : List Held} {s : Pool} {c : ConnId} {w : Waiting} (hb : Base (H, s))
    (hc : c < s.nconn) (hw : ∀ r ∈ w.nodes, r ∈ (s.conn c).waiting.nodes) : Base (H, s.setWaiting c w) := by
  apply hb.updConn_le hc
  rintro x (h | h | h)
  · exact .inl (hw x h)
  · exact .inr (.inl h)
  · exact .inr (.inr h)

/-- **Every act keeps that what the pool refers to exists.** -/
theorem Act.base (h : Act cfg w o w') (hb : Base w) : Base w' := by
  cases h with
  | move h => exact h.base hb
  | ready h2 h3c hc hstate hh2 hh3 => exact hb.updConn_le hc (fun _ h => h)
  | @h3Fin H s r | @disarm H s r => exact hb.updReq (hb.pc r)
  | @fallback s c hc hstate =>
    exact (hb.detachWaiting hc).pushMap (fun r hr => hb.lists c r (.inl hr))
  | @legacy H s r got => exact (hb.pop.updReq (hb.pc r)).push hb.head
  | @takeStream s r c sid ev got hfind hrecv hresp hev =>
    have hmem : (s.conn c).refers r := .inr (.inr (List.mem_of_find?_eq_some hfind))
    have hlt := hb.lt_of_refers hmem
    have hb₁ : Base ([], s.updReq r (fun q => { q with h3Fin := true })) := hb.updReq (hb.pc r)
    have hb₂ : Base ([], (s.updReq r (fun q => { q with h3Fin := true })).removeStream
      (s.reqs r).h3StreamId c) := hb₁.removeStream hlt
    exact (hb₂.activeRemove hlt).push (hb.lists c r hmem)
  | streamClosed hsid hnone => exact hb
  | @expire s r hlt harmed hresp =>
    have hb₁ : Base ([], s.updReq r (fun q => { q with timerArmed := false })) := hb.updReq (hb.pc r)
    exact (hb₁.updReq (hb₁.pc r)).push ⟨hlt, hb.pc r⟩
  | cancel hact => exact hb.pop.push ⟨hb.head.1, hb.head.2 _ rfl⟩
  | dropActive ev hproto hact hev => exact (hb.pop.activeRemove hb.head.2).push hb.head.1
  | @dropStream s r c hproto hact =>
    have hb₁ : Base ([], s.dropStream r c) := by
      cases hh3c : (s.conn c).h3c with
      | true =>
        rw [s.dropStream_of_h3c c r hh3c]
        exact hb.pop.removeStream hb.head.2
      | false =>
        rw [s.dropStream_of_no_h3c c r hh3c]
        exact hb.pop
    exact (hb₁.activeRemove hb.head.2).push hb.head.1
  | dropWaiting hact =>
    exact (hb.pop.setWaiting (hb.head.2 _ rfl) (fun x hx => Waiting.mem_of_mem_remove hx)).push hb.head.1
  | dropNone => exact hb.pop.push hb.head.1
  | tick ms => exact ⟨hb.hand, hb.conns, hb.pc, hb.fresh, hb.lists⟩

/-- What no event changes of a connection. -/
structure Lasting (pc pc' : PoolConn) : Prop where
  proto : pc'.proto = pc.proto
  origin : pc'.origin = pc.origin
  host : pc'.host = pc.host
  port : pc'.port = pc.port
  closing : pc.state = .closing → pc'.state = .closing
  broken : pc.broken = true → pc'.broken = true

/-- What no event changes of the pool. -/
structure Lasts (s s' : Pool) : Prop where
  nreq : s.nreq ≤ s'.nreq
  nconn : s.nconn ≤ s'.nconn
  req : ∀ r, r < s.nreq → ReqFrame (s.reqs r) (s'.reqs r)
  conn : ∀ c, c < s.nconn → Lasting (s.conn c) (s'.conn c)

/-- What acts leave of the pool. -/
structure ActFrame (s s' : Pool) : Prop extends Lasts s s' where
  recv : ∀ c, (s'.conn c).inRecv = true → (s.conn c).inRecv = true
  inRecv : ∀ c, c < s.nconn → (s'.conn c).inRecv = (s.conn c).inRecv
  ended : ∀ c, (s'.conn c).ended = true → (s.conn c).ended = true

theorem Lasting.refl (pc : PoolConn) : Lasting pc pc := ⟨rfl, rfl, rfl, rfl, id, id⟩

theorem Lasting.trans {a b c : PoolConn} (h : Lasting a b) (h' : Lasting b c) : Lasting a c :=
  ⟨h'.proto.trans h.proto, h'.origin.trans h.origin, h'.host.trans h.host, h'.port.trans h.port,
    h'.closing ∘ h.closing, h'.broken ∘ h.broken⟩

namespace Lasts

variable {s s₁ s₂ : Pool} {r : ReqId} {c : ConnId}

theorem refl (s : Pool) : Lasts s s := ⟨Nat.le_refl _, Nat.le_refl _, fun _ _ => .refl _, fun _ _ => .refl _⟩

theorem trans (h : Lasts s s₁) (h' : Lasts s₁ s₂) : Lasts s s₂ :=
  ⟨h.nreq.trans h'.nreq, h.nconn.trans h'.nconn,
    fun r hr => (h.req r hr).trans (h'.req r (hr.trans_le h.nreq)),
    fun c hc => (h.conn c hc).trans (h'.conn c (hc.trans_le h.nconn))⟩

theorem updReq (hf : ReqFrame (s.reqs r) (f (s.reqs r))) : Lasts s (s.updReq r f) := by
  refine ⟨Nat.le_refl _, Nat.le_refl _, ?_, fun _ _ => .refl _⟩
  intro x _
  rw [Pool.updReq_reqs]
  split
  · next h => exact h ▸ hf
  · exact .refl _

/-- Only one connection changes. -/
theorem updConn (hg : Lasting (s.conn c) (g (s.conn c))) : Lasts s (s.updConn c g) := by
  refine ⟨Nat.le_refl _, Nat.le_refl _, fun _ _ => .refl _, ?_⟩
  intro x _
  rw [Pool.updConn_conn]
  split
  · next h => exact h ▸ hg
  · exact .refl _

end Lasts

namespace ActFrame

variable {s s₁ s₂ : Pool} {r : ReqId} {c : ConnId}

/-- The frame of a move says more than that of an act. -/
theorem of_frame (h : Frame s s₁) : ActFrame s s₁ where
  nreq := h.nreq
  nconn := h.nconn
  req := h.req
  conn := fun c hc =>
    have hf := h.conn c hc
    ⟨hf.proto, hf.origin, hf.host, hf.port, hf.closing, hf.broken⟩
  recv := h.recv
  inRecv := fun c hc => (h.conn c hc).inRecv
  ended := h.ended

theorem refl (s : Pool) : ActFrame s s := of_frame (.refl s)

theorem trans (h : ActFrame s s₁) (h' : ActFrame s₁ s₂) : ActFrame s s₂ :=
  ⟨h.toLasts.trans h'.toLasts, fun c => h.recv c ∘ h'.recv c,
    fun c hc => (h'.inRecv c (hc.trans_le h.nconn)).trans (h.inRecv c hc), fun c => h.ended c ∘ h'.ended c⟩

theorem updReq (hf : ReqFrame (s.reqs r) (f (s.reqs r))) :
    ActFrame s (s.updReq r f) := of_frame (.updReq hf)

/-- The read and end flags of a connection are left alone. -/
theorem updConn (hg : Lasting (s.conn c) (g (s.conn c))) (hr : (g (s.conn c)).inRecv = (s.conn c).inRecv)
    (he : (g (s.conn c)).ended = (s.conn c).ended) :
    ActFrame s (s.updConn c g) := by
  have hsame : ∀ x, ((s.updConn c g).conn x).inRecv = (s.conn x).inRecv := by
    intro x
    rw [Pool.updConn_conn]
    split
    · next h => exact h ▸ hr
    · rfl
  have hend : ∀ x, ((s.updConn c g).conn x).ended = (s.conn x).ended := by
    intro x
    rw [Pool.updConn_conn]
    split
    · next h => exact h ▸ he
    · rfl
  exact ⟨.updConn hg, fun x hx => hsame x ▸ hx, fun x _ => hsame x, fun x hx => hend x ▸ hx⟩

end ActFrame

/-- An act may also make a connection ready, and take an answered request off its active list. -/
theorem Act.frame (h : Act cfg w o w') : ActFrame w.2 w'.2 := by
  cases h
  case move h => exact .of_frame h.frame
  all_goals dsimp only
  case ready h2 h3c hc hstate hh2 hh3 =>
    exact .updConn ⟨rfl, rfl, rfl, rfl, fun h => (by rw [hstate] at h; cases h), id⟩ rfl rfl
  case fallback hc hstate => exact .of_frame .detachWaiting
  case takeStream s r c sid got hfind hrecv hresp hev =>
    have hfin : ActFrame s (s.updReq r (fun q => { q with h3Fin := true })) :=
      .updReq ⟨rfl, rfl, rfl, rfl, rfl, rfl, id, id⟩
    exact (hfin.trans (.of_frame .removeStream)).trans (.updConn ⟨rfl, rfl, rfl, rfl, id, id⟩ rfl rfl)
  case streamClosed | cancel | dropNone => exact .refl _
  case dropActive ev hproto hact hev => exact .updConn ⟨rfl, rfl, rfl, rfl, id, id⟩ rfl rfl
  case dropStream s r c hproto hact =>
    have hstream : ActFrame s (s.dropStream r c) := .updConn ⟨rfl, rfl, rfl, rfl, id, id⟩ rfl rfl
    exact hstream.trans (.updConn ⟨rfl, rfl, rfl, rfl, id, id⟩ rfl rfl)
  case dropWaiting hact => exact .of_frame .setWaiting
  case tick ms =>
    exact .of_frame ⟨Nat.le_refl _, Nat.le_refl _, fun _ _ => .refl _, fun _ _ => .refl _,
      fun _ _ _ _ _ h => .inl h, fun _ => id, fun _ => id⟩
  case expire hlt harmed hresp =>
    exact .of_frame (Frame.trans (.updReq ⟨rfl, rfl, rfl, rfl, rfl, rfl, id, id⟩) .respond)
  case legacy => exact .updReq ⟨rfl, rfl, rfl, rfl, rfl, rfl, id, fun _ => rfl⟩
  -- the others change a field of a request that does not matter here
  all_goals exact .updReq ⟨rfl, rfl, rfl, rfl, rfl, rfl, id, id⟩

/-- The same for a run of acts. -/
theorem Acts.base (h : Acts cfg w o w') : Base w → Base w' :=
  h.preserves (fun _ _ _ hm => hm.base)

/-- The same for a run of acts. -/
theorem Acts.frame (h : Acts cfg w o w') : ActFrame w.2 w'.2 :=
  h.related (R := fun w w' => ActFrame w.2 w'.2) (fun _ => .refl _) (fun _ _ _ => ActFrame.trans)
    (fun _ _ _ hm => hm.frame)

end HolyTls

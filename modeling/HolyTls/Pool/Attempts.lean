import HolyTls.Pool.Replay

/-!
# `Pool.Attempts` — how often a request is written

A stray close or a late failure can leave a request at two places at once, so where it is does not say how often it
was written. A count does: every attempt that is not written yet, and every retry that is left, is worth one write,
and nothing makes more of them (`Turn.credit_le`).
-/

namespace HolyTls

/-- The request is in hand and not written yet. -/
@[simp] def Held.unsent (r : ReqId) : Held → Bool
  | free x _ => x == r
  | opened x _ => x == r
  | sub x _ => x == r
  | streamed x _ => x == r
  | _ => false

namespace Pool

/-- The retries that the request has left; before it is dispatched, all its attempts. -/
def left (s : Pool) (r : ReqId) : Nat := if r < s.nreq then (s.reqs r).retriesLeft else poolMaxRetries + 1

/-- How often the request can still be written: as often as it is queued, and once for each retry left. -/
def stock (s : Pool) (r : ReqId) : Nat :=
  ∑ c ∈ Finset.range s.nconn, (s.conn c).waiting.nodes.count r + s.left r

end Pool

@[simp] def credit (r : ReqId) (w : PoolWorld) : Nat := w.1.countP (Held.unsent r) + w.2.stock r

@[simp] def PoolEvent.writes (r : ReqId) : PoolEvent → Bool
  | write x _ => x == r
  | _ => false

variable {cfg : PoolCfg} {w w' : PoolWorld} {o l : List PoolEvent} {r x : ReqId} {c : ConnId} {s t : Pool}
  {g : PoolConn → PoolConn}

namespace Pool

theorem stock_congr (hn : t.nconn = s.nconn) (hl : t.left r = s.left r)
    (h : ∀ c, (t.conn c).waiting = (s.conn c).waiting) : t.stock r = s.stock r := by
  simp only [stock, hn, hl, h]

@[simp] theorem stock_updReq {f : PoolReq → PoolReq} (h : ∀ q, (f q).retriesLeft = q.retriesLeft) :
    (s.updReq x f).stock r = s.stock r := by
  have hreq : ((s.updReq x f).reqs r).retriesLeft = (s.reqs r).retriesLeft := by
    rw [updReq_reqs]
    split
    · next hx => rw [h, hx]
    · rfl
  refine stock_congr rfl ?_ (fun _ => rfl)
  unfold left
  rw [hreq]
  rfl

@[simp] theorem stock_removeConn : (s.removeConn c).stock r = s.stock r := rfl

@[simp] theorem stock_quiet (h : ∀ pc, (g pc).waiting = pc.waiting) : (s.updConn c g).stock r = s.stock r :=
  stock_congr rfl rfl (updConn_part (·.waiting) (h _))

@[simp] theorem stock_markAllBroken : s.markAllBroken.stock r = s.stock r := by
  refine stock_congr rfl rfl fun c => ?_
  rw [markAllBroken_conn]
  split <;> rfl

@[simp] theorem stock_addConn {p : PoolProto} {q : PoolReq} : (s.addConn p q).stock r = s.stock r := by
  have hold : ∀ y ∈ Finset.range s.nconn, ((s.addConn p q).conn y).waiting.nodes.count r =
      (s.conn y).waiting.nodes.count r := by
    intro y hy
    rw [addConn_conn, if_neg (Nat.ne_of_lt (Finset.mem_range.mp hy))]
  rw [stock, show (s.addConn p q).nconn = s.nconn + 1 from rfl, Finset.sum_range_succ, Finset.sum_congr rfl hold,
    addConn_conn, if_pos rfl]
  rfl

/-- One waiting list changes. -/
theorem stock_updConn (hc : c < s.nconn) : (s.updConn c g).stock r + (s.conn c).waiting.nodes.count r =
    s.stock r + (g (s.conn c)).waiting.nodes.count r := by
  have hmem := Finset.mem_range.mpr hc
  have hrest := Finset.sum_congr (rfl : (Finset.range s.nconn).erase c = _)
    (f := fun y => ((s.updConn c g).conn y).waiting.nodes.count r) (g := fun y => (s.conn y).waiting.nodes.count r)
    (fun y hy => by rw [updConn_conn, if_neg (Finset.ne_of_mem_erase hy)])
  rw [stock, stock, show (s.updConn c g).nconn = s.nconn from rfl, ← Finset.add_sum_erase _ _ hmem, hrest,
    ← Finset.add_sum_erase _ (fun y => (s.conn y).waiting.nodes.count r) hmem, updConn_conn, if_pos rfl,
    show (s.updConn c g).left r = s.left r from rfl]
  omega

theorem stock_waitingPush_le (hc : c < s.nconn) : (s.waitingPush x c).stock r ≤ s.stock r + [x].count r := by
  have hsum : (s.waitingPush x c).stock r + _ = _ := stock_updConn hc
  have hpush := (Waiting.push_sublist (s.conn c).waiting x).count_le r
  rw [List.count_append] at hpush
  dsimp only at hsum
  omega

theorem stock_addReq {q : PoolReq} (hq : q.retriesLeft = poolMaxRetries) :
    (s.addReq q).stock r + [s.nreq].count r = s.stock r := by
  have hleft : (s.addReq q).left r + [s.nreq].count r = s.left r := by
    rw [left, left, addReq_reqs, show (s.addReq q).nreq = s.nreq + 1 from rfl]
    grind
  rw [stock, stock, ← hleft, ← Nat.add_assoc]
  rfl

theorem stock_resetForRetry (hx : x < s.nreq) (hleft : 0 < (s.reqs x).retriesLeft) :
    (s.resetForRetry x).stock r + [x].count r = s.stock r := by
  have hleft : (s.resetForRetry x).left r + [x].count r = s.left r := by
    rw [left, left, show (s.resetForRetry x).nreq = s.nreq from rfl, resetForRetry, updReq_reqs]
    grind
  rw [stock, stock, ← hleft, ← Nat.add_assoc]
  rfl

end Pool

theorem Move.credit_le (h : Move cfg w o w') (hb : Base w) :
    credit r w' + o.countP (·.writes r) ≤ credit r w := by
  cases h
  case dispatch H s proto method url deadline hok =>
    have hs := Pool.stock_addReq (s := s) (r := r) (q := .ofUrl proto method url deadline) rfl
    simp [List.countP_cons, List.count_cons] at hs ⊢
    omega
  case retry H s x got hleft hresp =>
    have hs := Pool.stock_resetForRetry (r := r) (x := x) hb.head hleft
    simp [List.countP_cons, List.count_cons] at hs ⊢
    omega
  case park H s x c hev =>
    have hpush := Pool.stock_waitingPush_le (r := r) (x := x) hb.head.2
    rcases hev with rfl | ⟨rfl, -⟩ <;> simp [List.countP_cons, List.count_cons] at hpush ⊢ <;> omega
  case parkNew H s x c hev =>
    have hpush := Pool.stock_waitingPush_le (s := s.setPc x c) (r := r) (x := x) hb.head.2
    rcases hev with rfl | ⟨rfl, -⟩ <;> simp [List.countP_cons, List.count_cons, Pool.setPc] at hpush ⊢ <;> omega
  case pop H s x c v hcalm hpop hcap =>
    have hnodes := Waiting.nodes_of_pop hpop
    have hc : c < s.nconn := hb.lt_of_refers (r := x) (.inl (hnodes ▸ List.mem_cons_self))
    have hq : (s.setWaiting c v).stock r + _ = _ := Pool.stock_updConn hc
    simp [List.countP_cons, List.count_cons, hnodes] at hq ⊢
    omega
  case failAll H s c hc hlive hrecv =>
    have hq : (s.detachAll c).stock r + _ = _ := Pool.stock_updConn hc
    simp [List.countP_map, Function.comp_def, Pool.close] at hq ⊢
    omega
  case rehome H s c hcalm hbroken =>
    have hc : c < s.nconn := hb.lt_of_ne (fun h => by rw [h] at hbroken; cases hbroken)
    have hq : (s.detachWaiting c).stock r + _ = _ := Pool.stock_updConn hc
    simp [List.countP_map, Function.comp_def, ← List.count_eq_countP] at hq ⊢
    omega
  case touch H s c pc' hc hmild =>
    have hq := Pool.stock_updConn (r := r) (g := fun _ => pc') hc
    rw [hmild.waiting] at hq
    simp
    omega
  case activate hev | activateH3 hev =>
    rcases hev with ⟨rfl, -⟩ | ⟨rfl, -⟩ <;> simp [Pool.afterSubmit, Pool.pushStream]
  all_goals simp [List.countP_cons, Pool.afterSubmit, Pool.activeRemove, Pool.close, Pool.startH1,
    Pool.openStream, Pool.setPc, Pool.clearPc, Pool.respond, Pool.release]
  all_goals omega

/-- **A write uses up an attempt**, and nothing makes one. -/
theorem Turn.credit_le (h : Turn cfg w o w') (hb : Base w) : credit r w' + o.countP (·.writes r) ≤ credit r w := by
  cases h with
  | act h =>
    cases h
    case move h => exact h.credit_le hb
    case fallback s c hc hstate =>
      have hq : (s.detachWaiting c).stock r + _ = _ := Pool.stock_updConn hc
      simp [List.countP_map, Function.comp_def] at hq ⊢
      omega
    case dropWaiting s x c hact =>
      have hq : (s.setWaiting c ((s.conn c).waiting.remove x)).stock r + _ = _ :=
        Pool.stock_updConn (hb.head.2 c rfl)
      have hle := (Waiting.remove_sublist (s.conn c).waiting x).count_le r
      simp at hq ⊢
      omega
    case takeStream hev =>
      rcases hev with rfl | ⟨rfl, -⟩ <;> simp [Pool.activeRemove, Pool.removeStream]
    case dropActive hev =>
      rcases hev with rfl | ⟨rfl, -⟩ <;> simp [Pool.activeRemove]
    case dropStream => simp [Pool.activeRemove, Pool.dropStream]
    case tick => exact Nat.le_refl _
    all_goals simp [Pool.respond]
  | _ => simp [Pool.readH1, Pool.endH1]

/-- **No request is written more than `POOL_MAX_RETRIES + 1` times**, whatever its connections do. -/
theorem pool_writes_bounded {w : PoolRun} (h : PoolReach cfg w) (r : ReqId) :
    w.log.countP (·.writes r) ≤ poolMaxRetries + 1 := by
  have hle := Turns.invariant (fun _ => True) (I := fun l w => credit r w + l.countP (·.writes r) ≤ poolMaxRetries + 1)
    (fun _ _ _ => trivial) ?_ h.turns.1 Base.empty [] (Nat.le_refl _) trivial
  · rw [List.nil_append] at hle
    omega
  intro l w o w' hb hI ht _
  have hstep := ht.credit_le (r := r) hb
  rw [List.countP_append]
  omega

/-- A peer that refuses the stream each time gets the request as often as that. -/
theorem pool_writes_bounded_refused :
    ∃ w, PoolReach plainCfg w ∧ w.log.countP (·.writes 0) = 3 ∧ w.log.countP (·.writes 0) ≤ poolMaxRetries + 1 := by
  have hrun : (poolPlay plainCfg (refusedRun ++ refusedRun.drop 2)).map (fun w => w.log.countP (·.writes 0)) =
      some 3 := by
    decide +kernel
  obtain ⟨w, hplay, hw⟩ := Option.map_eq_some_iff.mp hrun
  exact ⟨w, .of_play hplay, hw, pool_writes_bounded (.of_play hplay) 0⟩

end HolyTls

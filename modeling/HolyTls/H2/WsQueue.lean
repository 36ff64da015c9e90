import HolyTls.Base.U8Buf

/-!
# `H2.WsQueue` — the send queue of a WebSocket over HTTP/2 (`src/h2/h2.c`)

The application queues bytes with `h2_session_ws_send`, nghttp2 takes them with `ws_data_read_cb` when it can
send, and `h2_session_ws_finish` asks for the end of the stream. The bytes wait in one block of memory: a send
moves what is left to the front and grows the block, a read that empties the queue resets the offsets.

`Fifo` is what the queue is for. Each operation of the code does what the operation of the `Fifo` does
(`WsQueue.step_abs`), so a whole run gives the same answers (`WsQueue.run_abs`), and of these the statement
about all interleavings is read off (`ws_queue_is_fifo`).
-/

namespace HolyTls

open ByteMem (Mem read write)

/-- The fields of a `Req` that make up the send queue. -/
structure WsQueue where
  wq : Mem
  wqLen : Nat
  wqOff : Nat
  wqCap : Nat
  wsEof : Bool
  off_le : wqOff ≤ wqLen
  len_le : wqLen ≤ wqCap

/-- What the data provider answers: `NGHTTP2_ERR_DEFERRED`, or bytes and whether the EOF flag is set. -/
inductive WsRead
  | deferred
  | data (bytes : Str8) (eof : Bool)
deriving DecidableEq, Repr

namespace WsQueue

/-- A new stream: no block yet. -/
def init : WsQueue :=
  { wq := fun _ => 0, wqLen := 0, wqOff := 0, wqCap := 0, wsEof := false, off_le := Nat.le_refl 0
    len_le := Nat.le_refl 0 }

/-- How many bytes a read returns: what is left, or what fits. -/
def readLen (q : WsQueue) (length : Nat) : Nat :=
  if q.wqLen - q.wqOff < length then q.wqLen - q.wqOff else length

theorem readLen_eq (q : WsQueue) (length : Nat) : q.readLen length = min length (q.wqLen - q.wqOff) := by
  unfold readLen
  split <;> omega

theorem off_add_readLen_le (q : WsQueue) (length : Nat) : q.wqOff + q.readLen length ≤ q.wqLen := by
  have hoff := q.off_le
  rw [readLen_eq]
  omega

/-- `ws_data_read_cb`. -/
def dataRead (q : WsQueue) (length : Nat) : WsQueue × WsRead :=
  if q.wqLen - q.wqOff = 0 then (q, if q.wsEof then .data [] true else .deferred)
  else
    let n := q.readLen length
    let bytes := read q.wq q.wqOff n
    if q.wqOff + n = q.wqLen then
      ({ q with wqLen := 0, wqOff := 0, off_le := Nat.le_refl 0, len_le := Nat.zero_le _ }, .data bytes q.wsEof)
    else ({ q with wqOff := q.wqOff + n, off_le := q.off_add_readLen_le length }, .data bytes false)

/-- The first step of a send: what was sent already makes room. -/
def compact (q : WsQueue) : WsQueue :=
  if q.wqOff ≠ 0 then
    { q with wq := write q.wq 0 (read q.wq q.wqOff (q.wqLen - q.wqOff)), wqLen := q.wqLen - q.wqOff, wqOff := 0
             off_le := Nat.zero_le _, len_le := Nat.le_trans (Nat.sub_le _ _) q.len_le }
  else q

/-- The capacity for `need` bytes. -/
def newCap (q : WsQueue) (need : Nat) : Nat := doubleUntil need need (if q.wqCap ≠ 0 then q.wqCap * 2 else 4096)

theorem newCap_ge (q : WsQueue) (need : Nat) : need ≤ q.newCap need := by
  have hpos : 0 < if q.wqCap ≠ 0 then q.wqCap * 2 else 4096 := by split <;> omega
  exact doubleUntil_ge hpos (Nat.le_add_left _ _)

/-- The second step: a larger block if the data does not fit. `fresh` is what that block holds. -/
def grow (fresh : Mem) (q : WsQueue) (len : Nat) : WsQueue :=
  if q.wqLen + len > q.wqCap then
    { q with wq := if q.wqLen ≠ 0 then write fresh 0 (read q.wq 0 q.wqLen) else fresh
             wqCap := q.newCap (q.wqLen + len)
             len_le := Nat.le_trans (Nat.le_add_right _ _) (q.newCap_ge _) }
  else q

/-- The buffer is grown until the new bytes fit. -/
theorem grow_fits (fresh : Mem) (q : WsQueue) (len : Nat) :
    (q.grow fresh len).wqLen + len ≤ (q.grow fresh len).wqCap := by
  unfold grow
  split
  · exact q.newCap_ge _
  · next h => exact Nat.le_of_not_lt h

/-- The last step: the data behind what is queued. -/
def append (q : WsQueue) (data : Str8) (h : q.wqLen + data.length ≤ q.wqCap) : WsQueue :=
  { q with wq := write q.wq q.wqLen data, wqLen := q.wqLen + data.length
           off_le := Nat.le_trans q.off_le (Nat.le_add_right _ _), len_le := h }

/-- `h2_session_ws_send` on an open stream. -/
def send (fresh : Mem) (q : WsQueue) (data : Str8) : WsQueue :=
  (q.compact.grow fresh data.length).append data (grow_fits fresh q.compact data.length)

/-- `h2_session_ws_finish`. -/
def finish (q : WsQueue) : WsQueue := { q with wsEof := true }

end WsQueue

/-! ## What the queue is for -/

/-- A queue of bytes that may be closed. -/
structure Fifo where
  queued : Str8
  closed : Bool

/-- A use of the queue; a send may find a fresh block of memory with any bytes in it. -/
inductive WsOp
  | send (fresh : Mem) (data : Str8)
  | pull (length : Nat)
  | finish

namespace Fifo

/-- What a pull answers. -/
def answer (f : Fifo) (length : Nat) : WsRead :=
  if f.queued = [] then (if f.closed then .data [] true else .deferred)
  else .data (f.queued.take length) (f.closed && (f.queued.drop length).isEmpty)

/-- One operation, and the answer if it is a pull. -/
def step (f : Fifo) : WsOp → Fifo × Option WsRead
  | .send _ data => ({ f with queued := f.queued ++ data }, none)
  | .pull length => ({ f with queued := f.queued.drop length }, some (f.answer length))
  | .finish => ({ f with closed := true }, none)

end Fifo

/-! ## Whole runs -/

/-- The same for the code. -/
def WsQueue.step (q : WsQueue) : WsOp → WsQueue × Option WsRead
  | .send fresh data => (q.send fresh data, none)
  | .pull length => ((q.dataRead length).1, some (q.dataRead length).2)
  | .finish => (q.finish, none)

/-- A run of operations: the last state and the answers to the pulls. -/
def runOps {σ : Type} (step : σ → WsOp → σ × Option WsRead) : σ → List WsOp → σ × List WsRead
  | s, [] => (s, [])
  | s, op :: ops => ((runOps step (step s op).1 ops).1, (step s op).2.toList ++ (runOps step (step s op).1 ops).2)

/-- The bytes that an operation queues. -/
def WsOp.bytes : WsOp → Str8
  | .send _ data => data
  | .pull _ => []
  | .finish => []

/-- The bytes that were queued in a run. -/
def sentBytes (ops : List WsOp) : Str8 := ops.flatMap WsOp.bytes

/-- The bytes of an answer. -/
def WsRead.bytes : WsRead → Str8
  | .deferred => []
  | .data bytes _ => bytes

/-- The bytes that the provider returned in a run. -/
def returnedBytes (answers : List WsRead) : Str8 := answers.flatMap WsRead.bytes

def WsOp.isFinish : WsOp → Bool
  | .send _ _ => false
  | .pull _ => false
  | .finish => true

/-- A finish was requested in a run. -/
def finishRequested (ops : List WsOp) : Bool := ops.any WsOp.isFinish

/-- The answer signals the end of the stream. -/
def WsRead.eof : WsRead → Bool
  | .deferred => false
  | .data _ eof => eof

/-! ## The code's queue is that queue -/

namespace WsQueue

variable {q : WsQueue} {fresh : Mem} {data : Str8}

/-- What the block of memory holds for the provider. -/
def pending (q : WsQueue) : Str8 := read q.wq q.wqOff (q.wqLen - q.wqOff)

def abs (q : WsQueue) : Fifo := { queued := q.pending, closed := q.wsEof }

theorem pending_length (q : WsQueue) : q.pending.length = q.wqLen - q.wqOff := ByteMem.read_length _ _ _

/-- Compacting moves what waits to the front. -/
theorem compact_pending : q.compact.pending = q.pending ∧ q.compact.wqOff = 0 ∧ q.compact.wsEof = q.wsEof := by
  unfold compact
  split
  · have hmove := ByteMem.read_write_self q.wq 0 (read q.wq q.wqOff (q.wqLen - q.wqOff))
    rw [ByteMem.read_length] at hmove
    exact ⟨hmove, rfl, rfl⟩
  · next h => exact ⟨rfl, not_not.mp h, rfl⟩

theorem grow_pending (fresh : Mem) (hoff : q.wqOff = 0) (len : Nat) :
    (q.grow fresh len).pending = q.pending ∧ (q.grow fresh len).wqOff = 0 ∧ (q.grow fresh len).wsEof = q.wsEof := by
  unfold grow
  split
  · refine ⟨?_, hoff, rfl⟩
    by_cases hlen : q.wqLen = 0
    · simp [pending, hlen]
    · have hcopy := ByteMem.read_write_self fresh 0 (read q.wq 0 q.wqLen)
      rw [ByteMem.read_length] at hcopy
      simpa [pending, hlen, hoff] using hcopy
  · exact ⟨rfl, hoff, rfl⟩

theorem append_pending (h : q.wqLen + data.length ≤ q.wqCap) : (q.append data h).pending = q.pending ++ data := by
  have hlen : q.wqLen + data.length - q.wqOff = (q.wqLen - q.wqOff) + data.length := by
    have := q.off_le
    omega
  have hend : q.wqOff + (q.wqLen - q.wqOff) = q.wqLen := Nat.add_sub_cancel' q.off_le
  simp only [pending, append]
  rw [hlen, ByteMem.read_add, hend, ByteMem.read_write_self, ByteMem.read_write_of_disjoint (by omega)]

/-- A send queues its bytes behind what waits. -/
theorem send_abs (q : WsQueue) (fresh : Mem) (data : Str8) :
    (q.send fresh data).abs = { q.abs with queued := q.abs.queued ++ data } := by
  obtain ⟨hcompact, hoff, heof⟩ := compact_pending (q := q)
  obtain ⟨hgrow, -, heof'⟩ := grow_pending fresh hoff data.length
  have hpending := append_pending (grow_fits fresh q.compact data.length)
  unfold abs send
  rw [hpending, hgrow, hcompact]
  exact congrArg (Fifo.mk _) (heof'.trans heof)

theorem pending_take (q : WsQueue) (length : Nat) :
    q.pending.take length = read q.wq q.wqOff (q.readLen length) := by
  rw [pending, ByteMem.read_take, readLen_eq]

/-- A pull takes from the front. -/
theorem dataRead_abs (q : WsQueue) (length : Nat) :
    (q.dataRead length).1.abs = { q.abs with queued := q.abs.queued.drop length } ∧
      (q.dataRead length).2 = q.abs.answer length := by
  have hlen := q.pending_length
  have hread := q.readLen_eq length
  unfold dataRead Fifo.answer
  by_cases hempty : q.wqLen - q.wqOff = 0
  · have hnil : q.pending = [] := List.length_eq_zero_iff.mp (hlen.trans hempty)
    simp [abs, hempty, hnil]
  · have hne : q.abs.queued ≠ [] := by
      intro h
      have hnil : q.pending = [] := h
      rw [hnil] at hlen
      exact hempty hlen.symm
    rw [if_neg hempty, if_neg hne]
    dsimp only [abs]
    rw [← pending_take]
    by_cases hall : q.wqOff + q.readLen length = q.wqLen
    · -- the queue is drained
      have hdrop : q.pending.drop length = [] := List.drop_eq_nil_of_le (by rw [hlen]; omega)
      rw [if_pos hall, hdrop]
      exact ⟨rfl, by simp⟩
    · have hdrop : q.pending.drop length = read q.wq (q.wqOff + length) (q.wqLen - (q.wqOff + length)) := by
        rw [pending, ByteMem.read_drop, Nat.sub_sub]
      have hleft : (q.pending.drop length).isEmpty = false := by
        rw [hdrop, List.isEmpty_eq_false_iff, ← List.length_pos_iff, ByteMem.read_length]
        omega
      have hn : q.readLen length = length := by omega
      rw [if_neg hall, hleft, hdrop]
      refine ⟨?_, by simp⟩
      simp only [pending, hn]

/-- **The step lemma.** -/
theorem step_abs (q : WsQueue) (op : WsOp) :
    (q.step op).1.abs = (q.abs.step op).1 ∧ (q.step op).2 = (q.abs.step op).2 := by
  cases op with
  | send fresh data => exact ⟨q.send_abs fresh data, rfl⟩
  | pull length => exact ⟨(q.dataRead_abs length).1, congrArg some (q.dataRead_abs length).2⟩
  | finish => exact ⟨rfl, rfl⟩

/-- **The run lemma**: the code gives the answers that the queue gives. -/
theorem run_abs (q : WsQueue) (ops : List WsOp) :
    (runOps step q ops).1.abs = (runOps Fifo.step q.abs ops).1 ∧
      (runOps step q ops).2 = (runOps Fifo.step q.abs ops).2 := by
  induction ops generalizing q with
  | nil => exact ⟨rfl, rfl⟩
  | cons op ops ih =>
    obtain ⟨hstate, hanswer⟩ := q.step_abs op
    obtain ⟨hlast, hanswers⟩ := ih (q.step op).1
    rw [hstate] at hlast hanswers
    simp only [runOps, hlast, hanswers, hanswer, and_self]

end WsQueue

/-! ## Every interleaving -/

theorem answer_bytes (f : Fifo) (length : Nat) : (f.answer length).bytes = f.queued.take length := by
  unfold Fifo.answer
  split
  · next h =>
      rw [h, List.take_nil]
      split <;> rfl
  · rfl

/-- Nothing is lost, repeated or moved: what was queued is what was returned and what is still there. -/
theorem fifo_run (f : Fifo) (ops : List WsOp) :
    f.queued ++ sentBytes ops = returnedBytes (runOps Fifo.step f ops).2 ++ (runOps Fifo.step f ops).1.queued ∧
      (runOps Fifo.step f ops).1.closed = (f.closed || finishRequested ops) := by
  induction ops generalizing f with
  | nil => simp [runOps, sentBytes, returnedBytes, finishRequested]
  | cons op ops ih =>
    obtain ⟨hbytes, hclosed⟩ := ih (f.step op).1
    cases op with
    | send fresh data =>
      have hsent : sentBytes (.send fresh data :: ops) = data ++ sentBytes ops := rfl
      refine ⟨?_, hclosed⟩
      rw [hsent, ← List.append_assoc]
      exact hbytes
    | pull length =>
      refine ⟨?_, hclosed⟩
      have hreturned : returnedBytes (runOps Fifo.step f (.pull length :: ops)).2 =
          f.queued.take length ++ returnedBytes (runOps Fifo.step (f.step (.pull length)).1 ops).2 := by
        rw [← answer_bytes f length]
        rfl
      rw [hreturned, List.append_assoc]
      calc f.queued ++ sentBytes ops
          = f.queued.take length ++ (f.queued.drop length ++ sentBytes ops) := by
            rw [← List.append_assoc, List.take_append_drop]
        _ = _ := congrArg _ hbytes
    | finish =>
      refine ⟨hbytes, hclosed.trans ?_⟩
      simp [Fifo.step, finishRequested, WsOp.isFinish]

/-- **The send queue is a byte FIFO.** After every interleaving of sends, pulls and finishes, the bytes returned
    so far are a prefix of the bytes sent. The next pull returns the bytes that follow them, as many as there
    are and it has room for; it defers exactly when nothing is queued and no finish was requested, and signals
    the end exactly when a finish was requested and everything that was sent is returned. -/
theorem ws_queue_is_fifo (ops : List WsOp) (length : Nat) :
    let answers := (runOps WsQueue.step .init ops).2
    let answer := ((runOps WsQueue.step .init ops).1.dataRead length).2
    returnedBytes answers <+: sentBytes ops ∧
      answer.bytes = ((sentBytes ops).drop (returnedBytes answers).length).take length ∧
      (answer = .deferred ↔ returnedBytes answers = sentBytes ops ∧ finishRequested ops = false) ∧
      (answer.eof = true ↔ finishRequested ops = true ∧ returnedBytes (answers ++ [answer]) = sentBytes ops) := by
  obtain ⟨hstate, hanswers⟩ := WsQueue.run_abs .init ops
  obtain ⟨hbytes, hclosed⟩ := fifo_run WsQueue.init.abs ops
  have hanswer := ((runOps WsQueue.step .init ops).1.dataRead_abs length).2
  rw [hstate] at hanswer
  have hstart : WsQueue.init.abs = { queued := [], closed := false } := rfl
  rw [hstart] at hbytes hclosed hanswer hanswers
  dsimp only
  rw [hanswers, hanswer]
  generalize (runOps Fifo.step { queued := [], closed := false } ops).1 = f at *
  generalize (runOps Fifo.step { queued := [], closed := false } ops).2 = answers at *
  rw [List.nil_append] at hbytes
  rw [Bool.false_or] at hclosed
  have hreturned : returnedBytes (answers ++ [f.answer length]) = returnedBytes answers ++ f.queued.take length := by
    rw [← answer_bytes f length]
    simp [returnedBytes]
  rw [hreturned, hbytes, ← hclosed]
  refine ⟨List.prefix_append _ _, ?_, ?_, ?_⟩
  · rw [answer_bytes, List.drop_left]
  · unfold Fifo.answer
    cases hq : f.queued <;> cases f.closed <;> simp
  · have hall : f.queued.take length = f.queued ↔ (f.queued.drop length).isEmpty = true := by
      rw [List.take_eq_self_iff, List.isEmpty_iff, List.drop_eq_nil_iff]
    rw [List.append_right_inj, hall]
    unfold Fifo.answer
    cases hq : f.queued <;> cases f.closed <;> simp [WsRead.eof]

end HolyTls

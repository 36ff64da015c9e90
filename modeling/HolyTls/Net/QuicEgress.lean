import HolyTls.Base.Str8
import HolyTls.Lib.Runs
import HolyTls.Lib.Slots

/-!
# `Net.QuicEgress` — stream data on its way out (`net/quic_connection.c`)

Each stream that was opened or sent on has an entry in a table of 32: the bytes sent on it, how many of them
ngtcp2 has taken, and the FIN. A flush pass offers ngtcp2 the rest of one stream after the other; entries go
away when their stream is closed or reset, by moving the last entry into the gap.

ngtcp2 is a list of answers, one for each call of `ngtcp2_conn_writev_stream` in a pass; a pass may be cut
anywhere. The log records what was sent, offered and accepted. `EgressMove` says what can happen to the table
and the log, one entry at a time; `egressStep_moves` that the calls do nothing else.

A send that finds the table full is dropped without a word (`quicStreamSend`), so the bytes that go out are a
prefix of the bytes sent only in runs where that does not happen.
-/

namespace HolyTls

open Runs Slots

variable {i : Nat}

/-! ## The source -/

structure QuicSendBuf where
  id : Int
  data : Str8 := []
  off : Nat := 0
  fin : Bool := false
  finSent : Bool := false
  blocked : Bool := false
  deriving DecidableEq, Repr

/-- What is sent, dropped for want of an entry, offered to ngtcp2 and accepted by it, and which streams were
    closed or reset. -/
inductive EgressEvent
  | send (id : Int) (data : Str8) (fin : Bool)
  | drop (id : Int)
  | offer (id : Int) (bytes : Str8) (fin : Bool)
  | accept (id : Int) (bytes : Str8)
  | gone (id : Int)
  deriving DecidableEq

/-- The part of `QuicConnection` that egress is about; `running` is false once the connection is closing or has
    failed. -/
structure QuicEgress where
  sendBufs : List QuicSendBuf := []
  running : Bool := true
  log : List EgressEvent := []
  deriving DecidableEq

/-- An answer of `ngtcp2_conn_writev_stream`: it wants more data for the packet, or has built one, or has
    nothing more to send (`last`), with the number of bytes it has taken; the stream is blocked, shut or unknown;
    or an error that ends the connection. -/
inductive Writev
  | more (n : Nat)
  | wrote (n : Nat) (last : Bool)
  | stuck
  | fatal
  deriving DecidableEq

def sendBufsMax : Nat := 32

/-- What `quic_pick_pending` looks for. -/
def QuicSendBuf.pending (sb : QuicSendBuf) : Bool :=
  !sb.blocked && (decide (sb.off < sb.data.length) || (sb.fin && !sb.finSent))

/-- `quic_pick_pending`. -/
def quicPickPending (bufs : List QuicSendBuf) : Option Nat := bufs.findIdx? QuicSendBuf.pending

/-- `quic_find_or_add_send_buf`: the place of the entry, and the table. A fresh entry inherits `blocked` from
    whoever had the place before; a pass clears it before anything reads it. -/
def quicFindOrAddSendBuf (bufs : List QuicSendBuf) (id : Int) : Option Nat × List QuicSendBuf :=
  match bufs.findIdx? (·.id == id) with
  | some i => (some i, bufs)
  | none =>
    if sendBufsMax ≤ bufs.length then (none, bufs) else (some bufs.length, bufs ++ [{ id := id }])

/-- The swap with the last entry in `quic_stream_close_cb` and `quic_reset_stream`. -/
def quicRemoveSendBuf (bufs : List QuicSendBuf) (id : Int) : List QuicSendBuf :=
  swapRemove (·.id == id) bufs

namespace QuicEgress

def report (c : QuicEgress) (e : EgressEvent) : QuicEgress := { c with log := c.log ++ [e] }

/-- ngtcp2 has taken `n` bytes of the entry at `i`. -/
def accept (c : QuicEgress) (i : Nat) (sb : QuicSendBuf) (n : Nat) : QuicEgress :=
  if 0 < n then
    { c with
      sendBufs := c.sendBufs.set i { sb with
        off := sb.off + n, finSent := sb.finSent || (decide (sb.data.length ≤ sb.off + n) && sb.fin) }
      log := c.log ++ [.accept sb.id ((sb.data.drop sb.off).take n)] }
  else c

end QuicEgress

/-- One round of the loop of `quic_flush_egress`, and whether the pass goes on. ngtcp2 never takes more than it
    was offered. -/
def quicFlushRound (w : Writev) (c : QuicEgress) : Option (QuicEgress × Bool) :=
  match (quicPickPending c.sendBufs).bind (fun i => (c.sendBufs[i]?).map (fun sb => (i, sb))) with
  | none =>
    match w with
    | .more _ => some (c, true)
    | .wrote _ last => some (c, !last)
    | .stuck => some (c, true)
    | .fatal => some ({ c with running := false }, false)
  | some (i, sb) =>
    let rest := sb.data.drop sb.off
    let offered := c.report (.offer sb.id rest (sb.fin && !sb.finSent))
    match w with
    | .more n => if n ≤ rest.length then some (offered.accept i sb n, true) else none
    | .wrote n last => if n ≤ rest.length then some (offered.accept i sb n, !last) else none
    | .stuck => some ({ offered with sendBufs := c.sendBufs.set i { sb with blocked := true } }, true)
    | .fatal => some ({ offered with running := false }, false)

/-- The loop of `quic_flush_egress`. -/
def quicFlushLoop : List Writev → QuicEgress → Option QuicEgress
  | [], c => some c
  | w :: ws, c => (quicFlushRound w c).bind (fun r => if r.2 then quicFlushLoop ws r.1 else some r.1)

/-- `quic_flush_egress`. -/
def quicFlushEgress (ws : List Writev) (c : QuicEgress) : Option QuicEgress :=
  if c.running then
    quicFlushLoop ws { c with sendBufs := c.sendBufs.map (fun sb => { sb with blocked := false }) }
  else some c

/-- `quic_open_uni_stream` and `quic_open_bidi_stream`, when ngtcp2 has opened the stream `id`. -/
def quicOpenStream (c : QuicEgress) (id : Int) : QuicEgress :=
  { c with sendBufs := (quicFindOrAddSendBuf c.sendBufs id).2 }

/-- `quic_stream_send`. -/
def quicStreamSend (c : QuicEgress) (id : Int) (data : Str8) (fin : Bool) (ws : List Writev) :
    Option QuicEgress :=
  match quicFindOrAddSendBuf c.sendBufs id with
  | (none, _) => some ((c.report (.send id data fin)).report (.drop id))
  | (some i, bufs) =>
    quicFlushEgress ws { c.report (.send id data fin) with
      sendBufs := bufs.modify i (fun sb => { sb with data := sb.data ++ data, fin := sb.fin || fin }) }

/-- `quic_stream_close_cb`. -/
def quicStreamClose (c : QuicEgress) (id : Int) : QuicEgress :=
  { c.report (.gone id) with sendBufs := quicRemoveSendBuf c.sendBufs id }

/-- `quic_reset_stream`. -/
def quicResetStream (c : QuicEgress) (id : Int) (ws : List Writev) : Option QuicEgress :=
  quicFlushEgress ws (quicStreamClose c id)

/-! ## Calls in a row -/

inductive EgressOp
  | openStream (id : Int)
  | send (id : Int) (data : Str8) (fin : Bool) (ws : List Writev)
  | flush (ws : List Writev)
  | close (id : Int)
  | reset (id : Int) (ws : List Writev)
  | stop
  deriving DecidableEq

def egressStep (c : QuicEgress) : EgressOp → Option QuicEgress
  | .openStream id => some (quicOpenStream c id)
  | .send id data fin ws => quicStreamSend c id data fin ws
  | .flush ws => quicFlushEgress ws c
  | .close id => some (quicStreamClose c id)
  | .reset id ws => quicResetStream c id ws
  | .stop => some { c with running := false }

/-! ## What was sent and what went out -/

/-- All bytes sent on a stream, whether they were queued or dropped. -/
def sentOf (id : Int) : List EgressEvent → Str8 :=
  List.flatMap (fun e => match e with
    | .send j d _ => if j = id then d else []
    | _ => [])

/-- All bytes of a stream that ngtcp2 has taken. -/
def acceptedOf (id : Int) : List EgressEvent → Str8 :=
  List.flatMap (fun e => match e with
    | .accept j d => if j = id then d else []
    | _ => [])

def EgressEvent.isGone (id : Int) : EgressEvent → Bool
  | .gone j => j == id
  | _ => false

def EgressEvent.isSend (id : Int) : EgressEvent → Bool
  | .send j _ _ => j == id
  | _ => false

/-- Nothing is sent on the stream after it was closed or reset. -/
def Sane (id : Int) (log : List EgressEvent) : Prop :=
  QuietAfter (EgressEvent.isGone id) (EgressEvent.isSend id) log

instance (id : Int) (log : List EgressEvent) : Decidable (Sane id log) :=
  inferInstanceAs (Decidable (QuietAfter _ _ _))

/-- FIN is offered for a stream whose sender has asked for it, and an offer is all that remains of the stream. -/
def OfferOk (before : List EgressEvent) : EgressEvent → Prop
  | .offer id bytes fin =>
    (fin = true → ∃ d, .send id d true ∈ before) ∧
      (Sane id before → acceptedOf id before ++ bytes = sentOf id before)
  | _ => True

/-! ## Moves -/

/-- What a flush pass can do, one entry at a time. -/
inductive FlushMove : QuicEgress → QuicEgress → Prop
  | unblock {c : QuicEgress} :
      FlushMove c { c with sendBufs := c.sendBufs.map (fun sb => { sb with blocked := false }) }
  | offer {c : QuicEgress} {i : Nat} {sb : QuicSendBuf} (hsb : c.sendBufs[i]? = some sb)
      (hp : sb.pending = true) :
      FlushMove c (c.report (.offer sb.id (sb.data.drop sb.off) (sb.fin && !sb.finSent)))
  | accept {c : QuicEgress} {i : Nat} {sb : QuicSendBuf} {n : Nat} (finSent : Bool)
      (hsb : c.sendBufs[i]? = some sb) (hn : n ≤ (sb.data.drop sb.off).length) :
      FlushMove c { c with
        sendBufs := c.sendBufs.set i { sb with off := sb.off + n, finSent := finSent }
        log := c.log ++ [.accept sb.id ((sb.data.drop sb.off).take n)] }
  | block {c : QuicEgress} {i : Nat} {sb : QuicSendBuf} (hsb : c.sendBufs[i]? = some sb) :
      FlushMove c { c with sendBufs := c.sendBufs.set i { sb with blocked := true } }
  | stop {c : QuicEgress} : FlushMove c { c with running := false }

/-- What can happen to the table and the log. -/
inductive EgressMove : QuicEgress → QuicEgress → Prop
  | add {c : QuicEgress} {id : Int} (hnew : ∀ sb ∈ c.sendBufs, sb.id ≠ id) :
      EgressMove c { c with sendBufs := c.sendBufs ++ [{ id := id }] }
  | send {c : QuicEgress} {i : Nat} {sb : QuicSendBuf} (data : Str8) (fin : Bool)
      (hsb : c.sendBufs[i]? = some sb) :
      EgressMove c { c with
        sendBufs := c.sendBufs.set i { sb with data := sb.data ++ data, fin := sb.fin || fin }
        log := c.log ++ [.send sb.id data fin] }
  | remove {c : QuicEgress} (id : Int) : EgressMove c (quicStreamClose c id)
  | flush {c c' : QuicEgress} (h : FlushMove c c') : EgressMove c c'

/-- Moves in a row. -/
abbrev FlushMoves := Relation.ReflTransGen FlushMove

abbrev EgressMoves := Relation.ReflTransGen EgressMove

open Relation (ReflTransGen)

variable {c c' : QuicEgress}

theorem FlushMoves.egress (h : FlushMoves c c') : EgressMoves c c' :=
  h.lift id (fun _ _ hm => .flush hm)

theorem quicFindOrAddSendBuf_some {bufs bufs' : List QuicSendBuf} {id : Int}
    (h : quicFindOrAddSendBuf bufs id = (some i, bufs')) :
    (∃ sb, bufs'[i]? = some sb ∧ sb.id = id) ∧
      (bufs' = bufs ∨ (∀ sb ∈ bufs, sb.id ≠ id) ∧ bufs' = bufs ++ [{ id := id }]) := by
  unfold quicFindOrAddSendBuf at h
  split at h
  · next j hj =>
      cases h
      obtain ⟨sb, hsb, hid⟩ := findIdx?_some hj
      exact ⟨⟨sb, hsb, by simpa using hid⟩, .inl rfl⟩
  · next hnone =>
      split at h
      · cases h
      · cases h
        refine ⟨⟨_, List.getElem?_concat_length, rfl⟩, .inr ⟨?_, rfl⟩⟩
        intro sb hsb
        simpa using List.findIdx?_eq_none_iff.mp hnone sb hsb

theorem quicOpenStream_moves (c : QuicEgress) (id : Int) : EgressMoves c (quicOpenStream c id) := by
  unfold quicOpenStream
  cases hfind : quicFindOrAddSendBuf c.sendBufs id with
  | mk found bufs =>
    cases found with
    | some i =>
      rcases (quicFindOrAddSendBuf_some hfind).2 with rfl | ⟨hnew, rfl⟩
      · exact ReflTransGen.refl
      · exact ReflTransGen.single (EgressMove.add hnew)
    | none =>
      unfold quicFindOrAddSendBuf at hfind
      split at hfind
      · cases hfind
      · split at hfind
        · cases hfind
          exact ReflTransGen.refl
        · cases hfind

variable {sb : QuicSendBuf}

theorem accept_moves {n : Nat} (hsb : c.sendBufs[i]? = some sb) (hn : n ≤ (sb.data.drop sb.off).length) :
    FlushMoves c (c.accept i sb n) := by
  unfold QuicEgress.accept
  split
  · exact ReflTransGen.single (FlushMove.accept _ hsb hn)
  · exact ReflTransGen.refl

theorem quicFlushRound_moves {w : Writev} {r : QuicEgress × Bool} (h : quicFlushRound w c = some r) :
    FlushMoves c r.1 := by
  unfold quicFlushRound at h
  split at h
  · next hpick =>
      cases w with
      | fatal =>
        cases h
        exact ReflTransGen.single FlushMove.stop
      | _ =>
        cases h
        exact ReflTransGen.refl
  · next i sb hpick =>
      obtain ⟨j, hj, hsb⟩ := Option.bind_eq_some_iff.mp hpick
      obtain ⟨sb', hsb, heq⟩ := Option.map_eq_some_iff.mp hsb
      cases heq
      obtain ⟨sb', hsb', hp⟩ := findIdx?_some hj
      obtain rfl : sb = sb' := Option.some.inj (hsb.symm.trans hsb')
      have hoffer := ReflTransGen.single (FlushMove.offer hsb hp)
      -- what ngtcp2 answers to the offer
      cases w with
      | more n | wrote n last =>
        dsimp only at h
        split at h
        · next hn =>
            cases h
            exact hoffer.trans (accept_moves hsb hn)
        · cases h
      | stuck =>
        cases h
        exact hoffer.tail (FlushMove.block hsb)
      | fatal =>
        cases h
        exact hoffer.tail FlushMove.stop

variable {ws : List Writev}

theorem quicFlushLoop_moves (h : quicFlushLoop ws c = some c') : FlushMoves c c' := by
  induction ws generalizing c with
  | nil =>
    cases h
    exact ReflTransGen.refl
  | cons w ws ih =>
    obtain ⟨r, hr, h⟩ := Option.bind_eq_some_iff.mp h
    have hround := quicFlushRound_moves hr
    split at h
    · exact hround.trans (ih h)
    · cases h
      exact hround

theorem quicFlushEgress_moves (h : quicFlushEgress ws c = some c') : FlushMoves c c' := by
  unfold quicFlushEgress at h
  split at h
  · exact (quicFlushLoop_moves h).head FlushMove.unblock
  · cases h
    exact ReflTransGen.refl

/-- A flush pass neither adds nor removes entries, and drops nothing. -/
theorem FlushMoves.keeps (h : FlushMoves c c') :
    c'.sendBufs.map QuicSendBuf.id = c.sendBufs.map QuicSendBuf.id ∧
      ∀ id, .drop id ∈ c'.log → .drop id ∈ c.log := by
  induction h with
  | refl => exact ⟨rfl, fun _ hd => hd⟩
  | tail _ hm ih =>
    obtain ⟨hids, hdrop⟩ := ih
    cases hm with
    | unblock =>
      refine ⟨?_, hdrop⟩
      rw [List.map_map]
      exact hids
    | offer hsb hp => exact ⟨hids, fun id hd => hdrop id (by simpa [QuicEgress.report] using hd)⟩
    | accept fs hsb hn =>
      refine ⟨?_, fun id hd => hdrop id (by simpa using hd)⟩
      rw [← hids]
      exact map_set_key hsb rfl
    | block hsb =>
      refine ⟨?_, hdrop⟩
      rw [← hids]
      exact map_set_key hsb rfl
    | stop => exact ⟨hids, hdrop⟩

/-- There is an entry for the stream, or room for one. -/
def HasSlot (c : QuicEgress) (id : Int) : Prop :=
  (∃ sb ∈ c.sendBufs, sb.id = id) ∨ c.sendBufs.length < sendBufsMax

instance (c : QuicEgress) (id : Int) : Decidable (HasSlot c id) := inferInstanceAs (Decidable (_ ∨ _))

/-- A stream that has a slot, or room for one, is not turned away. -/
theorem quicFindOrAddSendBuf_ne_none {bufs : List QuicSendBuf} {id : Int} (hslot : HasSlot c id) :
    quicFindOrAddSendBuf c.sendBufs id ≠ (none, bufs) := by
  intro h
  unfold quicFindOrAddSendBuf at h
  split at h
  · cases h
  · next hnone =>
      split at h
      · next hfull =>
          rcases hslot with ⟨sb, hsb, hid⟩ | hroom
          · exact absurd hid (by simpa using List.findIdx?_eq_none_iff.mp hnone sb hsb)
          · exact absurd hroom (Nat.not_lt.mpr hfull)
      · cases h

theorem quicStreamSend_moves {id : Int} {data : Str8} {fin : Bool} (hslot : HasSlot c id)
    (h : quicStreamSend c id data fin ws = some c') : EgressMoves c c' := by
  have hopen := quicOpenStream_moves c id
  unfold quicStreamSend at h
  unfold quicOpenStream at hopen
  cases hfind : quicFindOrAddSendBuf c.sendBufs id with
  | mk found bufs =>
    rw [hfind] at h hopen
    cases found with
    | none => exact absurd hfind (quicFindOrAddSendBuf_ne_none hslot)
    | some i =>
      obtain ⟨⟨sb, hsb, rfl⟩, -⟩ := quicFindOrAddSendBuf_some hfind
      have hsend := EgressMove.send (c := { c with sendBufs := bufs }) data fin hsb
      dsimp only at h
      rw [List.modify_eq_set_getElem?, hsb] at h
      exact (hopen.tail hsend).trans (quicFlushEgress_moves h).egress

/-- The condition on a send: its stream has an entry, or fewer than 32 streams have one. -/
def SlotReady (c : QuicEgress) : EgressOp → Prop
  | .send id _ _ _ => HasSlot c id
  | _ => True

/-- The calls do nothing but moves, as long as sends find an entry. -/
theorem egressStep_moves {op : EgressOp} (hok : SlotReady c op) (h : egressStep c op = some c') :
    EgressMoves c c' := by
  cases op with
  | openStream id =>
    cases h
    exact quicOpenStream_moves c id
  | send id data fin ws => exact quicStreamSend_moves hok h
  | flush ws => exact (quicFlushEgress_moves h).egress
  | close id =>
    cases h
    exact ReflTransGen.single (EgressMove.remove id)
  | reset id ws => exact (quicFlushEgress_moves h).egress.head (EgressMove.remove id)
  | stop =>
    cases h
    exact ReflTransGen.single (EgressMove.flush FlushMove.stop)

/-! ## One stream -/

/-- The entry of a stream. -/
def QuicEgress.entry (c : QuicEgress) (id : Int) : Option QuicSendBuf := lookup QuicSendBuf.id id c.sendBufs

/-- The bytes in an entry, and those of them that were taken. -/
def queued (e : Option QuicSendBuf) : Str8 := (e.map QuicSendBuf.data).getD []

def taken (e : Option QuicSendBuf) : Str8 := (e.map (fun sb => sb.data.take sb.off)).getD []

/-- What the log says about the stream `id` agrees with its entry `e`. A stream that is not gone has all its
    bytes in the entry; one that is gone may have been opened again, but holds nothing. -/
structure StreamOk (log : List EgressEvent) (id : Int) (e : Option QuicSendBuf) : Prop where
  inOrder : Sane id log → acceptedOf id log <+: sentOf id log
  fresh : .gone id ∉ log → sentOf id log = queued e ∧ acceptedOf id log = taken e
  spent : Sane id log → .gone id ∈ log → ∀ sb, e = some sb → sb.data = [] ∧ sb.fin = false
  entry : ∀ sb, e = some sb → sb.off ≤ sb.data.length ∧ (sb.fin = true → ∃ d, .send id d true ∈ log)

/-- The event neither sends nor takes bytes of the stream, and does not end it. -/
def EgressEvent.about (id : Int) : EgressEvent → Bool
  | .send j _ _ => j == id
  | .accept j _ => j == id
  | .gone j => j == id
  | _ => false

section

variable {log : List EgressEvent} {id : Int} {e : Option QuicSendBuf} {ev : EgressEvent}

theorem sentOf_snoc : sentOf id (log ++ [ev]) = sentOf id log ++ sentOf id [ev] := List.flatMap_append

theorem acceptedOf_snoc : acceptedOf id (log ++ [ev]) = acceptedOf id log ++ acceptedOf id [ev] :=
  List.flatMap_append

@[simp] theorem sentOf_send (d : Str8) (f : Bool) : sentOf id [.send id d f] = d := by simp [sentOf]

@[simp] theorem acceptedOf_send (j : Int) (d : Str8) (f : Bool) : acceptedOf id [.send j d f] = [] := rfl

@[simp] theorem sentOf_accept (j : Int) (d : Str8) : sentOf id [.accept j d] = [] := rfl

@[simp] theorem acceptedOf_accept (d : Str8) : acceptedOf id [.accept id d] = d := by simp [acceptedOf]

@[simp] theorem sentOf_gone (j : Int) : sentOf id [.gone j] = [] := rfl

@[simp] theorem acceptedOf_gone (j : Int) : acceptedOf id [.gone j] = [] := rfl

/-- An event about something else changes nothing for the stream. -/
theorem about_false (h : ev.about id = false) :
    sentOf id [ev] = [] ∧ acceptedOf id [ev] = [] ∧ ev ≠ .gone id := by
  cases ev with
  | send j d f =>
    have hne : j ≠ id := by simpa [EgressEvent.about] using h
    exact ⟨by simp [sentOf, hne], rfl, EgressEvent.noConfusion⟩
  | accept j d =>
    have hne : j ≠ id := by simpa [EgressEvent.about] using h
    exact ⟨rfl, by simp [acceptedOf, hne], EgressEvent.noConfusion⟩
  | gone j =>
    refine ⟨rfl, rfl, ?_⟩
    rintro ⟨⟩
    simp [EgressEvent.about] at h
  | drop j | offer j d f => exact ⟨rfl, rfl, EgressEvent.noConfusion⟩

theorem Sane.left {log' : List EgressEvent} (h : Sane id (log ++ log')) : Sane id log := QuietAfter.left h

/-- Nobody sends on a stream that is gone. -/
theorem Sane.not_gone {d : Str8} {f : Bool} (h : Sane id (log ++ [.send id d f])) : .gone id ∉ log := by
  intro hmem
  have hgone := QuietAfter.last h (by simp [EgressEvent.isSend]) _ hmem
  simp [EgressEvent.isGone] at hgone

theorem StreamOk.other (h : StreamOk log id e) (hev : ev.about id = false) : StreamOk (log ++ [ev]) id e := by
  obtain ⟨hsent, hacc, hne⟩ := about_false hev
  have hgone : .gone id ∈ log ++ [ev] ↔ .gone id ∈ log := by simp [hne.symm]
  refine ⟨?_, ?_, ?_, ?_⟩
  · intro hs
    rw [sentOf_snoc, acceptedOf_snoc, hsent, hacc, List.append_nil, List.append_nil]
    exact h.inOrder hs.left
  · intro hng
    rw [sentOf_snoc, acceptedOf_snoc, hsent, hacc, List.append_nil, List.append_nil]
    exact h.fresh (hgone.not.mp hng)
  · intro hs hg
    exact h.spent hs.left (hgone.mp hg)
  · intro sb hsb
    obtain ⟨hoff, hfin⟩ := h.entry sb hsb
    refine ⟨hoff, fun hf => ?_⟩
    obtain ⟨d, hd⟩ := hfin hf
    exact ⟨d, List.mem_append_left _ hd⟩

theorem StreamOk.add (h : StreamOk log id none) : StreamOk log id (some { id := id }) := by
  refine ⟨h.inOrder, h.fresh, ?_, ?_⟩
  · rintro - - sb ⟨⟩
    exact ⟨rfl, rfl⟩
  · rintro sb ⟨⟩
    exact ⟨le_rfl, fun hf => by cases hf⟩

theorem StreamOk.send (h : StreamOk log id (some sb)) (d : Str8) (f : Bool) :
    StreamOk (log ++ [.send id d f]) id (some { sb with data := sb.data ++ d, fin := sb.fin || f }) := by
  obtain ⟨hoff, hfin⟩ := h.entry sb rfl
  have hgone : .gone id ∈ log ++ [.send id d f] ↔ .gone id ∈ log := by simp
  -- the new bytes follow those in the entry, and none of them is taken yet
  have hfresh : .gone id ∉ log → sentOf id (log ++ [.send id d f]) = sb.data ++ d ∧
      acceptedOf id (log ++ [.send id d f]) = (sb.data ++ d).take sb.off := by
    intro hng
    obtain ⟨hsent, hacc⟩ := h.fresh hng
    rw [sentOf_snoc, acceptedOf_snoc, hsent, hacc, sentOf_send, acceptedOf_send, List.append_nil,
      List.take_append_of_le_length hoff]
    exact ⟨rfl, rfl⟩
  refine ⟨?_, ?_, ?_, ?_⟩
  · intro hs
    obtain ⟨hsent, hacc⟩ := hfresh hs.not_gone
    rw [hsent, hacc]
    exact List.take_prefix _ _
  · intro hng
    exact hfresh (hgone.not.mp hng)
  · intro hs hg
    exact absurd (hgone.mp hg) hs.not_gone
  · rintro _ ⟨⟩
    refine ⟨?_, ?_⟩
    · dsimp only
      rw [List.length_append]
      omega
    · intro hf
      dsimp only at hf
      rcases Bool.or_eq_true_iff.mp hf with hf | rfl
      · obtain ⟨d', hd'⟩ := hfin hf
        exact ⟨d', List.mem_append_left _ hd'⟩
      · exact ⟨d, by simp⟩

theorem StreamOk.accept (h : StreamOk log id (some sb)) {n : Nat} (hn : n ≤ (sb.data.drop sb.off).length)
    (fs : Bool) :
    StreamOk (log ++ [.accept id ((sb.data.drop sb.off).take n)]) id
      (some { sb with off := sb.off + n, finSent := fs }) := by
  obtain ⟨hoff, hfin⟩ := h.entry sb rfl
  have hgone : .gone id ∈ log ++ [.accept id ((sb.data.drop sb.off).take n)] ↔ .gone id ∈ log := by simp
  have hfresh : .gone id ∉ log →
      sentOf id (log ++ [.accept id ((sb.data.drop sb.off).take n)]) = sb.data ∧
      acceptedOf id (log ++ [.accept id ((sb.data.drop sb.off).take n)]) = sb.data.take (sb.off + n) := by
    intro hng
    obtain ⟨hsent, hacc⟩ := h.fresh hng
    rw [sentOf_snoc, acceptedOf_snoc, hsent, hacc, sentOf_accept, acceptedOf_accept, List.append_nil,
      List.take_add]
    exact ⟨rfl, rfl⟩
  refine ⟨?_, ?_, ?_, ?_⟩
  · intro hs
    by_cases hg : .gone id ∈ log
    · -- there is nothing in the entry of a stream that is gone
      have hnil := (h.spent hs.left hg sb rfl).1
      rw [sentOf_snoc, acceptedOf_snoc, sentOf_accept, acceptedOf_accept, hnil, List.drop_nil, List.take_nil,
        List.append_nil, List.append_nil]
      exact h.inOrder hs.left
    · obtain ⟨hsent, hacc⟩ := hfresh hg
      rw [hsent, hacc]
      exact List.take_prefix _ _
  · intro hng
    exact hfresh (hgone.not.mp hng)
  · rintro hs hg _ ⟨⟩
    exact h.spent hs.left (hgone.mp hg) sb rfl
  · rintro _ ⟨⟩
    refine ⟨?_, ?_⟩
    · rw [List.length_drop] at hn
      dsimp only
      omega
    · intro hf
      obtain ⟨d', hd'⟩ := hfin hf
      exact ⟨d', List.mem_append_left _ hd'⟩

theorem StreamOk.gone (h : StreamOk log id e) : StreamOk (log ++ [.gone id]) id none := by
  refine ⟨?_, ?_, ?_, ?_⟩
  · intro hs
    rw [sentOf_snoc, acceptedOf_snoc, sentOf_gone, acceptedOf_gone, List.append_nil, List.append_nil]
    exact h.inOrder hs.left
  · intro hng
    exact absurd (List.mem_append_right log (List.mem_singleton.mpr rfl)) hng
  · intro _ _ sb hsb
    cases hsb
  · intro sb hsb
    cases hsb

theorem StreamOk.blocked (h : StreamOk log id e) (b : Bool) :
    StreamOk log id (e.map (fun sb => { sb with blocked := b })) := by
  cases e with
  | none => exact h
  | some sb =>
    refine ⟨h.inOrder, h.fresh, ?_, ?_⟩
    · rintro hs hg _ ⟨⟩
      exact h.spent hs hg sb rfl
    · rintro _ ⟨⟩
      exact h.entry sb rfl

theorem StreamOk.offer (h : StreamOk log id (some sb)) (hp : sb.pending = true) :
    OfferOk log (.offer id (sb.data.drop sb.off) (sb.fin && !sb.finSent)) := by
  refine ⟨?_, ?_⟩
  · intro hf
    exact (h.entry sb rfl).2 (Bool.and_eq_true_iff.mp hf).1
  · intro hs
    by_cases hg : .gone id ∈ log
    · obtain ⟨hdata, hfin⟩ := h.spent hs hg sb rfl
      rw [QuicSendBuf.pending, hdata, hfin] at hp
      simp at hp
    · obtain ⟨hsent, hacc⟩ := h.fresh hg
      rw [hsent, hacc]
      exact List.take_append_drop _ _

end

/-! ## All streams -/

structure EgressInv (c : QuicEgress) : Prop where
  ids : (c.sendBufs.map QuicSendBuf.id).Nodup
  streams : ∀ id, StreamOk c.log id (c.entry id)
  offers : Each OfferOk c.log

theorem EgressInv.init : EgressInv {} := by
  refine ⟨List.nodup_nil, ?_, Each.nil⟩
  intro id
  refine ⟨fun _ => List.prefix_rfl, fun _ => ⟨rfl, rfl⟩, fun _ hg => (by cases hg),
    fun sb hsb => (by cases hsb)⟩

theorem EgressInv.entry_eq (h : EgressInv c) (hsb : c.sendBufs[i]? = some sb) : c.entry sb.id = some sb :=
  (lookup_eq_some h.ids).mpr ⟨List.mem_of_getElem? hsb, rfl⟩

/-- Writing the entry of one stream, with an event about that stream. -/
theorem EgressInv.write (h : EgressInv c) {sb' : QuicSendBuf} {ev : EgressEvent}
    (hsb : c.sendBufs[i]? = some sb) (hid : sb'.id = sb.id) (hev : ∀ id, id ≠ sb.id → ev.about id = false)
    (hoffer : OfferOk c.log ev) (hok : StreamOk (c.log ++ [ev]) sb.id (some sb')) :
    EgressInv { c with sendBufs := c.sendBufs.set i sb', log := c.log ++ [ev] } := by
  refine ⟨(map_set_key hsb hid).symm ▸ h.ids, ?_, h.offers.snoc hoffer⟩
  intro id
  rw [QuicEgress.entry, lookup_set h.ids hsb hid]
  split
  · next heq => exact heq ▸ hok
  · next hne => exact (h.streams id).other (hev id hne)

theorem FlushMove.inv (hm : FlushMove c c') (h : EgressInv c) : EgressInv c' := by
  cases hm with
  | unblock =>
    refine ⟨?_, ?_, h.offers⟩
    · rw [List.map_map]
      exact h.ids
    · intro id
      have hid : ∀ sb : QuicSendBuf, QuicSendBuf.id { sb with blocked := false } = sb.id := fun _ => rfl
      rw [QuicEgress.entry, lookup_map hid]
      exact (h.streams id).blocked false
  | @offer i sb hsb hp =>
    have hold := h.streams sb.id
    rw [h.entry_eq hsb] at hold
    exact ⟨h.ids, fun id => (h.streams id).other rfl, h.offers.snoc (hold.offer hp)⟩
  | @accept i sb n fs hsb hn =>
    have hold := h.streams sb.id
    rw [h.entry_eq hsb] at hold
    refine h.write hsb rfl ?_ trivial (hold.accept hn fs)
    intro id hne
    simpa [EgressEvent.about] using hne.symm
  | @block i sb hsb =>
    have hid : QuicSendBuf.id { sb with blocked := true } = sb.id := rfl
    refine ⟨(map_set_key hsb hid).symm ▸ h.ids, ?_, h.offers⟩
    intro id
    rw [QuicEgress.entry, lookup_set h.ids hsb hid]
    split
    · next heq =>
        have hold := h.streams sb.id
        rw [h.entry_eq hsb] at hold
        subst heq
        exact hold.blocked true
    · exact h.streams id
  | stop => exact ⟨h.ids, h.streams, h.offers⟩

theorem EgressMove.inv (hm : EgressMove c c') (h : EgressInv c) : EgressInv c' := by
  cases hm with
  | @add id hnew =>
    refine ⟨nodup_append_new h.ids hnew, ?_, h.offers⟩
    intro j
    rw [QuicEgress.entry, lookup_append_new hnew]
    split
    · next heq =>
        have hold := h.streams j
        rw [QuicEgress.entry, heq, lookup_eq_none.mpr hnew] at hold
        exact heq ▸ hold.add
    · exact h.streams j
  | @send i sb data fin hsb =>
    have hold := h.streams sb.id
    rw [h.entry_eq hsb] at hold
    refine h.write hsb rfl ?_ trivial (hold.send data fin)
    intro id hne
    simpa [EgressEvent.about] using hne.symm
  | remove id =>
    refine ⟨nodup_swapRemove h.ids, ?_, h.offers.snoc trivial⟩
    intro j
    rw [QuicEgress.entry, quicStreamClose, quicRemoveSendBuf, lookup_swapRemove h.ids]
    split
    · next heq => exact heq ▸ (h.streams j).gone
    · next hne => exact (h.streams j).other (by simpa [EgressEvent.about] using fun heq => hne heq.symm)
  | flush hm => exact hm.inv h

theorem EgressMoves.inv (hm : EgressMoves c c') (h : EgressInv c) : EgressInv c' := by
  induction hm with
  | refl => exact h
  | tail _ hlast ih => exact hlast.inv ih

/-- What faithful egress is: for each stream the bytes taken are a prefix of the bytes sent, every offer is all
    that remains, with FIN only where it was asked for, and giving up another entry does not touch a stream. -/
structure EgressFaithful (c : QuicEgress) : Prop where
  inOrder : ∀ id, Sane id c.log → acceptedOf id c.log <+: sentOf id c.log
  offers : Each OfferOk c.log
  undisturbed : ∀ id r, id ≠ r →
    lookup QuicSendBuf.id id (quicRemoveSendBuf c.sendBufs r) = lookup QuicSendBuf.id id c.sendBufs

/-- Egress is faithful in every state reached by calls in which each send finds or gets an entry. -/
theorem quic_egress_faithful {c : QuicEgress} (h : Reach (· = {}) egressStep SlotReady c) :
    EgressFaithful c := by
  have hI : EgressInv c := by
    refine h.invariant (I := EgressInv) ?_ ?_
    · rintro s rfl
      exact EgressInv.init
    · intro s op s' hI hok hs
      exact EgressMoves.inv (egressStep_moves hok hs) hI
  refine ⟨fun id => (hI.streams id).inOrder, hI.offers, ?_⟩
  intro id r hne
  rw [quicRemoveSendBuf, lookup_swapRemove hI.ids, if_neg hne]

/-- ngtcp2 takes one byte of two and is then blocked. -/
theorem quic_egress_faithful_sample : ∃ c, egressStep {} (.send 0 [1, 2] true [.more 1, .stuck]) = some c ∧
    EgressFaithful c :=
  ⟨_, rfl, quic_egress_faithful (.next (e := .send 0 [1, 2] true [.more 1, .stuck]) (.start rfl)
    (.inr (by decide)) rfl)⟩

/-- Thirty-two streams hold all entries. A send on another stream is dropped, and after one of the others is
    closed the next send on it goes out. -/
def fullTableRun : List EgressOp :=
  (List.range 32).map (fun i => .openStream i) ++
    [.send 100 [97] false [], .close 0, .send 100 [98] false [.wrote 1 true]]

/-- What goes out is not what was sent first. -/
theorem quic_egress_drops : ∃ c, fullTableRun.foldlM egressStep {} = some c ∧ ¬ EgressFaithful c := by
  have hrun : (fullTableRun.foldlM egressStep {}).map (fun c =>
      (decide (Sane 100 c.log), acceptedOf 100 c.log, sentOf 100 c.log)) = some (true, [98], [97, 98]) := by
    decide +kernel
  obtain ⟨c, hc, heq⟩ := Option.map_eq_some_iff.mp hrun
  refine ⟨c, hc, ?_⟩
  intro hf
  simp only [Prod.mk.injEq, decide_eq_true_eq] at heq
  have hprefix := hf.inOrder 100 heq.1
  rw [heq.2.1, heq.2.2] at hprefix
  exact absurd hprefix (by decide)

end HolyTls

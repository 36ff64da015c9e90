import HolyTls.Net.QuicEgress
import HolyTls.Pool.State

/-!
# `Pool.H3Slots` — send slots of a pooled HTTP/3 connection (`core/pool.c`)

What `pool_h3_submit`, `pool_h3_finish`, the deadline timer and the stream callbacks do to one connection, as
far as its streams and their entries in `send_bufs` go. The pool counts a request as in flight until its
response is complete; the entry of its stream lasts until the stream is closed or reset, which may be much
later. The pool's limit is on the former, the table's on the latter.
-/

namespace HolyTls

open Runs Slots

/-! ## The source -/

/-- `PoolConn` and `H3Conn`, as far as streams go: `active` are the streams of the requests in flight. -/
structure H3Slots where
  egress : QuicEgress := {}
  controlOpened : Bool := false
  ctrlId : Int := -1
  qencId : Int := -1
  qdecId : Int := -1
  active : List Int := []
  inflight : Nat := 0
  deriving DecidableEq

/-- What a submit meets and sends: the streams ngtcp2 opens (`none` where it refuses), the profile's
    `send_priority_update`, the bytes for the control stream and the PRIORITY_UPDATE, the HEADERS frame (`none`
    when QPACK fails) and the DATA frame, and what ngtcp2 answers in the flush of each send. -/
structure H3SlotSubmit where
  bidi : Option Int
  ctrl : Option Int
  qenc : Option Int
  qdec : Option Int
  priority : Bool
  control : Str8
  update : Str8
  headers : Option Str8
  body : Option Str8
  ws : Nat → List Writev

/-- `quic_stream_send` on a stream of the connection. -/
def H3Slots.send (s : H3Slots) (id : Int) (data : Str8) (fin : Bool) (ws : List Writev) : Option H3Slots :=
  (quicStreamSend s.egress id data fin ws).map (fun e => { s with egress := e })

/-- `quic_open_bidi_stream` and `quic_open_uni_stream`. -/
def H3Slots.openStream (s : H3Slots) (id : Int) : H3Slots := { s with egress := quicOpenStream s.egress id }

/-- The control and QPACK streams, opened with the first request. A refusal gives the request up; streams opened
    before it stay open. The flag says whether the submit goes on. -/
def h3OpenControl (s : H3Slots) (a : H3SlotSubmit) : Option (H3Slots × Bool) :=
  match a.ctrl with
  | none => some (s, false)
  | some ctrl =>
    let s := { s.openStream ctrl with ctrlId := ctrl }
    match a.qenc with
    | none => some (s, false)
    | some qenc =>
      let s := { s.openStream qenc with qencId := qenc }
      match a.qdec with
      | none => some (s, false)
      | some qdec => do
          let s := { s.openStream qdec with qdecId := qdec }
          let s ← s.send ctrl a.control false (a.ws 0)
          let s ← s.send qenc [2] false (a.ws 1)
          let s ← s.send qdec [3] false (a.ws 2)
          pure ({ s with controlOpened := true }, true)

/-- The control streams, or the PRIORITY_UPDATE of a later request. -/
def h3Control (s : H3Slots) (a : H3SlotSubmit) : Option (H3Slots × Bool) :=
  if s.controlOpened = false then h3OpenControl s a
  else if a.priority then (s.send s.ctrlId a.update false (a.ws 0)).map (·, true)
  else some (s, true)

/-- The DATA frame, if the request has a body. -/
def H3Slots.sendBody (s : H3Slots) (id : Int) (body : Option Str8) (ws : List Writev) : Option H3Slots :=
  match body with
  | none => some s
  | some body => s.send id body true ws

/-- The HEADERS frame and the DATA frame; `pool_after_submit`. -/
def h3SendRequest (s : H3Slots) (a : H3SlotSubmit) (id : Int) : Option H3Slots :=
  match a.headers with
  | none => some s
  | some headers => do
      let s ← s.send id headers a.body.isNone (a.ws 3)
      let s ← s.sendBody id a.body (a.ws 4)
      pure { s with active := s.active ++ [id], inflight := s.inflight + 1 }

/-- `pool_h3_submit`. -/
def h3SlotsSubmit (s : H3Slots) (a : H3SlotSubmit) : Option H3Slots :=
  match a.bidi with
  | none => some s
  | some id => do
      let (s, goesOn) ← h3Control (s.openStream id) a
      if goesOn then h3SendRequest s a id else pure s

/-- `pool_h3_finish`, for the request whose stream is `id`. -/
def h3SlotsFinish (s : H3Slots) (id : Int) : H3Slots :=
  if id ∈ s.active then { s with active := s.active.erase id, inflight := s.inflight - 1 } else s

/-- The deadline of a request in flight: its stream is reset. -/
def h3SlotsTimeout (s : H3Slots) (id : Int) (ws : List Writev) : Option H3Slots :=
  if id ∈ s.active then
    (quicResetStream s.egress id ws).map (fun e => h3SlotsFinish { s with egress := e } id)
  else some s

/-- `quic_stream_close_cb`: `pool_h3_on_stream_close`, and then the entry goes. -/
def h3SlotsClose (s : H3Slots) (id : Int) : H3Slots :=
  { h3SlotsFinish s id with egress := quicStreamClose s.egress id }

inductive H3SlotEvent
  | submit (a : H3SlotSubmit)
  | finish (id : Int)
  | timeout (id : Int) (ws : List Writev)
  | close (id : Int)
  | flush (ws : List Writev)

/-- One event. The pool submits while fewer than 16 requests are in flight. -/
def h3SlotsStep (s : H3Slots) : H3SlotEvent → Option H3Slots
  | .submit a => if s.inflight < poolH3MaxConcurrent then h3SlotsSubmit s a else none
  | .finish id => some (h3SlotsFinish s id)
  | .timeout id ws => h3SlotsTimeout s id ws
  | .close id => some (h3SlotsClose s id)
  | .flush ws => (quicFlushEgress ws s.egress).map (fun e => { s with egress := e })

/-! ## Room for the streams of a submit -/

/-- The streams that have an entry. -/
def QuicEgress.ids (c : QuicEgress) : Finset Int := (c.sendBufs.map QuicSendBuf.id).toFinset

/-- The streams a submit opens or sends on. -/
def H3SlotSubmit.streams (a : H3SlotSubmit) (s : H3Slots) : Finset Int :=
  let control :=
    if s.controlOpened = false then a.ctrl.toList ++ a.qenc.toList ++ a.qdec.toList
    else if a.priority then [s.ctrlId] else []
  (a.bidi.toList ++ control).toFinset

/-- The condition on a submit: the streams that have an entry, and those the submit needs, are at most 32. -/
def SlotsSuffice (s : H3Slots) : H3SlotEvent → Prop
  | .submit a => (s.egress.ids ∪ a.streams s).card ≤ sendBufsMax
  | _ => True

instance (s : H3Slots) (e : H3SlotEvent) : Decidable (SlotsSuffice s e) := by
  cases e <;> unfold SlotsSuffice <;> infer_instance

/-- No send was dropped, and no two entries are for one stream. -/
structure NoDrop (c : QuicEgress) : Prop where
  ids : (c.sendBufs.map QuicSendBuf.id).Nodup
  drops : ∀ id, .drop id ∉ c.log

/-- There is room for the entries of the streams `S`. -/
structure SlotsFit (S : Finset Int) (c : QuicEgress) : Prop extends NoDrop c where
  room : (c.ids ∪ S).card ≤ sendBufsMax

section

variable {S : Finset Int} {c c' : QuicEgress} {id : Int}

theorem NoDrop.flush (h : NoDrop c) {ws : List Writev} (hf : quicFlushEgress ws c = some c') :
    NoDrop c' ∧ c'.ids = c.ids := by
  obtain ⟨hids, hdrop⟩ := (quicFlushEgress_moves hf).keeps
  refine ⟨⟨hids ▸ h.ids, fun id hd => h.drops id (hdrop id hd)⟩, ?_⟩
  rw [QuicEgress.ids, hids, QuicEgress.ids]

/-- A stream that has no entry although there is room for its entry finds a free one. -/
theorem SlotsFit.hasSlot (h : SlotsFit S c) (hid : id ∈ S) : HasSlot c id := by
  by_cases hin : ∃ sb ∈ c.sendBufs, sb.id = id
  · exact .inl hin
  · right
    have hnot : id ∉ c.ids := by
      intro hmem
      rw [QuicEgress.ids, List.mem_toFinset, List.mem_map] at hmem
      exact hin hmem
    have hlt : c.ids.card < (c.ids ∪ S).card := by
      apply Finset.card_lt_card
      refine ⟨Finset.subset_union_left, ?_⟩
      intro hsub
      exact hnot (hsub (Finset.mem_union_right _ hid))
    rw [QuicEgress.ids, List.toFinset_card_of_nodup h.ids, List.length_map] at hlt
    exact lt_of_lt_of_le hlt h.room

theorem SlotsFit.openStream (h : SlotsFit S c) (hid : id ∈ S) : SlotsFit S (quicOpenStream c id) := by
  unfold quicOpenStream
  cases hfind : quicFindOrAddSendBuf c.sendBufs id with
  | mk found bufs =>
    cases found with
    | none => exact absurd hfind (quicFindOrAddSendBuf_ne_none (h.hasSlot hid))
    | some i =>
      rcases (quicFindOrAddSendBuf_some hfind).2 with rfl | ⟨hnew, rfl⟩
      · exact h
      · refine ⟨⟨nodup_append_new h.ids hnew, h.drops⟩, ?_⟩
        -- the new entry is for a stream that was counted already
        have hids : QuicEgress.ids { c with sendBufs := c.sendBufs ++ [{ id := id }] } ∪ S = c.ids ∪ S := by
          ext j
          simp only [QuicEgress.ids, List.map_append, List.map_singleton, List.toFinset_append,
            Finset.mem_union, List.mem_toFinset, List.mem_singleton]
          constructor
          · rintro ((hj | rfl) | hj)
            · exact .inl hj
            · exact .inr hid
            · exact .inr hj
          · rintro (hj | hj)
            · exact .inl (.inl hj)
            · exact .inr hj
        rw [hids]
        exact h.room

/-- A send on a stream that there is room for is queued. -/
theorem SlotsFit.send (h : SlotsFit S c) (hid : id ∈ S) {data : Str8} {fin : Bool} {ws : List Writev}
    (hs : quicStreamSend c id data fin ws = some c') : SlotsFit S c' := by
  have hopen := h.openStream hid
  unfold quicStreamSend at hs
  unfold quicOpenStream at hopen
  cases hfind : quicFindOrAddSendBuf c.sendBufs id with
  | mk found bufs =>
    rw [hfind] at hs hopen
    cases found with
    | none => exact absurd hfind (quicFindOrAddSendBuf_ne_none (h.hasSlot hid))
    | some i =>
      obtain ⟨⟨sb, hsb, rfl⟩, -⟩ := quicFindOrAddSendBuf_some hfind
      dsimp only at hs
      rw [List.modify_eq_set_getElem?, hsb] at hs
      have hkey : (bufs.set i { sb with data := sb.data ++ data, fin := sb.fin || fin }).map QuicSendBuf.id =
          bufs.map QuicSendBuf.id := map_set_key hsb rfl
      have hq : NoDrop { c.report (.send sb.id data fin) with
          sendBufs := bufs.set i { sb with data := sb.data ++ data, fin := sb.fin || fin } } := by
        refine ⟨hkey.symm ▸ hopen.ids, ?_⟩
        intro j hj
        exact h.drops j (by simpa [QuicEgress.report] using hj)
      obtain ⟨hc', hids⟩ := hq.flush hs
      refine ⟨hc', ?_⟩
      rw [hids, QuicEgress.ids, hkey]
      exact hopen.room

end

/-! ## The events -/

section

variable {S : Finset Int} {s s' : H3Slots} {a : H3SlotSubmit} {id : Int}

theorem H3Slots.send_fits (h : SlotsFit S s.egress) (hid : id ∈ S) {data : Str8} {fin : Bool} {ws : List Writev}
    (hs : s.send id data fin ws = some s') : SlotsFit S s'.egress := by
  obtain ⟨e, he, rfl⟩ := Option.map_eq_some_iff.mp hs
  exact h.send hid he

theorem h3OpenControl_fits (h : SlotsFit S s.egress) (hctrl : ∀ i ∈ a.ctrl, i ∈ S) (hqenc : ∀ i ∈ a.qenc, i ∈ S)
    (hqdec : ∀ i ∈ a.qdec, i ∈ S) {r : H3Slots × Bool} (hr : h3OpenControl s a = some r) :
    SlotsFit S r.1.egress := by
  unfold h3OpenControl at hr
  cases hc : a.ctrl with
  | none =>
    rw [hc] at hr
    cases hr
    exact h
  | some ctrl =>
    rw [hc] at hr
    have h₁ := h.openStream (hctrl ctrl hc)
    cases he : a.qenc with
    | none =>
      rw [he] at hr
      cases hr
      exact h₁
    | some qenc =>
      rw [he] at hr
      have h₂ := h₁.openStream (hqenc qenc he)
      cases hd : a.qdec with
      | none =>
        rw [hd] at hr
        cases hr
        exact h₂
      | some qdec =>
        rw [hd] at hr
        have h₃ := h₂.openStream (hqdec qdec hd)
        obtain ⟨s₁, hs₁, hr⟩ := Option.bind_eq_some_iff.mp hr
        obtain ⟨s₂, hs₂, hr⟩ := Option.bind_eq_some_iff.mp hr
        obtain ⟨s₃, hs₃, hr⟩ := Option.bind_eq_some_iff.mp hr
        cases hr
        have h₄ := H3Slots.send_fits h₃ (hctrl ctrl hc) hs₁
        have h₅ := H3Slots.send_fits h₄ (hqenc qenc he) hs₂
        have h₆ := H3Slots.send_fits h₅ (hqdec qdec hd) hs₃
        exact h₆

theorem h3SendRequest_fits (h : SlotsFit S s.egress) (hid : id ∈ S) (hs : h3SendRequest s a id = some s') :
    SlotsFit S s'.egress := by
  unfold h3SendRequest at hs
  cases hh : a.headers with
  | none =>
    rw [hh] at hs
    cases hs
    exact h
  | some headers =>
    rw [hh] at hs
    obtain ⟨s₁, hs₁, hs⟩ := Option.bind_eq_some_iff.mp hs
    obtain ⟨s₂, hs₂, hs⟩ := Option.bind_eq_some_iff.mp hs
    cases hs
    have h₁ := H3Slots.send_fits h hid hs₁
    cases hb : a.body with
    | none =>
      rw [hb] at hs₂
      cases hs₂
      exact h₁
    | some body =>
      rw [hb] at hs₂
      have h₂ := H3Slots.send_fits h₁ hid hs₂
      exact h₂

/-- A submit whose streams there is room for drops nothing. -/
theorem h3SlotsSubmit_fits (h : SlotsFit (a.streams s) s.egress) (hs : h3SlotsSubmit s a = some s') :
    SlotsFit (a.streams s) s'.egress := by
  unfold h3SlotsSubmit at hs
  cases hb : a.bidi with
  | none =>
    rw [hb] at hs
    cases hs
    exact h
  | some id =>
    rw [hb] at hs
    obtain ⟨⟨s₁, goesOn⟩, hs₁, hs⟩ := Option.bind_eq_some_iff.mp hs
    have hid : id ∈ a.streams s := by simp [H3SlotSubmit.streams, hb]
    have hopen : SlotsFit (a.streams s) (s.openStream id).egress := h.openStream hid
    have hctl : SlotsFit (a.streams s) s₁.egress := by
      have hopened : (s.openStream id).controlOpened = s.controlOpened := rfl
      unfold h3Control at hs₁
      rw [hopened] at hs₁
      split at hs₁
      · next hc =>
          -- the first request opens the control streams
          refine h3OpenControl_fits hopen ?_ ?_ ?_ hs₁ <;> intro i hi <;>
            simp [H3SlotSubmit.streams, hc, Option.mem_def.mp hi]
      · next hc =>
          split at hs₁
          · next hp =>
              obtain ⟨s₂, hs₂, heq⟩ := Option.map_eq_some_iff.mp hs₁
              cases heq
              exact H3Slots.send_fits hopen (by simp [H3SlotSubmit.streams, hc, hp, H3Slots.openStream]) hs₂
          · cases hs₁
            exact hopen
    dsimp only at hs
    split at hs
    · exact h3SendRequest_fits hctl hid hs
    · cases hs
      exact hctl

theorem h3SlotsFinish_egress (s : H3Slots) (id : Int) : (h3SlotsFinish s id).egress = s.egress := by
  unfold h3SlotsFinish
  split <;> rfl

theorem NoDrop.close {c : QuicEgress} (h : NoDrop c) (id : Int) : NoDrop (quicStreamClose c id) :=
  ⟨nodup_swapRemove h.ids, fun j hj => h.drops j (by simpa [quicStreamClose, QuicEgress.report] using hj)⟩

theorem h3SlotsStep_noDrop {e : H3SlotEvent} (h : NoDrop s.egress) (hok : SlotsSuffice s e)
    (hs : h3SlotsStep s e = some s') : NoDrop s'.egress := by
  cases e with
  | submit a =>
    rw [h3SlotsStep] at hs
    split at hs
    · exact (h3SlotsSubmit_fits ⟨h, hok⟩ hs).toNoDrop
    · cases hs
  | finish id =>
    cases hs
    rw [h3SlotsFinish_egress]
    exact h
  | timeout id ws =>
    rw [h3SlotsStep, h3SlotsTimeout] at hs
    split at hs
    · obtain ⟨c, hc, rfl⟩ := Option.map_eq_some_iff.mp hs
      rw [h3SlotsFinish_egress]
      exact ((h.close id).flush hc).1
    · cases hs
      exact h
  | close id =>
    cases hs
    exact h.close id
  | flush ws =>
    obtain ⟨c, hc, rfl⟩ := Option.map_eq_some_iff.mp hs
    exact (h.flush hc).1

end

/-- No send is dropped in a run where, at every submit, the streams that hold an entry and those that need one
    are together at most 32. -/
theorem pool_h3_slots_suffice {s : H3Slots} (h : Reach (· = {}) h3SlotsStep SlotsSuffice s) (id : Int) :
    .drop id ∉ s.egress.log := by
  have hI : NoDrop s.egress := by
    refine h.invariant (I := fun s => NoDrop s.egress) ?_ ?_
    · rintro s rfl
      exact ⟨List.nodup_nil, fun j hj => by cases hj⟩
    · intro s e s' hI hok hs
      exact h3SlotsStep_noDrop hI hok hs
  exact hI.drops id

/-- The `n`th request of a connection, without a body; every stream opens. -/
def sampleSubmit (n : Nat) : H3SlotSubmit :=
  { bidi := some (4 * n), ctrl := some 2, qenc := some 6, qdec := some 10, priority := true, control := [0],
    update := [1], headers := some [2], body := none, ws := fun _ => [] }

theorem pool_h3_slots_suffice_first :
    ∃ s, h3SlotsStep {} (.submit (sampleSubmit 0)) = some s ∧ s.inflight = 1 ∧ .drop 0 ∉ s.egress.log :=
  ⟨_, rfl, rfl, pool_h3_slots_suffice
    (.next (e := .submit (sampleSubmit 0)) (.start rfl) (by decide +kernel) rfl) 0⟩

/-- Twenty-nine requests one after the other, each answered before the next one starts, and none of whose streams
    is closed yet; then a thirtieth. -/
def lingeringRun : List H3SlotEvent :=
  (List.range 29).flatMap (fun (n : Nat) => [.submit (sampleSubmit n), .finish (4 * n)]) ++
    [.submit (sampleSubmit 29)]

/-- The request of the thirtieth is not sent, with nothing else in flight. -/
theorem pool_h3_slots_run_out :
    ∃ s, lingeringRun.foldlM h3SlotsStep {} = some s ∧ s.inflight = 1 ∧ .drop 116 ∈ s.egress.log := by
  have hrun : (lingeringRun.foldlM h3SlotsStep {}).map (fun s => (s.inflight, decide (.drop 116 ∈ s.egress.log))) =
      some (1, true) := by decide +kernel
  obtain ⟨s, hs, heq⟩ := Option.map_eq_some_iff.mp hrun
  simp only [Prod.mk.injEq, decide_eq_true_eq] at heq
  exact ⟨s, hs, heq⟩

end HolyTls

import HolyTls.H1.Answer

/-!
# `H1.Interim` — interim responses before the final one

A server may send any number of interim responses (`100 Continue`, `103 Early Hints`) before the answer. The
session parses **one** header block and reports whatever it finds there: `h1_begin_body` takes an interim status
for a response without a body. So the final response is reported exactly when nothing interim precedes it and
its header block fits the session's buffer (`h1_interim_iff`).
-/

namespace HolyTls

/-! ## Streams of responses -/

/-- An interim response: a header block with a status from 100 to 199 other than 101. -/
def IsInterim (phr : Phr) (i : Str8) : Prop :=
  ∃ minor status fields, phr.parseResponse i = .complete minor status i.length fields ∧
    100 ≤ status ∧ status < 200 ∧ status ≠ 101

/-- The bytes `y` behind a header block are the body, no more and no less; a body that ends with the connection
    needs the end of the connection. -/
def FramesExactly (phr : Phr) (hd : H1Head) (y : Str8) (eof : Bool) (body : Str8) : Prop :=
  match hd.framing with
  | .empty => y = [] ∧ body = []
  | .chunked  =>
    phr.decodeChunked y = (body, .complete) ∧ ∀ p, p <+: y → p ≠ y → (phr.decodeChunked p).2 = .incomplete
  | .length n => y.length = n ∧ body = y
  | .close => eof = true ∧ body = y

/-- `f` is one final response with the header block `hd` and the given body. -/
structure IsFinal (phr : Phr) (isHead eof : Bool) (f : Str8) (hd : H1Head) (body : Str8) : Prop where
  bytes : ∃ minor status consumed fields, phr.parseResponse f = .complete minor status consumed fields ∧
    hd = .ofParsed isHead minor status fields ∧ FramesExactly phr hd (f.drop consumed) eof body
  status : ¬ (100 ≤ hd.status ∧ hd.status < 200 ∧ hd.status ≠ 101)

/-- The session reports the response, once, and says that the connection can be reused only when all bytes
    have been received. -/
structure ReportsFinal (phr : Phr) (isHead eof : Bool) (chunks : List Str8) (hd : H1Head) (body : Str8) :
    Prop where
  reported : ∃ r, (h1Exchange phr isHead chunks eof).resps = [r] ∧ r.status = hd.status ∧
    r.headers = hd.headers ∧ r.body = body
  reuse : ∀ pre post, chunks = pre ++ post → ∀ r ∈ (h1Feed phr (h1SessionStart isHead) pre).resps,
    r.keepAlive = true → post.flatten = []

variable {phr : Phr} {isHead eof : Bool} {s : H1Session} {x : Str8} {ds : List Str8}

/-! ## A header block that does not fit -/

theorem HeadRoom.of_parsed (hc : phr.Contract) (h : phr.parseResponse x ≠ .incomplete) (ds : List Str8) :
    HeadRoom phr x ds := by
  induction ds generalizing x with
  | nil => trivial
  | cons d ds ih =>
    refine ⟨fun hp => absurd hp h, ih ?_⟩
    rw [hc.headFinal x d h]
    exact h

theorem HeadRoom.left {es : List Str8} (h : HeadRoom phr x (ds ++ es)) : HeadRoom phr x ds := by
  induction ds generalizing x with
  | nil => trivial
  | cons d ds ih => exact ⟨h.1, ih h.2⟩

theorem h1Feed_error (herr : s.state = .error) (ds : List Str8) :
    (h1Feed phr s ds).resps = [] ∧ (h1Feed phr s ds).sess.state = .error := by
  induction ds with
  | nil => exact ⟨rfl, herr⟩
  | cons d ds ih =>
    simp only [h1Feed, recv_error herr]
    exact ih

/-- A header block that outgrows the buffer ends the session without a response. -/
theorem SessionAt.overflow (hc : phr.Contract) (h : SessionAt phr isHead x s) (hroom : ¬ HeadRoom phr x ds) :
    (h1Feed phr s ds).resps = [] ∧ (h1Feed phr s ds).sess.state = .error := by
  induction ds generalizing x s with
  | nil => exact absurd trivial hroom
  | cons d ds ih =>
    have hp : phr.parseResponse x = .incomplete := by
      by_contra hp
      exact hroom (HeadRoom.of_parsed hc hp _)
    by_cases hfit : (x ++ d).length ≤ h1MaxHeaderRegion
    · have hrest : ¬ HeadRoom phr (x ++ d) ds := fun hr => hroom ⟨fun _ => hfit, hr⟩
      have hp' : phr.parseResponse (x ++ d) = .incomplete := by
        by_contra hp'
        exact hrest (HeadRoom.of_parsed hc hp' _)
      obtain ⟨hsess, hresp, -⟩ := h.recv (d := d) hc (fun _ => hfit)
      -- nothing comes of an unfinished header block
      have hnone : (h1SessionRecv phr s d).resp = none := by
        rw [hresp]
        simp only [newResp, h1Outcome, hp, hp', Option.isSome_none, Bool.false_eq_true, if_false]
      simp only [h1Feed, hnone]
      exact ih hsess hrest
    · have hcall : (h1SessionRecv phr s d).resp = none ∧ (h1SessionRecv phr s d).sess.state = .error := by
        unfold SessionAt at h
        rw [hp] at h
        subst h
        have hbig : (x ++ d).length > h1MaxHeaderRegion := Nat.not_le.mp hfit
        simp only [h1SessionRecv, if_pos hbig, and_self]
      simp only [h1Feed, hcall.1]
      exact h1Feed_error hcall.2 ds

theorem h1Exchange_overflow (hc : phr.Contract) (hroom : ¬ HeadRoom phr [] ds) :
    (h1Exchange phr isHead ds eof).resps = [] := by
  have hstart : SessionAt phr isHead [] (h1SessionStart isHead) := by
    unfold SessionAt
    rw [hc.headNil]
    rfl
  obtain ⟨hresps, hstate⟩ := hstart.overflow hc hroom
  unfold h1Exchange
  cases eof with
  | false => exact hresps
  | true =>
    rw [if_pos rfl, eof_other (.inr (by rw [hstate]; nofun))]
    simp only [hresps, Option.toList_none, List.append_nil]

/-! ## What is reported -/

/-- A stream that starts with an interim response is taken for that response. -/
theorem h1Outcome_interim (hc : phr.Contract) {i rest : Str8} (hi : IsInterim phr i) :
    ∃ r, (h1Outcome phr isHead (i ++ rest) eof).resp = some r ∧ 100 ≤ r.status ∧ r.status < 200 ∧
      r.status ≠ 101 := by
  obtain ⟨minor, status, fields, hparse, hlo, hhi, hne⟩ := hi
  have hempty : (H1Head.ofParsed isHead minor status fields).framing = .empty := by
    unfold H1Head.framing H1Head.ofParsed
    simp [hlo, hhi]
  refine ⟨(H1Head.ofParsed isHead minor status fields).response [], ?_, hlo, hhi, hne⟩
  unfold h1Outcome
  rw [hc.headFinal i rest (by rw [hparse]; nofun), hparse]
  simp only [bodyOutcome, hempty]

theorem h1Outcome_final_response {f : Str8} {hd : H1Head} {body : Str8}
    (hf : IsFinal phr isHead eof f hd body) : (h1Outcome phr isHead f eof).resp = some (hd.response body) := by
  obtain ⟨minor, status, consumed, fields, hparse, rfl, hframe⟩ := hf.bytes
  unfold h1Outcome
  rw [hparse]
  unfold FramesExactly at hframe
  simp only [bodyOutcome]
  cases hfr : (H1Head.ofParsed isHead minor status fields).framing with
  | empty =>
    simp only [hfr] at hframe
    rw [hframe.2]
  | chunked =>
    simp only [hfr] at hframe
    simp only [hframe.1]
  | length n =>
    simp only [hfr] at hframe
    simp only [hframe.1, hframe.2, Nat.le_refl, if_true]
    rw [List.take_of_length_le hframe.1.le]
  | close =>
    simp only [hfr] at hframe
    simp only [hframe.1, hframe.2, if_true]

/-- A response that leaves the connection reusable comes of no proper part of its bytes. -/
theorem IsFinal.all_bytes (hc : phr.Contract) {f p : Str8} {hd : H1Head} {body : Str8}
    (hf : IsFinal phr isHead eof f hd body) (hp : p <+: f) {r : H1Response}
    (hr : (h1Outcome phr isHead p false).resp = some r) : p = f := by
  obtain ⟨minor, status, consumed, fields, hparse, rfl, hframe⟩ := hf.bytes
  obtain ⟨q, rfl⟩ := hp
  -- the header block is all there, and it is the one of the whole response
  have hhead : phr.parseResponse p ≠ .incomplete := by
    intro hinc
    simp [h1Outcome, hinc] at hr
  have hsame : phr.parseResponse p = .complete minor status consumed fields := by
    rw [← hc.headFinal p q hhead, hparse]
  have hle := hc.consumedLe p _ _ _ _ hsame
  unfold FramesExactly at hframe
  simp only [h1Outcome, hsame, bodyOutcome] at hr
  rw [List.drop_append_of_le_length hle] at hframe
  suffices hq : q = [] by rw [hq, List.append_nil]
  cases hfr : (H1Head.ofParsed isHead minor status fields).framing with
  | empty =>
    simp only [hfr] at hframe
    exact (List.append_eq_nil_iff.mp hframe.1).2
  | close => simp [hfr] at hr
  | length n =>
    simp only [hfr] at hframe hr
    split at hr
    · next hn =>
        have hlen := hframe.1
        rw [List.length_append] at hlen
        exact List.eq_nil_of_length_eq_zero (by omega)
    · cases hr
  | chunked =>
    simp only [hfr] at hframe hr
    by_contra hq
    have hinc := hframe.2 (p.drop consumed) (List.prefix_append _ _) (by simpa using hq)
    simp [hinc] at hr

/-- **The final response is reported** exactly when it comes first and its header block fits. -/
theorem h1_interim_iff (hc : phr.Contract) {interims chunks : List Str8} {f : Str8} {hd : H1Head} {body : Str8}
    (hi : ∀ i ∈ interims, IsInterim phr i) (hf : IsFinal phr isHead eof f hd body)
    (hx : chunks.flatten = interims.flatten ++ f) :
    ReportsFinal phr isHead eof chunks hd body ↔ interims = [] ∧ HeadRoom phr [] chunks := by
  constructor
  · intro h
    obtain ⟨r, hresps, hstatus, -, -⟩ := h.reported
    have hroom : HeadRoom phr [] chunks := by
      by_contra hno
      rw [h1Exchange_overflow hc hno] at hresps
      cases hresps
    refine ⟨?_, hroom⟩
    cases interims with
    | nil => rfl
    | cons i rest =>
      exfalso
      -- what is reported is the first header block of the stream
      rw [List.flatten_cons, List.append_assoc] at hx
      rw [(h1Exchange_of_room hc isHead eof hroom).2.1, hx] at hresps
      obtain ⟨r', hr', hlo, hhi, hne⟩ := h1Outcome_interim hc (hi i List.mem_cons_self)
      rw [hr'] at hresps
      obtain ⟨rfl, -⟩ := List.cons.inj hresps
      rw [hstatus] at hlo hhi hne
      exact hf.status ⟨hlo, hhi, hne⟩
  · rintro ⟨rfl, hroom⟩
    rw [List.flatten_nil, List.nil_append] at hx
    refine ⟨⟨hd.response body, ?_, rfl, rfl, rfl⟩, ?_⟩
    · rw [(h1Exchange_of_room hc isHead eof hroom).2.1, hx, h1Outcome_final_response hf]
      rfl
    · rintro pre post rfl r hr -
      have hpre := (h1Exchange_of_room hc isHead false hroom.left).2.1
      change (h1Feed phr (h1SessionStart isHead) pre).resps = _ at hpre
      rw [hpre, Option.mem_toList] at hr
      rw [List.flatten_append] at hx
      have hall := hf.all_bytes hc ⟨post.flatten, hx⟩ hr
      rw [hall] at hx
      exact List.append_right_eq_self.mp hx

/-! ## Examples -/

def finalBytes : Str8 := lit "HTTP/1.1 200 OK\r\nContent-Length: 2\r\n\r\nok"

def finalHead : H1Head :=
  { isHead := false, minor := 1, status := 200, headers := [{ name := lit "Content-Length", value := lit "2" }] }

theorem isFinal_sample : IsFinal plainPhr false false finalBytes finalHead (lit "ok") := by
  refine ⟨⟨1, 200, 38, [(lit "Content-Length", lit "2")], by decide +kernel, by rfl, ?_⟩, by decide⟩
  have hfr : finalHead.framing = .length 2 := by decide +kernel
  rw [FramesExactly, hfr]
  decide +kernel

theorem h1_interim_iff_plain :
    ReportsFinal plainPhr false false [finalBytes.take 20, finalBytes.drop 20] finalHead (lit "ok") :=
  (h1_interim_iff plainPhr_contract (fun i (hi : i ∈ ([] : List Str8)) => by cases hi) isFinal_sample
    (by decide +kernel)).mpr ⟨rfl, HeadFits.room (by decide +kernel) (HeadFits.of_short (by decide +kernel))⟩

def continueBytes : Str8 := lit "HTTP/1.1 100 Continue\r\n\r\n"

/-- `100 Continue` and the answer in one piece: the session reports status 100 and that the connection can be
    reused, while the answer is unread. -/
theorem h1_interim_reported : IsInterim plainPhr continueBytes ∧
    IsFinal plainPhr false false finalBytes finalHead (lit "ok") ∧
    (h1Exchange plainPhr false [continueBytes ++ finalBytes] false).resps =
      [{ status := 100, headers := [], body := [], ok := true, keepAlive := true }] ∧
    ¬ ReportsFinal plainPhr false false [continueBytes ++ finalBytes] finalHead (lit "ok") := by
  have hresps : (h1Exchange plainPhr false [continueBytes ++ finalBytes] false).resps =
      [{ status := 100, headers := [], body := [], ok := true, keepAlive := true }] := by decide +kernel
  refine ⟨⟨1, 100, [], by decide +kernel, by decide, by decide, by decide⟩, isFinal_sample, hresps, ?_⟩
  intro h
  obtain ⟨r, hr, hstatus, -⟩ := h.reported
  rw [hresps] at hr
  obtain ⟨rfl, -⟩ := List.cons.inj hr
  exact absurd hstatus (by decide)

end HolyTls

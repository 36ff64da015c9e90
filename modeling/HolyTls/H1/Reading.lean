import HolyTls.H1.Answer

/-!
# `H1.Reading` — a session reads one answer

`Whole` says that some bytes are one response and no more. A session that is fed the beginning of a whole
response delivers exactly that response, and only when it has seen all of it: the rules below are those a
connection's owner needs, who feeds the pieces as they come and learns of the response through `delivered`.
-/

namespace HolyTls

/-- One response and no more: it is complete, at the latest when the connection ends, and no beginning of it
    is a response already. -/
structure Whole (phr : Phr) (isHead : Bool) (x : Str8) : Prop where
  complete : (h1Outcome phr isHead x true).resp.isSome = true
  exact : ∀ p, p <+: x → (h1Outcome phr isHead p false).resp.isSome = true → p = x

/-- What a whole response says. -/
def h1Reading (phr : Phr) (isHead : Bool) (x : Str8) : Option Response :=
  (h1Outcome phr isHead x true).resp.map H1Response.response

section

variable {phr : Phr} {hd : H1Head} {s : H1Session} {x y p d : Str8} {isHead : Bool} {g : Response}

theorem answer_eq (hd : H1Head) (hstatus : s.status = hd.status) (hheaders : s.headers = hd.headers)
    (hbody : s.body = y) : (hd.response y).response = s.answer := by
  unfold H1Head.response H1Response.response H1Session.answer
  rw [hstatus, hheaders, hbody]

theorem BodyAt.answer (h : BodyAt phr hd y s) (hdel : s.delivered = true) :
    (bodyOutcome phr hd y false).resp.map H1Response.response = some s.answer := by
  have hrest := h.rest
  unfold bodyOutcome
  cases hf : hd.framing with
  | empty =>
    rw [hf] at hrest
    exact congrArg some (answer_eq hd h.status h.headers hrest.body)
  | close =>
    rw [hf] at hrest
    rw [hrest.2.2] at hdel
    cases hdel
  | length n =>
    rw [hf] at hrest
    dsimp only at hrest ⊢
    split at hrest
    · next hn =>
        rw [if_pos hn]
        exact congrArg some (answer_eq hd h.status h.headers hrest.body)
    · rw [hrest.2.2.2] at hdel
      cases hdel
  | chunked =>
    rw [hf] at hrest
    dsimp only at hrest ⊢
    split at hrest
    · exact congrArg some (answer_eq hd h.status h.headers hrest.body)
    · rw [hrest.2] at hdel
      cases hdel
    · rw [hrest.2.2.2] at hdel
      cases hdel

theorem SessionAt.answer (h : SessionAt phr isHead x s) (hdel : s.delivered = true) :
    (h1Outcome phr isHead x false).resp.map H1Response.response = some s.answer := by
  unfold SessionAt at h
  unfold h1Outcome
  cases hp : phr.parseResponse x with
  | incomplete =>
    rw [hp] at h
    rw [h] at hdel
    cases hdel
  | malformed =>
    rw [hp] at h
    rw [h.2] at hdel
    cases hdel
  | complete minor status consumed fields =>
    rw [hp] at h
    exact BodyAt.answer h hdel

theorem SessionAt.start (hc : phr.Contract) : SessionAt phr isHead [] (h1SessionStart isHead) := by
  unfold SessionAt
  rw [hc.headNil]
  rfl

/-- A stream that is malformed has not become a response. -/
theorem h1Outcome_failed (h : (h1Outcome phr isHead x false).failed = true) :
    (h1Outcome phr isHead x false).resp = none := by
  unfold h1Outcome at h ⊢
  split
  · rfl
  · rfl
  · next hp =>
      simp only [hp] at h
      unfold bodyOutcome at h ⊢
      split at h
      · cases h
      · split at h
        · cases h
        · rfl
        · cases h
      · split at h <;> cases h
      · split at h <;> cases h

/-- **The next piece.** The session goes on, or it fails and has delivered nothing. -/
theorem SessionAt.next (hc : phr.Contract) (h : SessionAt phr isHead x s) :
    (h1SessionRecv phr s d).ok = true ∧ SessionAt phr isHead (x ++ d) (h1SessionRecv phr s d).sess ∨
      (h1SessionRecv phr s d).ok = false ∧ (h1SessionRecv phr s d).sess.delivered = false := by
  by_cases hfits : phr.parseResponse x = .incomplete → (x ++ d).length ≤ h1MaxHeaderRegion
  · obtain ⟨hsess, -, hok⟩ := h.recv (d := d) hc hfits
    cases hfail : (h1Outcome phr isHead (x ++ d) false).failed with
    | false => exact .inl ⟨by rw [hok, hfail]; rfl, hsess⟩
    | true =>
      refine .inr ⟨by rw [hok, hfail]; rfl, Bool.eq_false_iff.mpr fun hdel => ?_⟩
      have hans := hsess.answer hdel
      rw [h1Outcome_failed hfail] at hans
      cases hans
  · -- the header block outgrows the buffer
    obtain ⟨hp, hlong⟩ := Classical.not_imp.mp hfits
    unfold SessionAt at h
    rw [hp] at h
    subst h
    have hcall : h1SessionRecv phr { isHead := isHead, inBuf := x } d =
        { sess := { isHead := isHead, inBuf := x ++ d, state := .error }, ok := false } := by
      simp only [h1SessionRecv, if_pos (Nat.lt_of_not_le hlong)]
    rw [hcall]
    exact .inr ⟨rfl, rfl⟩

/-- **The end of the connection.** What the session has delivered then is what the bytes say. -/
theorem SessionAt.ended (h : SessionAt phr isHead x s) (hdel : (h1SessionEof s).sess.delivered = true) :
    h1Reading phr isHead x = some (h1SessionEof s).sess.answer := by
  unfold h1Reading
  cases hs : s.delivered with
  | true =>
    have hans := h.answer hs
    have hsome : (h1Outcome phr isHead x false).resp.isSome = true := by
      obtain ⟨hr, hresp, -⟩ := Option.map_eq_some_iff.mp hans
      rw [hresp]
      rfl
    rw [h1Outcome_eof_of_some hsome, eof_other (.inl hs)]
    exact hans
  | false =>
    -- the call itself has delivered it
    have heof := h.eof.1
    cases hresp : (h1SessionEof s).resp with
    | none =>
      unfold h1SessionEof at hresp hdel
      rw [if_neg (by rw [hs]; decide)] at hresp hdel
      split at hresp
      · unfold h1Deliver at hresp
        rw [if_neg (by rw [hs]; decide)] at hresp
        cases hresp
      · next hstate =>
          rw [if_neg hstate, hs] at hdel
          cases hdel
    | some hr =>
      rw [hresp] at heof
      unfold newResp at heof
      split at heof
      · cases heof
      · rw [← heof]
        exact congrArg some (h1SessionEof_reports hr hresp).2

theorem Whole.of_part (hw : Whole phr isHead x) (hp : p <+: x)
    (h : (h1Outcome phr isHead p false).resp.map H1Response.response = some g) :
    p = x ∧ h1Reading phr isHead x = some g := by
  obtain ⟨hr, hresp, -⟩ := Option.map_eq_some_iff.mp h
  have hsome : (h1Outcome phr isHead p false).resp.isSome = true := by
    rw [hresp]
    rfl
  have heq := hw.exact p hp hsome
  subst heq
  refine ⟨rfl, ?_⟩
  unfold h1Reading
  rw [h1Outcome_eof_of_some hsome]
  exact h

end

end HolyTls

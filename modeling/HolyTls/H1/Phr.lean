import HolyTls.H1.Session

/-!
# `H1.Phr` — picohttpparser's contract

`Phr.Contract` is what the code relies on. `plainPhr` is a parser that keeps it: it waits for the blank line
before it looks at a header block, and decodes the chunks that have come so far. It shows that the contract
asks for nothing impossible, and stands for the library wherever something is to be computed.
-/

namespace HolyTls

/-- picohttpparser's contract, as far as it goes beyond its results being functions of the bytes so far: no
    bytes give no verdict, a verdict stays when more bytes follow, and a header block does not reach beyond
    the bytes seen. -/
structure Phr.Contract (phr : Phr) : Prop where
  headNil : phr.parseResponse [] = .incomplete
  headFinal : ∀ b c, phr.parseResponse b ≠ .incomplete → phr.parseResponse (b ++ c) = phr.parseResponse b
  consumedLe : ∀ b minor status consumed headers,
    phr.parseResponse b = .complete minor status consumed headers → consumed ≤ b.length
  chunkNil : phr.decodeChunked [] = ([], .incomplete)
  chunkFinal : ∀ b c, (phr.decodeChunked b).2 = .complete → phr.decodeChunked (b ++ c) = phr.decodeChunked b
  chunkMalformed : ∀ b c, (phr.decodeChunked b).2 = .malformed → (phr.decodeChunked (b ++ c)).2 = .malformed

/-! ## A parser -/

/-- The place behind the first occurrence of `pat`. -/
def findEnd (pat : Str8) : Str8 → Option Nat
  | [] => none
  | b :: rest => if pat.isPrefixOf (b :: rest) then some pat.length else (findEnd pat rest).map (· + 1)

def crlf : Str8 := [13, 10]

/-- The lines of a block, without their ends. -/
def crlfLines : Str8 → List Str8
  | [] => [[]]
  | 13 :: 10 :: rest => [] :: crlfLines rest
  | b :: rest =>
    match crlfLines rest with
    | [] => [[b]]
    | l :: ls => (b :: l) :: ls

/-- `HTTP/1.m sss`: the minor version and the status. -/
def parseStatusLine (line : Str8) : Option (Nat × Nat) :=
  match str8StartsWith line (lit "HTTP/1."), line.drop 7 with
  | true, m :: 32 :: a :: b :: c :: _ =>
    if [m, a, b, c].all charIsDigit then some (m.toNat - 48, str8ToU64 [a, b, c]) else none
  | _, _ => none

/-- `name: value`. -/
def parseField (line : Str8) : Option (Str8 × Str8) :=
  (str8IndexOf line 58).map (fun i => (line.take i, str8Trim (line.drop (i + 1))))

/-- A header block up to its blank line. -/
def parseBlock (block : Str8) (consumed : Nat) : PhrResult :=
  match crlfLines block with
  | [] => .malformed
  | first :: fields =>
    match parseStatusLine first, fields.mapM parseField with
    | some (minor, status), some hs => .complete minor status consumed hs
    | _, _ => .malformed

def hexDigit? (b : UInt8) : Option Nat :=
  if charIsDigit b then some (b.toNat - 48)
  else if 97 ≤ b && b ≤ 102 then some (b.toNat - 87)
  else if 65 ≤ b && b ≤ 70 then some (b.toNat - 55)
  else none

/-- A chunk size. -/
def parseHex (s : Str8) : Option Nat :=
  if s.isEmpty then none else s.foldlM (fun n b => (hexDigit? b).map (16 * n + ·)) 0

/-- What follows the last chunk: trailer fields, up to a blank line. -/
def dechunkTrailer (rest : Str8) : ChunkStatus :=
  if crlf.isPrefixOf rest || (findEnd (crlf ++ crlf) rest).isSome then .complete else .incomplete

/-- The chunks that have come so far, at most `fuel` of them. -/
def dechunk : Nat → Str8 → Str8 × ChunkStatus
  | 0, _ => ([], .incomplete)
  | fuel + 1, b =>
    match findEnd crlf b with
    | none => ([], .incomplete)
    | some i =>
      match parseHex (b.take (i - 2)) with
      | none => ([], .malformed)
      | some 0 => ([], dechunkTrailer (b.drop i))
      | some n =>
        let rest := b.drop i
        if rest.length < n + 2 then (rest.take n, .incomplete)
        else if (rest.drop n).take 2 = crlf then
          (rest.take n ++ (dechunk fuel (rest.drop (n + 2))).1, (dechunk fuel (rest.drop (n + 2))).2)
        else (rest.take n, .malformed)

/-- A parser that waits for the end of the header block. -/
def plainPhr : Phr where
  parseResponse b :=
    match findEnd (crlf ++ crlf) b with
    | none => .incomplete
    | some n => parseBlock (b.take (n - 4)) n
  decodeChunked b := dechunk b.length b

/-! ## It keeps the contract -/

theorem findEnd_le {pat b : Str8} {n : Nat} (h : findEnd pat b = some n) : n ≤ b.length := by
  induction b generalizing n with
  | nil => cases h
  | cons x b ih =>
    unfold findEnd at h
    split at h
    · next hp =>
        cases h
        exact (List.isPrefixOf_iff_prefix.mp hp).length_le
    · obtain ⟨m, hm, rfl⟩ := Option.map_eq_some_iff.mp h
      exact Nat.succ_le_succ (ih hm)

theorem le_findEnd {pat b : Str8} {n : Nat} (h : findEnd pat b = some n) : pat.length ≤ n := by
  induction b generalizing n with
  | nil => cases h
  | cons x b ih =>
    unfold findEnd at h
    split at h
    · cases h
      exact Nat.le_refl _
    · obtain ⟨m, hm, rfl⟩ := Option.map_eq_some_iff.mp h
      exact Nat.le_succ_of_le (ih hm)

theorem findEnd_append {pat b : Str8} {n : Nat} (c : Str8) (h : findEnd pat b = some n) :
    findEnd pat (b ++ c) = some n := by
  induction b generalizing n with
  | nil => cases h
  | cons x b ih =>
    rw [List.cons_append]
    unfold findEnd at h ⊢
    split at h
    · next hp =>
        have hp' : pat.isPrefixOf (x :: (b ++ c)) = true :=
          List.isPrefixOf_iff_prefix.mpr ((List.isPrefixOf_iff_prefix.mp hp).trans (List.prefix_append (x :: b) c))
        rw [if_pos hp']
        exact h
    · next hp =>
        obtain ⟨m, hm, rfl⟩ := Option.map_eq_some_iff.mp h
        -- an occurrence that reaches into `c` would not leave room for the one found
        have hp' : ¬ pat.isPrefixOf (x :: (b ++ c)) = true := by
          intro hpre
          have hlen : pat.length ≤ (x :: b).length := Nat.le_succ_of_le ((le_findEnd hm).trans (findEnd_le hm))
          exact hp (List.isPrefixOf_iff_prefix.mpr (List.prefix_of_prefix_length_le
            (List.isPrefixOf_iff_prefix.mp hpre) (List.prefix_append (x :: b) c) hlen))
        rw [if_neg hp', ih hm]
        rfl

theorem dechunkTrailer_append {rest : Str8} (c : Str8) (h : dechunkTrailer rest = .complete) :
    dechunkTrailer (rest ++ c) = .complete := by
  unfold dechunkTrailer at h ⊢
  split at h
  · next hc =>
      rw [if_pos]
      simp only [Bool.or_eq_true] at hc ⊢
      rcases hc with hc | hc
      · exact .inl (List.isPrefixOf_iff_prefix.mpr
          ((List.isPrefixOf_iff_prefix.mp hc).trans (List.prefix_append rest c)))
      · obtain ⟨n, hn⟩ := Option.isSome_iff_exists.mp hc
        rw [findEnd_append c hn]
        exact .inr rfl
  · cases h

theorem dechunkTrailer_not_malformed {rest : Str8} : dechunkTrailer rest ≠ .malformed := by
  unfold dechunkTrailer
  split <;> nofun

/-- More bytes and more fuel leave a verdict as it is. -/
theorem dechunk_append {fuel fuel' : Nat} {b : Str8} (c : Str8) (hfuel : fuel ≤ fuel')
    (h : (dechunk fuel b).2 ≠ .incomplete) :
    (dechunk fuel' (b ++ c)).2 = (dechunk fuel b).2 ∧
      ((dechunk fuel b).2 = .complete → (dechunk fuel' (b ++ c)).1 = (dechunk fuel b).1) := by
  induction fuel generalizing fuel' b with
  | zero => exact absurd rfl h
  | succ fuel ih =>
    obtain ⟨fuel', rfl⟩ : ∃ k, fuel' = k + 1 := ⟨fuel' - 1, by omega⟩
    unfold dechunk at h ⊢
    cases hi : findEnd crlf b with
    | none =>
      rw [hi] at h
      exact absurd rfl h
    | some i =>
      have hile := findEnd_le hi
      rw [findEnd_append c hi]
      simp only [hi] at h ⊢
      rw [List.take_append_of_le_length (by omega), List.drop_append_of_le_length hile]
      cases hn : parseHex (b.take (i - 2)) with
      | none => exact ⟨rfl, fun _ => rfl⟩
      | some n =>
        simp only [hn] at h ⊢
        cases n with
        | zero =>
          simp only at h ⊢
          cases ht : dechunkTrailer (b.drop i) with
          | incomplete => exact absurd ht h
          | malformed => exact absurd ht dechunkTrailer_not_malformed
          | complete => exact ⟨dechunkTrailer_append c ht, fun _ => trivial⟩
        | succ n =>
          simp only at h ⊢
          split at h
          · exact absurd rfl h
          · next hlen =>
              have hlen' : ¬ (b.drop i ++ c).length < n + 1 + 2 := by
                rw [List.length_append]
                omega
              have htake : ((b.drop i ++ c).drop (n + 1)).take 2 = ((b.drop i).drop (n + 1)).take 2 := by
                rw [List.drop_append_of_le_length (by omega), List.take_append_of_le_length]
                rw [List.length_drop]
                omega
              rw [if_neg hlen, if_neg hlen', htake, List.take_append_of_le_length (by omega)]
              split at h
              · next hcr =>
                  rw [if_pos hcr, if_pos hcr, List.drop_append_of_le_length (by omega)]
                  obtain ⟨hst, hpay⟩ := ih (Nat.le_of_succ_le_succ hfuel) h
                  exact ⟨hst, fun hc => by rw [hpay hc]⟩
              · next hcr =>
                  rw [if_neg hcr, if_neg hcr]
                  exact ⟨rfl, fun _ => rfl⟩

theorem parseBlock_consumed {block : Str8} {n minor status consumed : Nat} {hs : List (Str8 × Str8)}
    (h : parseBlock block n = .complete minor status consumed hs) : consumed = n := by
  unfold parseBlock at h
  split at h
  · cases h
  · split at h
    · cases h
      rfl
    · cases h

theorem plainPhr_contract : plainPhr.Contract where
  headNil := rfl
  headFinal := by
    intro b c h
    unfold plainPhr at h ⊢
    dsimp only at h ⊢
    cases hn : findEnd (crlf ++ crlf) b with
    | none =>
      rw [hn] at h
      exact absurd rfl h
    | some n =>
      have hle := findEnd_le hn
      rw [findEnd_append c hn]
      dsimp only
      rw [List.take_append_of_le_length (by omega)]
  consumedLe := by
    intro b minor status consumed headers h
    unfold plainPhr at h
    dsimp only at h
    split at h
    · cases h
    · next n hn =>
        rw [parseBlock_consumed h]
        exact findEnd_le hn
  chunkNil := rfl
  chunkFinal := by
    intro b c h
    have hfuel : b.length ≤ (b ++ c).length := by simp
    have hst : (dechunk b.length b).2 = .complete := h
    obtain ⟨h₂, h₁⟩ := dechunk_append c hfuel (by rw [hst]; nofun)
    exact Prod.ext (h₁ hst) h₂
  chunkMalformed := by
    intro b c h
    have hfuel : b.length ≤ (b ++ c).length := by simp
    have hst : (dechunk b.length b).2 = .malformed := h
    exact (dechunk_append c hfuel (by rw [hst]; nofun)).1.trans hst

end HolyTls

import Mathlib.Tactic
import Mathlib.Data.List.DropRight

/-!
# `Base.Str8` — the length-and-pointer strings of `src/base/string8.c`

A `String8` is a view on bytes that need not be NUL-terminated, so it is modelled by the list of its
bytes. Pointers and arenas do not appear: a sub-view is the sub-list, a copy is the list itself.

The predicates are Boolean, as in the source; `str8MatchCi_iff` and its companions turn the
case-insensitive comparison into equality of lower-cased strings, which is the form the proofs use.
-/

namespace HolyTls

variable {i n : Nat} {b c : UInt8}

/-- A `String8`: the bytes of the view. -/
abbrev Str8 := List UInt8

/-- `str8_lit`: the bytes of an ASCII literal. -/
def lit (s : String) : Str8 := s.toList.map (fun c => UInt8.ofNat c.toNat)

/-! ## Character classification -/

def charIsDigit (c : UInt8) : Bool := 48 ≤ c && c ≤ 57
def charIsUpper (c : UInt8) : Bool := 65 ≤ c && c ≤ 90
def charIsLower (c : UInt8) : Bool := 97 ≤ c && c ≤ 122
def charIsAlpha (c : UInt8) : Bool := charIsUpper c || charIsLower c
def charIsAlnum (c : UInt8) : Bool := charIsAlpha c || charIsDigit c

/-- `char_to_lower`: ASCII only, every other byte is kept. -/
def charToLower (c : UInt8) : UInt8 := if charIsUpper c then c + 32 else c

/-- `ascii_is_space`: space, `\t`, `\n`, `\v`, `\f` and `\r`. -/
def asciiIsSpace (c : UInt8) : Bool := c == 32 || (9 ≤ c && c ≤ 13)

/-! ## Comparison -/

/-- `str8_match`: equal bytes. -/
def str8Match (a b : Str8) : Bool := a == b

/-- `str8_match_ci`: the lengths agree and no position differs after `char_to_lower`. -/
def str8MatchCi (a b : Str8) : Bool :=
  a.length == b.length && (a.zip b).all (fun p => charToLower p.1 == charToLower p.2)

/-- `str8_starts_with`. -/
def str8StartsWith (s pre : Str8) : Bool := pre.isPrefixOf s

/-- The lower-cased string: what two strings equal up to case have in common. -/
def lower (s : Str8) : Str8 := s.map charToLower

@[simp] theorem lower_length (s : Str8) : (lower s).length = s.length := by simp [lower]

@[simp] theorem str8Match_iff {a b : Str8} : str8Match a b = true ↔ a = b := by simp [str8Match]

theorem zip_all_lower_iff {a b : Str8} (h : a.length = b.length) :
    (a.zip b).all (fun p => charToLower p.1 == charToLower p.2) = true ↔ lower a = lower b := by
  induction a generalizing b with
  | nil =>
    cases b with
    | nil => simp [lower]
    | cons y ys => simp at h
  | cons x xs ih =>
    cases b with
    | nil => simp at h
    | cons y ys =>
      have hl : xs.length = ys.length := by simpa using h
      simp only [List.zip_cons_cons, List.all_cons, Bool.and_eq_true, beq_iff_eq, ih hl]
      simp [lower]

@[simp] theorem str8MatchCi_iff {a b : Str8} : str8MatchCi a b = true ↔ lower a = lower b := by
  unfold str8MatchCi
  rw [Bool.and_eq_true, beq_iff_eq]
  constructor
  · rintro ⟨hl, h⟩
    exact (zip_all_lower_iff hl).mp h
  · intro h
    have hl : a.length = b.length := by
      have := congrArg List.length h
      simpa using this
    exact ⟨hl, (zip_all_lower_iff hl).mpr h⟩

/-- Lower-casing keeps letters letters and other bytes as they are. -/
theorem charIsAlpha_charToLower (c : UInt8) : charIsAlpha (charToLower c) = charIsAlpha c := by
  unfold charToLower
  split
  · next h =>
      simp only [charIsUpper, Bool.and_eq_true, decide_eq_true_eq, UInt8.le_iff_toNat_le] at h
      have hle : c.toNat ≤ 90 := h.2
      have hadd : (c + 32).toNat = c.toNat + 32 := by
        rw [UInt8.toNat_add]
        simp
        omega
      have hge : 65 ≤ c.toNat := h.1
      simp only [charIsAlpha, charIsUpper, charIsLower, UInt8.le_iff_toNat_le, hadd]
      rw [Bool.eq_iff_iff]
      simp
      omega
  · rfl

/-- A string that matches `b` does not match a string different from `b` up to case. -/
theorem str8MatchCi_of_ne {a b c : Str8} (h : str8MatchCi a b = true) (hne : lower b ≠ lower c) :
    str8MatchCi a c = false := by
  rw [← Bool.not_eq_true, str8MatchCi_iff, str8MatchCi_iff.mp h]
  exact hne

/-! ## Views -/

/-- `str8_prefix`: the first `n` bytes (clamped). -/
def str8Prefix (s : Str8) (n : Nat) : Str8 := s.take n

/-- `str8_skip`: all but the first `n` bytes (clamped). -/
def str8Skip (s : Str8) (n : Nat) : Str8 := s.drop n

def str8TrimLeft (s : Str8) : Str8 := s.dropWhile asciiIsSpace
def str8TrimRight (s : Str8) : Str8 := s.rdropWhile asciiIsSpace

/-- `str8_trim`: right, then left. -/
def str8Trim (s : Str8) : Str8 := str8TrimLeft (str8TrimRight s)

variable {s : Str8}

theorem mem_of_mem_str8Trim (h : b ∈ str8Trim s) : b ∈ s :=
  (List.rdropWhile_prefix _ _).subset ((List.dropWhile_suffix _).subset h)

/-- `str8_index_of`: the position of the first byte equal to `c`. -/
def str8IndexOf (s : Str8) (c : UInt8) : Option Nat := s.findIdx? (· == c)

/-- `str8_rindex_of`: the position of the last byte equal to `c`. -/
def str8RindexOf (s : Str8) (c : UInt8) : Option Nat :=
  (s.reverse.findIdx? (· == c)).map (fun i => s.length - 1 - i)

theorem str8IndexOf_eq_none : str8IndexOf s c = none ↔ c ∉ s := by
  unfold str8IndexOf
  rw [List.findIdx?_eq_none_iff]
  constructor
  · intro h hc
    simpa using h c hc
  · intro h x hx
    rw [beq_eq_false_iff_ne]
    rintro rfl
    exact h hx

/-- The first `c` is the one that is written after a string without `c`. -/
theorem str8IndexOf_append (h : c ∉ s) (t : Str8) : str8IndexOf (s ++ c :: t) c = some s.length := by
  have hs : s.findIdx? (· == c) = none := str8IndexOf_eq_none.mpr h
  unfold str8IndexOf
  rw [List.findIdx?_append, hs, List.findIdx?_cons, beq_self_eq_true]
  simp

/-- There is no `c` before the first. -/
theorem not_mem_take_of_str8IndexOf (h : str8IndexOf s c = some i) : c ∉ s.take i := by
  obtain ⟨hi, -, hbefore⟩ := List.findIdx?_eq_some_iff_getElem.mp h
  intro hc
  obtain ⟨j, hj, heq⟩ := List.mem_iff_getElem.mp hc
  rw [List.length_take] at hj
  rw [List.getElem_take] at heq
  exact hbefore j (by omega) (by rw [heq, beq_self_eq_true])

/-- The last `c` is the one that a string without `c` follows. -/
theorem str8RindexOf_append {t : Str8} (h : c ∉ t) (s : Str8) :
    str8RindexOf (s ++ c :: t) c = some s.length := by
  have hrev : (s ++ c :: t).reverse = t.reverse ++ c :: s.reverse := by simp
  unfold str8RindexOf
  rw [hrev]
  have hfind := str8IndexOf_append (s := t.reverse) (c := c) (fun hc => h (List.mem_reverse.mp hc)) s.reverse
  rw [str8IndexOf] at hfind
  rw [hfind]
  simp

theorem str8RindexOf_eq_none : str8RindexOf s c = none ↔ c ∉ s := by
  unfold str8RindexOf
  rw [Option.map_eq_none_iff, ← List.mem_reverse]
  exact str8IndexOf_eq_none

/-- There is no `c` after the last. -/
theorem not_mem_drop_of_str8RindexOf (h : str8RindexOf s c = some i) : c ∉ s.drop (i + 1) := by
  obtain ⟨j, hj, rfl⟩ := Option.map_eq_some_iff.mp h
  obtain ⟨hlt, -⟩ := List.findIdx?_eq_some_iff_getElem.mp hj
  rw [List.length_reverse] at hlt
  have hbefore := not_mem_take_of_str8IndexOf (s := s.reverse) (c := c) (i := j) hj
  rw [List.take_reverse, List.mem_reverse] at hbefore
  have hi : s.length - 1 - j + 1 = s.length - j := by omega
  rwa [hi]

/-- `str8_chop_last_slash`: the part before the last `/`, or the whole string. -/
def str8ChopLastSlash (s : Str8) : Str8 :=
  match str8RindexOf s 47 with
  | some i => str8Prefix s i
  | none => s

/-- `str8_chop_by_delim`: the head up to the first `delim`, and what follows that delimiter. -/
def str8ChopByDelim (s : Str8) (delim : UInt8) : Str8 × Str8 :=
  (s.takeWhile (· != delim), (s.dropWhile (· != delim)).tail)

/-- A scan stops where the part that it may run over ends. -/
theorem takeWhile_append_stop {p : UInt8 → Bool} {t : Str8} (hs : ∀ b ∈ s, p b = true)
    (ht : ∀ b ∈ t.head?, p b = false) : (s ++ t).takeWhile p = s ∧ (s ++ t).dropWhile p = t := by
  rw [List.takeWhile_append_of_pos hs, List.dropWhile_append_of_pos hs]
  cases t with
  | nil => exact ⟨List.append_nil s, rfl⟩
  | cons b t =>
    have hb : p b = false := ht b rfl
    simp [hb]

theorem takeWhile_of_not_mem (h : c ∉ s) : s.takeWhile (· != c) = s := by
  rw [List.takeWhile_eq_self_iff]
  intro b hb
  rw [bne_iff_ne]
  rintro rfl
  exact h hb

/-- A string is cut at the first `c`. -/
theorem str8IndexOf_cut (h : str8IndexOf s c = some i) :
    i < s.length ∧ s.drop i = c :: s.drop (i + 1) ∧ s.takeWhile (· != c) = s.take i ∧
      s.dropWhile (· != c) = s.drop i := by
  obtain ⟨hlt, hat, -⟩ := List.findIdx?_eq_some_iff_getElem.mp h
  have hdrop : s.drop i = c :: s.drop (i + 1) := by
    rw [List.drop_eq_getElem_cons hlt, beq_iff_eq.mp hat]
  have hall : ∀ b ∈ s.take i, (b != c) = true := by
    intro b hb
    rw [bne_iff_ne]
    rintro rfl
    exact not_mem_take_of_str8IndexOf h hb
  have hcut := takeWhile_append_stop (t := s.drop i) hall (by rw [hdrop]; simp)
  rw [List.take_append_drop] at hcut
  exact ⟨hlt, hdrop, hcut⟩

theorem str8ChopByDelim_append (h : c ∉ s) (t : Str8) : str8ChopByDelim (s ++ c :: t) c = (s, t) := by
  have hall : ∀ b ∈ s, (b != c) = true := by
    intro b hb
    rw [bne_iff_ne]
    rintro rfl
    exact h hb
  obtain ⟨htake, hdrop⟩ := takeWhile_append_stop (t := c :: t) hall (by simp)
  rw [str8ChopByDelim, htake, hdrop, List.tail_cons]

/-- `str8_find`: where the first occurrence of `needle` starts. -/
def str8Find (hay needle : Str8) : Option Nat := hay.tails.findIdx? needle.isPrefixOf

/-- `str8_contains`. -/
def str8Contains (hay needle : Str8) : Bool := (str8Find hay needle).isSome

variable {hay needle : Str8}

theorem str8Contains_iff : str8Contains hay needle = true ↔ needle <:+: hay := by
  unfold str8Contains str8Find
  rw [List.findIdx?_isSome, List.any_eq_true, List.infix_iff_prefix_suffix]
  constructor
  · rintro ⟨t, ht, hp⟩
    exact ⟨t, List.isPrefixOf_iff_prefix.mp hp, (List.mem_tails t hay).mp ht⟩
  · rintro ⟨t, hp, ht⟩
    exact ⟨t, (List.mem_tails t hay).mpr ht, List.isPrefixOf_iff_prefix.mpr hp⟩

theorem str8Find_eq_none : str8Find hay needle = none ↔ ¬ needle <:+: hay := by
  rw [← str8Contains_iff, str8Contains]
  cases str8Find hay needle <;> simp

theorem str8Find_first (h : str8Find hay needle = some i) (hne : needle ≠ []) : ¬ needle <:+: hay.take i := by
  obtain ⟨hi, -, hbefore⟩ := List.findIdx?_eq_some_iff_getElem.mp h
  rintro ⟨pre, post, heq⟩
  have hpos : 0 < needle.length := List.length_pos_iff.mpr hne
  have hlen := congrArg List.length heq
  simp only [List.length_append, List.length_take] at hlen
  have hlt : pre.length < i := by omega
  refine hbefore pre.length hlt ?_
  rw [List.getElem_tails, List.isPrefixOf_iff_prefix, ← List.take_append_drop i hay, ← heq]
  refine ⟨post ++ hay.drop i, ?_⟩
  rw [List.append_assoc, List.append_assoc, List.drop_left]

/-- Nothing that precedes the first byte of the needle is part of an occurrence. -/
theorem str8Find_append (h : c ∉ s) (t : Str8) :
    str8Find (s ++ c :: needle ++ t) (c :: needle) = some s.length := by
  unfold str8Find
  induction s with
  | nil =>
    rw [List.nil_append, List.cons_append, List.tails_cons, List.findIdx?_cons, if_pos (by simp)]
    rfl
  | cons b s ih =>
    obtain ⟨hb, hs⟩ := not_or.mp (fun hc => h (List.mem_cons.mpr hc))
    rw [List.cons_append, List.cons_append, List.tails_cons, List.findIdx?_cons, if_neg (by simp [hb]), ih hs]
    rfl

/-- `str8_contains_ci`: some position starts a case-insensitive occurrence of `needle`. -/
def str8ContainsCi (hay needle : Str8) : Bool :=
  needle.isEmpty || (hay.tails.any fun t => (lower needle).isPrefixOf (lower t))

/-! ## Numbers -/

/-- `2^64 - 1`, the value on which `str8_to_u64` saturates. -/
def u64Max : Nat := 2 ^ 64 - 1

/-- The loop of `str8_to_u64`: `r` is the value of the digits read so far. -/
def str8ToU64Loop : Str8 → Nat → Nat
  | [], r => r
  | c :: rest, r =>
    if charIsDigit c then
      let d := c.toNat - 48
      if r > (u64Max - d) / 10 then u64Max else str8ToU64Loop rest (r * 10 + d)
    else r

/-- `str8_to_u64`: the leading decimal digits, saturating at `2^64 - 1`. -/
def str8ToU64 (s : Str8) : Nat := str8ToU64Loop s 0

/-- The loop of `str8_chop_u64`, which goes on after the value has saturated. -/
def str8ChopU64Loop : Str8 → Nat → Nat × Str8
  | [], r => (r, [])
  | c :: rest, r =>
    if charIsDigit c then
      let d := c.toNat - 48
      str8ChopU64Loop rest (if r > (u64Max - d) / 10 then u64Max else r * 10 + d)
    else (r, c :: rest)

/-- `str8_chop_u64`: the leading decimal digits, saturating at `2^64 - 1`, and what follows them. -/
def str8ChopU64 (s : Str8) : Nat × Str8 := str8ChopU64Loop s 0

/-- The number that decimal digits write, after those of `r`. -/
def digitsValue (ds : Str8) (r : Nat) : Nat := ds.foldl (fun n c => n * 10 + (c.toNat - 48)) r

theorem digit_le (hc : charIsDigit c = true) : c.toNat - 48 ≤ 9 := by
  simp only [charIsDigit, Bool.and_eq_true, decide_eq_true_eq, UInt8.le_iff_toNat_le] at hc
  have hhi : (57 : UInt8).toNat = 57 := rfl
  omega

/-- The digits' value, cut off at `2^64 - 1`. -/
theorem str8ChopU64Loop_fst (s : Str8) (r : Nat) :
    (str8ChopU64Loop s (min r u64Max)).1 = min (digitsValue (s.takeWhile charIsDigit) r) u64Max := by
  induction s generalizing r with
  | nil => rfl
  | cons c rest ih =>
    unfold str8ChopU64Loop
    by_cases hc : charIsDigit c = true
    · have hd := digit_le hc
      -- the guard asks whether the next value still fits
      have hstep : (if min r u64Max > (u64Max - (c.toNat - 48)) / 10 then u64Max
          else min r u64Max * 10 + (c.toNat - 48)) = min (r * 10 + (c.toNat - 48)) u64Max := by
        unfold u64Max
        split <;> omega
      rw [if_pos hc, List.takeWhile_cons_of_pos hc]
      dsimp only
      rw [hstep, ih]
      rfl
    · rw [if_neg hc, List.takeWhile_cons_of_neg hc]
      rfl

theorem str8ChopU64_fst (s : Str8) : (str8ChopU64 s).1 = min (digitsValue (s.takeWhile charIsDigit) 0) u64Max :=
  str8ChopU64Loop_fst s 0

theorem str8ChopU64Loop_snd (s : Str8) (r : Nat) : (str8ChopU64Loop s r).2 = s.dropWhile charIsDigit := by
  induction s generalizing r with
  | nil => rfl
  | cons c rest ih =>
    unfold str8ChopU64Loop
    by_cases hc : charIsDigit c = true
    · rw [if_pos hc, List.dropWhile_cons_of_pos hc]
      exact ih _
    · rw [if_neg hc, List.dropWhile_cons_of_neg hc]

theorem str8ChopU64_snd (s : Str8) : (str8ChopU64 s).2 = s.dropWhile charIsDigit :=
  str8ChopU64Loop_snd s 0

theorem le_digitsValue (ds : Str8) (r : Nat) : r ≤ digitsValue ds r := by
  induction ds generalizing r with
  | nil => exact Nat.le_refl r
  | cons c ds ih =>
    have hstep : r * 10 + (c.toNat - 48) ≤ digitsValue ds (r * 10 + (c.toNat - 48)) := ih _
    have hcons : digitsValue (c :: ds) r = digitsValue ds (r * 10 + (c.toNat - 48)) := rfl
    omega

/-- `str8_to_u64` stops as soon as the value does not fit. -/
theorem str8ToU64Loop_eq (s : Str8) {r : Nat} (hr : r ≤ u64Max) :
    str8ToU64Loop s r = min (digitsValue (s.takeWhile charIsDigit) r) u64Max := by
  induction s generalizing r with
  | nil => exact (Nat.min_eq_left hr).symm
  | cons c rest ih =>
    unfold str8ToU64Loop
    by_cases hc : charIsDigit c = true
    · have hd := digit_le hc
      have hcons : digitsValue ((c :: rest).takeWhile charIsDigit) r =
          digitsValue (rest.takeWhile charIsDigit) (r * 10 + (c.toNat - 48)) := by
        rw [List.takeWhile_cons_of_pos hc]
        rfl
      rw [if_pos hc, hcons]
      dsimp only
      split
      · next hbig =>
          have hle := le_digitsValue (rest.takeWhile charIsDigit) (r * 10 + (c.toNat - 48))
          exact (Nat.min_eq_right (by omega)).symm
      · next hsmall =>
          have hfits : r * 10 + (c.toNat - 48) ≤ u64Max := by
            unfold u64Max at hsmall ⊢
            omega
          exact ih hfits
    · rw [if_neg hc, List.takeWhile_cons_of_neg hc]
      exact (Nat.min_eq_left hr).symm

theorem str8ToU64_eq (s : Str8) : str8ToU64 s = min (digitsValue (s.takeWhile charIsDigit) 0) u64Max :=
  str8ToU64Loop_eq s (Nat.zero_le _)

/-- The decimal digits of a number, as `%u` prints them. -/
def decimal (n : Nat) : Str8 := (Nat.toDigits 10 n).map (fun c => UInt8.ofNat c.toNat)

theorem digit_of_mem_toDigits {c : Char} (h : c ∈ Nat.toDigits 10 n) : 48 ≤ c.toNat ∧ c.toNat ≤ 57 := by
  have hd := Nat.isDigit_of_mem_toDigits (by decide) (by decide) h
  simp only [Char.isDigit, Bool.and_eq_true, decide_eq_true_eq, ge_iff_le] at hd
  exact hd

theorem charIsDigit_of_mem_decimal (h : b ∈ decimal n) : charIsDigit b = true := by
  obtain ⟨c, hc, rfl⟩ := List.mem_map.mp h
  obtain ⟨hlo, hhi⟩ := digit_of_mem_toDigits hc
  have hmod : c.toNat % 2 ^ 8 = c.toNat := Nat.mod_eq_of_lt (by omega)
  simp only [charIsDigit, Bool.and_eq_true, decide_eq_true_eq, UInt8.le_iff_toNat_le, UInt8.toNat_ofNat']
  rw [hmod]
  exact ⟨hlo, hhi⟩

theorem toDigits_of_decimal (n : Nat) : (decimal n).map (fun b => Char.ofNat b.toNat) = Nat.toDigits 10 n := by
  unfold decimal
  rw [List.map_map]
  conv_rhs => rw [← List.map_id (Nat.toDigits 10 n)]
  apply List.map_congr_left
  intro c hc
  have hhi := (digit_of_mem_toDigits hc).2
  simp only [Function.comp, UInt8.toNat_ofNat', id]
  rw [Nat.mod_eq_of_lt (by omega)]
  exact Char.ofNat_toNat c

theorem decimal_inj {m : Nat} (h : decimal m = decimal n) : m = n := by
  have hdig : Nat.toDigits 10 m = Nat.toDigits 10 n := by
    rw [← toDigits_of_decimal, ← toDigits_of_decimal, h]
  rw [← Nat.ofDigitChars_toDigits (b := 10) (n := m) (by decide) (by decide), hdig,
    Nat.ofDigitChars_toDigits (by decide) (by decide)]

theorem digitsValue_decimal (n : Nat) : digitsValue (decimal n) 0 = n := by
  unfold digitsValue decimal
  rw [List.foldl_map]
  conv_rhs => rw [← Nat.ofDigitChars_toDigits (b := 10) (n := n) (by decide) (by decide)]
  apply List.foldl_ext
  intro m c hc
  have hhi := (digit_of_mem_toDigits hc).2
  rw [UInt8.toNat_ofNat', Nat.mod_eq_of_lt (by omega), Nat.mul_comm]
  rfl

theorem str8ToU64_decimal (hn : n ≤ u64Max) : str8ToU64 (decimal n) = n := by
  have hdigits : (decimal n).takeWhile charIsDigit = decimal n :=
    List.takeWhile_eq_self_iff.mpr (fun b hb => charIsDigit_of_mem_decimal hb)
  rw [str8ToU64_eq, hdigits, digitsValue_decimal, Nat.min_eq_left hn]

/-! ## Joining -/

/-- The loop of `str8_list_join`: `d` was written so far. A separator goes before a string unless nothing was
    written yet. -/
def str8ListJoinLoop (sep : Str8) : List Str8 → Str8 → Str8
  | [], d => d
  | s :: rest, d => str8ListJoinLoop sep rest (d ++ (if d ≠ [] then sep else []) ++ s)

/-- `str8_list_join`. The length is that of all strings and separators; what was not written is `fill`, whatever
    the arena held there. -/
def str8ListJoin (fill : Nat → UInt8) (list : List Str8) (sep : Str8) : Str8 :=
  let total := (list.map List.length).sum + sep.length * (list.length - 1)
  let d := str8ListJoinLoop sep list []
  d ++ (List.range (total - d.length)).map (fun k => fill (d.length + k))

theorem str8ListJoinLoop_ne_nil (sep : Str8) (list : List Str8) {d : Str8} (hd : d ≠ []) :
    str8ListJoinLoop sep list d = d ++ list.flatMap (sep ++ ·) := by
  induction list generalizing d with
  | nil => simp [str8ListJoinLoop]
  | cons s rest ih =>
    have hne : d ++ sep ++ s ≠ [] := by simp [hd]
    rw [str8ListJoinLoop, if_pos hd, ih hne]
    simp

theorem intercalate_cons (sep s : Str8) (rest : List Str8) :
    sep.intercalate (s :: rest) = s ++ rest.flatMap (sep ++ ·) := by
  induction rest generalizing s with
  | nil => simp [List.intercalate]
  | cons t rest ih =>
    have hstep : sep.intercalate (s :: t :: rest) = s ++ sep ++ sep.intercalate (t :: rest) := by
      simp [List.intercalate]
    rw [hstep, ih, List.flatMap_cons]
    simp

theorem str8ListJoinLoop_nil (sep : Str8) (list : List Str8) :
    str8ListJoinLoop sep list [] = sep.intercalate (list.dropWhile List.isEmpty) := by
  induction list with
  | nil => rfl
  | cons s rest ih =>
    cases s with
    | nil => exact ih
    | cons b s =>
      rw [List.dropWhile_cons_of_neg (by simp), intercalate_cons]
      exact str8ListJoinLoop_ne_nil sep rest (List.cons_ne_nil b s)

theorem intercalate_length (sep : Str8) (list : List Str8) :
    (sep.intercalate list).length = (list.map List.length).sum + sep.length * (list.length - 1) := by
  cases list with
  | nil => rfl
  | cons s rest =>
    rw [intercalate_cons, List.length_append, List.map_cons, List.sum_cons, List.length_cons, Nat.add_sub_cancel]
    induction rest with
    | nil => rfl
    | cons t rest ih =>
      rw [List.flatMap_cons, List.length_append, List.length_append, List.map_cons, List.sum_cons,
        List.length_cons, Nat.mul_succ]
      omega

theorem sum_dropWhile_isEmpty (list : List Str8) :
    ((list.dropWhile List.isEmpty).map List.length).sum = (list.map List.length).sum := by
  induction list with
  | nil => rfl
  | cons s rest ih =>
    cases s with
    | nil => simpa using ih
    | cons b s => rfl

/-- The number of bytes that the loop leaves unwritten. -/
theorem str8ListJoin_unwritten (sep : Str8) (list : List Str8) :
    (list.map List.length).sum + sep.length * (list.length - 1) - (str8ListJoinLoop sep list []).length =
      sep.length * (list.length - 1) - sep.length * ((list.dropWhile List.isEmpty).length - 1) := by
  rw [str8ListJoinLoop_nil, intercalate_length, sum_dropWhile_isEmpty]
  omega

theorem str8ListJoin_eq (fill : Nat → UInt8) {list : List Str8} (sep : Str8) (h : list.head? ≠ some []) :
    str8ListJoin fill list sep = sep.intercalate list := by
  have hdrop : list.dropWhile List.isEmpty = list := by
    cases list with
    | nil => rfl
    | cons s rest =>
      have hs : s ≠ [] := fun hnil => h (by rw [hnil]; rfl)
      exact List.dropWhile_cons_of_neg (by simpa using hs)
  simp only [str8ListJoin]
  rw [str8ListJoin_unwritten, str8ListJoinLoop_nil, hdrop, Nat.sub_self, List.range_zero, List.map_nil, List.append_nil]

theorem str8ListJoin_length (fill : Nat → UInt8) (list : List Str8) (sep : Str8) :
    (str8ListJoin fill list sep).length = (list.map List.length).sum + sep.length * (list.length - 1) := by
  have hle : (str8ListJoinLoop sep list []).length ≤ (list.map List.length).sum + sep.length * (list.length - 1) := by
    rw [str8ListJoinLoop_nil, intercalate_length, sum_dropWhile_isEmpty]
    have hlen := (List.dropWhile_sublist List.isEmpty (l := list)).length_le
    exact Nat.add_le_add_left (Nat.mul_le_mul_left _ (Nat.sub_le_sub_right hlen 1)) _
  rw [str8ListJoin]
  simp only [List.length_append, List.length_map, List.length_range]
  omega

/-- `String8List`: the nodes in order, with the counters kept beside them. -/
structure String8List where
  nodes : List Str8 := []
  nodeCount : Nat := 0
  totalSize : Nat := 0

/-- `str8_list_push`. -/
def str8ListPush (list : String8List) (s : Str8) : String8List where
  nodes := list.nodes ++ [s]
  nodeCount := list.nodeCount + 1
  totalSize := list.totalSize + s.length

/-- `str8_list_join` over the list as the source keeps it; `str8ListJoin` is this function for a list of
    strings that were pushed in order. -/
def String8List.join (fill : Nat → UInt8) (list : String8List) (sep : Str8) : Str8 :=
  let total := list.totalSize + (if list.nodeCount > 1 then sep.length * (list.nodeCount - 1) else 0)
  let d := str8ListJoinLoop sep list.nodes []
  d ++ (List.range (total - d.length)).map (fun k => fill (d.length + k))

theorem str8ListPush_foldl (strings : List Str8) (list : String8List) :
    strings.foldl str8ListPush list =
      { nodes := list.nodes ++ strings, nodeCount := list.nodeCount + strings.length
        totalSize := list.totalSize + (strings.map List.length).sum } := by
  induction strings generalizing list with
  | nil => simp
  | cons s rest ih =>
    rw [List.foldl_cons, ih]
    simp [str8ListPush, Nat.add_assoc, Nat.add_comm 1]

theorem str8ListJoin_pushed (fill : Nat → UInt8) (strings : List Str8) (sep : Str8) :
    (strings.foldl str8ListPush {}).join fill sep = str8ListJoin fill strings sep := by
  have hsep : (if strings.length > 1 then sep.length * (strings.length - 1) else 0) =
      sep.length * (strings.length - 1) := by
    split
    · rfl
    · rw [show strings.length - 1 = 0 by omega, Nat.mul_zero]
  rw [str8ListPush_foldl]
  simp [String8List.join, str8ListJoin, hsep]

/-- Whatever the arena held, the result has the length of the join; it is the join unless a separator belongs
    after an empty first string. -/
theorem str8ListJoin_plain_iff (strings : List Str8) (sep : Str8) :
    (∀ fill, ((strings.foldl str8ListPush {}).join fill sep).length =
      (strings.foldl str8ListPush {}).totalSize + sep.length * ((strings.foldl str8ListPush {}).nodeCount - 1)) ∧
    ((∀ fill, (strings.foldl str8ListPush {}).join fill sep = sep.intercalate strings) ↔
      sep = [] ∨ strings.length ≤ 1 ∨ strings.head? ≠ some []) := by
  simp only [str8ListJoin_pushed]
  refine ⟨fun fill => ?_, fun h => ?_, ?_⟩
  · rw [str8ListJoin_length, str8ListPush_foldl]
    simp
  · by_contra hbad
    obtain ⟨hsep, hlen, hhead⟩ : sep ≠ [] ∧ 1 < strings.length ∧ strings.head? = some [] := by
      simpa [not_or] using hbad
    obtain ⟨rest, rfl⟩ : ∃ rest, strings = [] :: rest := ⟨_, List.eq_cons_of_mem_head? hhead⟩
    -- a byte is left as the arena had it, so two arenas give two results
    have hlt : 0 < (([] :: rest).map List.length).sum + sep.length * (([] :: rest).length - 1) -
        (str8ListJoinLoop sep ([] :: rest) []).length := by
      rw [str8ListJoin_unwritten, Nat.sub_pos_iff_lt]
      have hle := (List.dropWhile_sublist List.isEmpty (l := rest)).length_le
      apply Nat.mul_lt_mul_of_pos_left _ (List.length_pos_iff.mpr hsep)
      simp only [List.length_cons, List.dropWhile_cons, List.isEmpty_nil, if_true] at hlen ⊢
      omega
    have heq := (h fun _ => 0).trans (h fun _ => 1).symm
    rw [str8ListJoin, str8ListJoin] at heq
    have hfill := List.append_cancel_left heq
    exact absurd (List.map_inj_left.mp hfill 0 (List.mem_range.mpr hlt)) (by decide)
  · rintro (rfl | hlen | hhead) fill
    · have hflat : ∀ list : List Str8, ([] : Str8).intercalate list = list.flatten := by
        intro list
        cases list with
        | nil => rfl
        | cons s rest => simp [intercalate_cons, List.flatMap_id']
      have hdrop : (strings.dropWhile List.isEmpty).flatten = strings.flatten := by
        induction strings with
        | nil => rfl
        | cons s rest ih =>
          cases s with
          | nil => simpa using ih
          | cons b s => rfl
      simp only [str8ListJoin]
      rw [str8ListJoin_unwritten, str8ListJoinLoop_nil, hflat, hflat, hdrop]
      simp
    · rcases strings with _ | ⟨s, _ | ⟨t, rest⟩⟩
      · rfl
      · cases s with
        | nil => rfl
        | cons b s => exact str8ListJoin_eq fill sep (by simp)
      · simp at hlen
    · exact str8ListJoin_eq fill sep hhead

/-- An empty string and `a`, joined with a comma: the comma is left out and the last byte is whatever was there. -/
theorem str8ListJoin_leading_empty :
    (([[], lit "a"]).foldl str8ListPush {}).join (fun _ => 0) (lit ",") = [97, 0] ∧
      (lit ",").intercalate [[], lit "a"] = lit ",a" := by
  decide

theorem mem_intercalate {sep : Str8} {list : List Str8} (h : b ∈ sep.intercalate list) :
    b ∈ sep ∨ ∃ s ∈ list, b ∈ s := by
  cases list with
  | nil => simp [List.intercalate] at h
  | cons s rest =>
    rw [intercalate_cons, List.mem_append, List.mem_flatMap] at h
    rcases h with h | ⟨t, ht, h⟩
    · exact .inr ⟨s, List.mem_cons_self, h⟩
    · rcases List.mem_append.mp h with h | h
      · exact .inl h
      · exact .inr ⟨t, List.mem_cons_of_mem s ht, h⟩

/-- What `%.*s` prints of a view: the bytes before the first NUL. (The precision is cast to `int`, so
    this is the behaviour on views shorter than `2^31` bytes.) -/
def fmtS (s : Str8) : Str8 := s.takeWhile (· != 0)

theorem fmtS_eq_self (h : ∀ b ∈ s, b ≠ 0) : fmtS s = s := by
  unfold fmtS
  rw [List.takeWhile_eq_self_iff]
  intro b hb
  simpa using h b hb

/-! ## Writing numbers -/

/-- `hex_digit_lower`. -/
def hexDigitLower (v : UInt8) : UInt8 := (lit "0123456789abcdef").getD (v &&& 15).toNat 0

/-- The loop of `str8_from_u64` that writes the digits, the last one first. `room` is what is left of the 64
    bytes of `tmp`. -/
def u64DigitsLoop (radix : Nat) : Nat → Nat → Str8 → Str8
  | 0, _, tmp => tmp
  | room + 1, value, tmp =>
    let tmp := tmp ++ [hexDigitLower (UInt8.ofNat (value % radix))]
    if value / radix ≠ 0 then u64DigitsLoop radix room (value / radix) tmp else tmp

/-- `str8_from_u64`. -/
def str8FromU64 (value radix minDigits : Nat) : Str8 :=
  let radix := if radix < 2 ∨ radix > 16 then 10 else radix
  let tmp := u64DigitsLoop radix 64 value []
  (tmp ++ List.replicate (min minDigits 64 - tmp.length) 48).reverse

theorem hexDigitLower_ofNat : ∀ d < 16, hexDigitLower (UInt8.ofNat d) = UInt8.ofNat (Nat.digitChar d).toNat := by
  decide

theorem u64DigitsLoop_eq {radix : Nat} (hlo : 1 < radix) (hhi : radix ≤ 16) (room value : Nat) (tmp : Str8)
    (h : value < radix ^ (room + 1)) :
    (u64DigitsLoop radix (room + 1) value tmp).reverse =
      (Nat.toDigits radix value).map (fun c => UInt8.ofNat c.toNat) ++ tmp.reverse := by
  have hdigit : ∀ v, hexDigitLower (UInt8.ofNat (v % radix)) = UInt8.ofNat (Nat.digitChar (v % radix)).toNat :=
    fun v => hexDigitLower_ofNat _ (Nat.lt_of_lt_of_le (Nat.mod_lt _ (Nat.zero_lt_of_lt hlo)) hhi)
  induction room generalizing value tmp with
  | zero =>
    rw [Nat.pow_one] at h
    rw [u64DigitsLoop, hdigit, Nat.div_eq_of_lt h, Nat.mod_eq_of_lt h, Nat.toDigits_of_lt_base h]
    simp
  | succ room ih =>
    rw [u64DigitsLoop, hdigit]
    by_cases hlast : value < radix
    · rw [Nat.div_eq_of_lt hlast, Nat.mod_eq_of_lt hlast, Nat.toDigits_of_lt_base hlast]
      simp
    · have hle := Nat.le_of_not_lt hlast
      have hmore : value / radix ≠ 0 := Nat.ne_of_gt (Nat.div_pos hle (Nat.zero_lt_of_lt hlo))
      have hdiv : value / radix < radix ^ (room + 1) := by
        rw [Nat.div_lt_iff_lt_mul (Nat.zero_lt_of_lt hlo), ← Nat.pow_succ]
        exact h
      rw [if_pos hmore, ih _ _ hdiv, Nat.toDigits_of_base_le hlo hle]
      simp

/-- Up to `minDigits`, zeros stand in front of the digits. -/
theorem str8FromU64_padded {value minDigits : Nat} (h : value < 2 ^ 64) (hmin : minDigits ≤ 64) :
    str8FromU64 value 10 minDigits =
      List.replicate (minDigits - (decimal value).length) 48 ++ decimal value := by
  have hfits : value < 10 ^ (63 + 1) := Nat.lt_of_lt_of_le h (by decide)
  have hloop : (u64DigitsLoop 10 64 value []).reverse = decimal value := by
    simpa [decimal] using u64DigitsLoop_eq (by decide) (by decide) 63 value [] hfits
  have hlen : (u64DigitsLoop 10 64 value []).length = (decimal value).length := by
    rw [← hloop, List.length_reverse]
  simp [str8FromU64, hloop, hlen, Nat.min_eq_left hmin]

theorem str8FromU64_decimal {value : Nat} (h : value < 2 ^ 64) : str8FromU64 value 10 0 = decimal value := by
  rw [str8FromU64_padded h (Nat.zero_le 64), Nat.zero_sub]
  rfl

theorem digitsValue_zeros (n : Nat) (ds : Str8) :
    digitsValue (List.replicate n 48 ++ ds) 0 = digitsValue ds 0 := by
  induction n with
  | zero => rfl
  | succ n ih => exact ih

/-- Both readers give the value of the leading digits, cut off at `2^64 - 1`, and `str8_chop_u64` leaves what
    follows them; what `str8_from_u64` writes is read back, whatever the padding. -/
theorem decimal_saturates_and_inverts :
    (∀ s, str8ToU64 s = min u64Max (digitsValue (s.takeWhile charIsDigit) 0) ∧
      str8ChopU64 s = (min u64Max (digitsValue (s.takeWhile charIsDigit) 0), s.dropWhile charIsDigit)) ∧
    ∀ v minDigits, v < 2 ^ 64 → minDigits ≤ 64 →
      str8ToU64 (str8FromU64 v 10 minDigits) = v ∧ minDigits ≤ (str8FromU64 v 10 minDigits).length ∧
        ∀ c ∈ str8FromU64 v 10 minDigits, charIsDigit c = true := by
  refine ⟨fun s => ?_, fun v minDigits hv hmin => ?_⟩
  · rw [Nat.min_comm]
    exact ⟨str8ToU64_eq s, Prod.ext (str8ChopU64_fst s) (str8ChopU64_snd s)⟩
  · rw [str8FromU64_padded hv hmin]
    have hdigits : ∀ c ∈ List.replicate (minDigits - (decimal v).length) 48 ++ decimal v, charIsDigit c = true := by
      intro c hc
      rcases List.mem_append.mp hc with hc | hc
      · rw [List.eq_of_mem_replicate hc]
        rfl
      · exact charIsDigit_of_mem_decimal hc
    refine ⟨?_, ?_, hdigits⟩
    · rw [str8ToU64_eq, List.takeWhile_eq_self_iff.mpr hdigits, digitsValue_zeros, digitsValue_decimal]
      exact Nat.min_eq_left (Nat.le_sub_one_of_lt hv)
    · rw [List.length_append, List.length_replicate]
      omega

theorem decimal_saturates_and_inverts_padded :
    str8ToU64 (str8FromU64 7 10 3) = 7 ∧ 3 ≤ (str8FromU64 7 10 3).length ∧
      ∀ c ∈ str8FromU64 7 10 3, charIsDigit c = true :=
  decimal_saturates_and_inverts.2 7 3 (by decide) (by decide)

theorem decimal_ne_nil (n : Nat) : decimal n ≠ [] := by
  unfold decimal
  rw [ne_eq, List.map_eq_nil_iff]
  exact Nat.toDigits_ne_nil

end HolyTls

import Mathlib.Tactic
import HolyTls.Base.Str8

/-!
# `Base.Base64` — standard and URL-safe base64 (`src/base/base64.c`)

The bits of a group of three bytes are kept as one number, as in the source; its shifts and masks are
divisions and remainders here. Decoding inverts encoding for every byte string
(`base64Decode_base64Encode`), and `base64Decode_ne_nil` says which texts are accepted; the URL-safe
variant is the same text under another alphabet and without its padding.
-/

namespace HolyTls

/-- `k_b64_enc`. -/
def b64Enc : Str8 := lit "ABCDEFGHIJKLMNOPQRSTUVWXYZabcdefghijklmnopqrstuvwxyz0123456789+/"

/-- The character for the low six bits of `n`. -/
def b64Char (n : Nat) : UInt8 := b64Enc.getD (n % 64) 0

/-- `base64_encode`. -/
def base64Encode : Str8 → Str8
  | a :: b :: c :: rest =>
    let n := a.toNat * 65536 + b.toNat * 256 + c.toNat
    b64Char (n / 262144) :: b64Char (n / 4096) :: b64Char (n / 64) :: b64Char n :: base64Encode rest
  | [a, b] =>
    let n := a.toNat * 65536 + b.toNat * 256
    [b64Char (n / 262144), b64Char (n / 4096), b64Char (n / 64), 61]
  | [a] =>
    let n := a.toNat * 65536
    [b64Char (n / 262144), b64Char (n / 4096), 61, 61]
  | [] => []

/-- `b64_rev`: below 64 a digit, `0xfe` padding, `0xff` anything else. -/
def b64Rev (ch : UInt8) : Nat :=
  if charIsUpper ch then ch.toNat - 65
  else if charIsLower ch then ch.toNat - 97 + 26
  else if charIsDigit ch then ch.toNat - 48 + 52
  else if ch = 43 then 62
  else if ch = 47 then 63
  else if ch = 61 then 0xfe
  else 0xff

/-- The bytes of one group of four characters, if it is well formed. -/
def b64Quad (a b c d : Nat) (last : Bool) : Option Str8 :=
  let cPad := c == 0xfe
  let dPad := d == 0xfe
  if 64 ≤ a || 64 ≤ b then none
  else if c == 0xff || d == 0xff then none
  else if cPad && !dPad then none
  else if (cPad || dPad) && !last then none
  else
    let n := a * 262144 + b * 4096
    some (UInt8.ofNat (n / 65536 % 256) ::
      if cPad then []
      else UInt8.ofNat ((n + c * 64) / 256 % 256) ::
        if dPad then [] else [UInt8.ofNat ((n + c * 64 + d) % 256)])

/-- The loop of `base64_decode`. -/
def base64DecodeLoop : Str8 → Option Str8
  | w :: x :: y :: z :: rest => do
      let out ← b64Quad (b64Rev w) (b64Rev x) (b64Rev y) (b64Rev z) rest.isEmpty
      let more ← base64DecodeLoop rest
      pure (out ++ more)
  | [] => some []
  -- not reached: the length is a multiple of four
  | _ => none

/-- `base64_decode`: the empty string for anything malformed. -/
def base64Decode (s : Str8) : Str8 :=
  if s.isEmpty || s.length % 4 ≠ 0 then [] else (base64DecodeLoop s).getD []

/-! ## Decoding inverts encoding -/

theorem b64Rev_b64Char (n : Nat) : b64Rev (b64Char n) = n % 64 := by
  have h : ∀ k : Fin 64, b64Rev (b64Enc.getD k 0) = k := by decide +kernel
  exact h ⟨n % 64, Nat.mod_lt n (by decide)⟩

theorem b64Char_mem (n : Nat) : b64Char n ∈ b64Enc := by
  have hlt : n % 64 < b64Enc.length := Nat.mod_lt n (by decide)
  rw [b64Char, List.getD_eq_getElem?_getD, List.getElem?_eq_getElem hlt]
  exact List.getElem_mem hlt

theorem b64Rev_pad : b64Rev 61 = 0xfe := by decide

theorem sixBits_ne (k : Nat) :
    (k % 64 == 0xfe) = false ∧ (k % 64 == 0xff) = false ∧ decide (64 ≤ k % 64) = false := by
  have hlt : k % 64 < 64 := Nat.mod_lt k (by decide)
  exact ⟨beq_false_of_ne (by omega), beq_false_of_ne (by omega), decide_eq_false (by omega)⟩

theorem sixBits_bytes {n : Nat} (hn : n < 16777216) :
    (n / 262144 % 64 * 262144 + n / 4096 % 64 * 4096) / 65536 % 256 = n / 65536 ∧
      (n / 262144 % 64 * 262144 + n / 4096 % 64 * 4096 + n / 64 % 64 * 64) / 256 % 256 = n / 256 % 256 ∧
        (n / 262144 % 64 * 262144 + n / 4096 % 64 * 4096 + n / 64 % 64 * 64 + n % 64) % 256 = n % 256 := by
  refine ⟨?_, ?_, ?_⟩ <;> omega

/-- A group of three bytes comes back. -/
theorem b64Quad_three (a b c : UInt8) (last : Bool) {n : Nat}
    (hn : n = a.toNat * 65536 + b.toNat * 256 + c.toNat) :
    b64Quad (n / 262144 % 64) (n / 4096 % 64) (n / 64 % 64) (n % 64) last = some [a, b, c] := by
  have ha := a.toNat_lt
  have hb := b.toNat_lt
  have hc := c.toNat_lt
  obtain ⟨h₁, h₂, h₃⟩ := sixBits_bytes (n := n) (by omega)
  rw [show n / 65536 = a.toNat by omega] at h₁
  rw [show n / 256 % 256 = b.toNat by omega] at h₂
  rw [show n % 256 = c.toNat by omega] at h₃
  simp only [b64Quad, (sixBits_ne _).1, (sixBits_ne _).2.1, (sixBits_ne _).2.2, Bool.or_self, Bool.false_and,
    Bool.false_eq_true, if_false, h₁, h₂, h₃, UInt8.ofNat_toNat]

/-- The last two bytes come back. -/
theorem b64Quad_two (a b : UInt8) {n : Nat} (hn : n = a.toNat * 65536 + b.toNat * 256) :
    b64Quad (n / 262144 % 64) (n / 4096 % 64) (n / 64 % 64) 0xfe true = some [a, b] := by
  have ha := a.toNat_lt
  have hb := b.toNat_lt
  obtain ⟨h₁, h₂, -⟩ := sixBits_bytes (n := n) (by omega)
  rw [show n / 65536 = a.toNat by omega] at h₁
  rw [show n / 256 % 256 = b.toNat by omega] at h₂
  simp [b64Quad, (sixBits_ne _).1, (sixBits_ne _).2.1, (sixBits_ne _).2.2, h₁, h₂]

/-- The last byte comes back. -/
theorem b64Quad_one (a : UInt8) {n : Nat} (hn : n = a.toNat * 65536) :
    b64Quad (n / 262144 % 64) (n / 4096 % 64) 0xfe 0xfe true = some [a] := by
  have ha := a.toNat_lt
  obtain ⟨h₁, -, -⟩ := sixBits_bytes (n := n) (by omega)
  rw [show n / 65536 = a.toNat by omega] at h₁
  simp [b64Quad, (sixBits_ne _).2.2, h₁]

theorem base64Encode_length_mod (s : Str8) : (base64Encode s).length % 4 = 0 := by
  fun_induction base64Encode s with
  | case1 a b c rest n ih =>
    simp only [List.length_cons]
    omega
  | case2 a b n => simp
  | case3 a n => simp
  | case4 => rfl

theorem base64Encode_eq_nil {s : Str8} : base64Encode s = [] ↔ s = [] := by
  fun_cases base64Encode s <;> simp

theorem base64DecodeLoop_base64Encode (s : Str8) : base64DecodeLoop (base64Encode s) = some s := by
  fun_induction base64Encode s with
  | case1 a b c rest n ih =>
    simp only [base64DecodeLoop, b64Rev_b64Char, ih]
    rw [b64Quad_three a b c _ rfl]
    rfl
  | case2 a b n =>
    simp only [base64DecodeLoop, b64Rev_b64Char, b64Rev_pad, List.isEmpty_nil]
    rw [b64Quad_two a b rfl]
    rfl
  | case3 a n =>
    simp only [base64DecodeLoop, b64Rev_b64Char, b64Rev_pad, List.isEmpty_nil]
    rw [b64Quad_one a rfl]
    rfl
  | case4 => rfl

theorem base64Decode_base64Encode (s : Str8) : base64Decode (base64Encode s) = s := by
  unfold base64Decode
  rw [base64DecodeLoop_base64Encode, base64Encode_length_mod]
  by_cases h : s = []
  · subst h
    rfl
  · have hne : (base64Encode s).isEmpty = false := by
      rw [List.isEmpty_eq_false_iff]
      exact fun he => h (base64Encode_eq_nil.mp he)
    simp [hne]

/-! ## What is accepted -/

/-- Characters of the alphabet, then at most two `=`. -/
def B64Text (s : Str8) : Prop :=
  ∃ body pad, s = body ++ List.replicate pad 61 ∧ pad ≤ 2 ∧ ∀ c ∈ body, c ∈ b64Enc

/-- Every byte is a digit, padding or invalid. -/
theorem b64Rev_cases (c : UInt8) :
    (c ∈ b64Enc ∧ b64Rev c < 64) ∨ (c = 61 ∧ b64Rev c = 0xfe) ∨ (c ∉ b64Enc ∧ c ≠ 61 ∧ b64Rev c = 0xff) := by
  have hbyte : ∀ n < 256, (b64Rev (UInt8.ofNat n) < 64 ∧ b64Char (b64Rev (UInt8.ofNat n)) = UInt8.ofNat n) ∨
      (UInt8.ofNat n = 61 ∧ b64Rev (UInt8.ofNat n) = 0xfe) ∨
        (UInt8.ofNat n ≠ 61 ∧ b64Rev (UInt8.ofNat n) = 0xff) := by
    decide +kernel
  have hdigit : ∀ c ∈ b64Enc, b64Rev c < 64 := by decide +kernel
  have hc := hbyte c.toNat c.toNat_lt
  rw [UInt8.ofNat_toNat] at hc
  rcases hc with ⟨hlt, hchar⟩ | hpad | ⟨hne, hbad⟩
  · exact .inl ⟨hchar ▸ b64Char_mem _, hlt⟩
  · exact .inr (.inl hpad)
  · exact .inr (.inr ⟨fun hmem => absurd (hdigit c hmem) (by omega), hne, hbad⟩)

theorem pad_not_mem_b64Enc : (61 : UInt8) ∉ b64Enc := by decide

/-- A group is well formed when it has two digits and then two digits, or, at the end, padding. -/
theorem b64Quad_isSome (w x y z : UInt8) (last : Bool) :
    (b64Quad (b64Rev w) (b64Rev x) (b64Rev y) (b64Rev z) last).isSome = true ↔
      w ∈ b64Enc ∧ x ∈ b64Enc ∧ ((y ∈ b64Enc ∧ z ∈ b64Enc) ∨
        (last = true ∧ z = 61 ∧ (y ∈ b64Enc ∨ y = 61))) := by
  have hpad := pad_not_mem_b64Enc
  have hw := b64Rev_cases w
  have hx := b64Rev_cases x
  have hy := b64Rev_cases y
  have hz := b64Rev_cases z
  unfold b64Quad
  grind

theorem B64Text.last {w x y z : UInt8} :
    B64Text [w, x, y, z] ↔ w ∈ b64Enc ∧ x ∈ b64Enc ∧ ((y ∈ b64Enc ∧ z ∈ b64Enc) ∨
      (z = 61 ∧ (y ∈ b64Enc ∨ y = 61))) := by
  constructor
  · rintro ⟨body, pad, hs, hpad, hbody⟩
    obtain rfl | rfl | rfl : pad = 0 ∨ pad = 1 ∨ pad = 2 := by omega
    · obtain rfl : body = [w, x, y, z] := by simpa using hs.symm
      have hall : w ∈ b64Enc ∧ x ∈ b64Enc ∧ y ∈ b64Enc ∧ z ∈ b64Enc := by simpa using hbody
      exact ⟨hall.1, hall.2.1, .inl hall.2.2⟩
    · obtain ⟨rfl, hz⟩ := List.append_inj' (show [w, x, y] ++ [z] = body ++ [61] from hs) rfl
      simp_all
    · obtain ⟨rfl, hyz⟩ := List.append_inj' (show [w, x] ++ [y, z] = body ++ [61, 61] from hs) rfl
      simp_all
  · rintro ⟨hw, hx, ⟨hy, hz⟩ | ⟨rfl, hy | rfl⟩⟩
    · exact ⟨[w, x, y, z], 0, rfl, by decide, by simp [hw, hx, hy, hz]⟩
    · exact ⟨[w, x, y], 1, rfl, by decide, by simp [hw, hx, hy]⟩
    · exact ⟨[w, x], 2, rfl, by decide, by simp [hw, hx]⟩

theorem B64Text.more {w x y z : UInt8} {rest : Str8} (hlen : 2 ≤ rest.length) :
    B64Text (w :: x :: y :: z :: rest) ↔
      w ∈ b64Enc ∧ x ∈ b64Enc ∧ y ∈ b64Enc ∧ z ∈ b64Enc ∧ B64Text rest := by
  constructor
  · rintro ⟨body, pad, hs, hpad, hbody⟩
    have hcut : body.length + pad = rest.length + 4 := by simpa using (congrArg List.length hs).symm
    obtain ⟨four, tail, rfl, hfour⟩ : ∃ four tail, body = four ++ tail ∧ four.length = 4 :=
      ⟨body.take 4, body.drop 4, (List.take_append_drop 4 body).symm, by
        rw [List.length_take]
        omega⟩
    rw [List.append_assoc] at hs
    obtain ⟨rfl, hrest⟩ := List.append_inj (show [w, x, y, z] ++ rest = _ from hs) hfour.symm
    simp only [List.forall_mem_append, List.forall_mem_cons] at hbody
    exact ⟨hbody.1.1, hbody.1.2.1, hbody.1.2.2.1, hbody.1.2.2.2.1, tail, pad, hrest, hpad, hbody.2⟩
  · rintro ⟨hw, hx, hy, hz, body, pad, rfl, hpad, hbody⟩
    refine ⟨w :: x :: y :: z :: body, pad, rfl, hpad, ?_⟩
    simp only [List.forall_mem_cons]
    exact ⟨hw, hx, hy, hz, hbody⟩

theorem base64DecodeLoop_isSome {s : Str8} (hlen : s.length % 4 = 0) :
    (base64DecodeLoop s).isSome = true ↔ B64Text s := by
  fun_induction base64DecodeLoop s with
  | case1 w x y z rest ih =>
    have hrest : rest.length % 4 = 0 := by
      simp only [List.length_cons] at hlen
      omega
    have hloop : (base64DecodeLoop (w :: x :: y :: z :: rest)).isSome = true ↔
        (b64Quad (b64Rev w) (b64Rev x) (b64Rev y) (b64Rev z) rest.isEmpty).isSome = true ∧
          (base64DecodeLoop rest).isSome = true := by
      rw [base64DecodeLoop]
      cases b64Quad (b64Rev w) (b64Rev x) (b64Rev y) (b64Rev z) rest.isEmpty with
      | none => simp
      | some out => cases base64DecodeLoop rest <;> simp
    rw [base64DecodeLoop] at hloop
    rw [hloop, b64Quad_isSome, ih hrest]
    rcases rest with _ | ⟨b, rest⟩
    · have hnil : B64Text [] := ⟨[], 0, rfl, by decide, by simp⟩
      simp [B64Text.last, hnil]
    · rw [B64Text.more (by simp only [List.length_cons] at hrest ⊢; omega)]
      simp [and_assoc]
  | case2 => exact ⟨fun _ => ⟨[], 0, rfl, by decide, by simp⟩, fun _ => rfl⟩
  | case3 s hquad hnil =>
    rcases s with _ | ⟨w, _ | ⟨x, _ | ⟨y, _ | ⟨z, rest⟩⟩⟩⟩
    · exact absurd rfl hnil
    · simp at hlen
    · simp at hlen
    · simp at hlen
    · exact absurd rfl (hquad w x y z rest)

theorem base64DecodeLoop_nil {s : Str8} (h : base64DecodeLoop s = some []) : s = [] := by
  fun_cases base64DecodeLoop s with
  | case1 w x y z rest =>
    have hquad : b64Quad (b64Rev w) (b64Rev x) (b64Rev y) (b64Rev z) rest.isEmpty ≠ some [] := by
      unfold b64Quad
      grind
    rw [base64DecodeLoop] at h
    obtain ⟨hnil, -⟩ : b64Quad (b64Rev w) (b64Rev x) (b64Rev y) (b64Rev z) rest.isEmpty = some [] ∧
        base64DecodeLoop rest = some [] := by
      simpa [Option.bind_eq_some_iff] using h
    exact absurd hnil hquad
  | case2 => rfl
  | case3 hquad hnil => simp_all [base64DecodeLoop]

theorem base64Decode_ne_nil (s : Str8) : base64Decode s ≠ [] ↔ s ≠ [] ∧ s.length % 4 = 0 ∧ B64Text s := by
  unfold base64Decode
  by_cases hs : s = []
  · simp [hs]
  by_cases hlen : s.length % 4 = 0
  · have hcond : (s.isEmpty || decide (s.length % 4 ≠ 0)) = false := by simp [hs, hlen]
    rw [hcond, ← base64DecodeLoop_isSome hlen]
    cases hloop : base64DecodeLoop s with
    | none => simp
    | some out =>
      have hout : out ≠ [] := by
        rintro rfl
        exact hs (base64DecodeLoop_nil hloop)
      simp [hs, hlen, hout]
  · simp [hlen]

theorem base64Encode_text (s : Str8) : B64Text (base64Encode s) := by
  rw [← base64DecodeLoop_isSome (base64Encode_length_mod s), base64DecodeLoop_base64Encode]
  rfl

/-! ## The URL-safe alphabet -/

/-- The alphabet of `base64url_encode`. -/
def b64urlEnc : Str8 := lit "ABCDEFGHIJKLMNOPQRSTUVWXYZabcdefghijklmnopqrstuvwxyz0123456789-_"

/-- The translation in `base64url_encode`. -/
def b64ToUrl (c : UInt8) : UInt8 := if c = 43 then 45 else if c = 47 then 95 else c

/-- The translation in `base64url_decode`. -/
def b64FromUrl (c : UInt8) : UInt8 := if c = 45 then 43 else if c = 95 then 47 else c

/-- `base64url_encode`. -/
def base64urlEncode (raw : Str8) : Str8 := ((base64Encode raw).rdropWhile (· == 61)).map b64ToUrl

/-- `base64url_decode`. -/
def base64urlDecode (s : Str8) : Str8 :=
  if s.isEmpty then []
  else
    let pad := (4 - s.length % 4) % 4
    if pad = 3 then [] else base64Decode (s.map b64FromUrl ++ List.replicate pad 61)

theorem b64FromUrl_b64ToUrl : ∀ c ∈ b64Enc, b64FromUrl (b64ToUrl c) = c ∧ b64ToUrl c ∈ b64urlEnc := by
  decide +kernel

/-- The URL-safe form of a padded text is its digits, translated. -/
theorem base64urlEncode_body (raw : Str8) :
    ∃ body pad, base64Encode raw = body ++ List.replicate pad 61 ∧ pad ≤ 2 ∧ (∀ c ∈ body, c ∈ b64Enc) ∧
      base64urlEncode raw = body.map b64ToUrl := by
  obtain ⟨body, pad, henc, hpad, hbody⟩ := base64Encode_text raw
  refine ⟨body, pad, henc, hpad, hbody, ?_⟩
  have hstrip : (body ++ List.replicate pad 61).rdropWhile (· == 61) = body := by
    clear henc hpad
    induction pad with
    | zero =>
      rw [List.replicate_zero, List.append_nil, List.rdropWhile_eq_self_iff]
      intro hne hlast
      rw [beq_iff_eq] at hlast
      exact pad_not_mem_b64Enc (hlast ▸ hbody _ (List.getLast_mem hne))
    | succ pad ih =>
      rw [List.replicate_succ', ← List.append_assoc, List.rdropWhile_concat_pos _ _ _ rfl]
      exact ih
  rw [base64urlEncode, henc, hstrip]

theorem base64urlDecode_base64urlEncode (raw : Str8) : base64urlDecode (base64urlEncode raw) = raw := by
  obtain ⟨body, pad, henc, hpad, hbody, hurl⟩ := base64urlEncode_body raw
  have hlen : (body.length + pad) % 4 = 0 := by
    simpa [henc] using base64Encode_length_mod raw
  have hback : (body.map b64ToUrl).map b64FromUrl = body := by
    rw [List.map_map]
    exact (List.map_congr_left fun c hc => (b64FromUrl_b64ToUrl c (hbody c hc)).1).trans (List.map_id body)
  have hpads : (4 - (body.map b64ToUrl).length % 4) % 4 = pad := by
    rw [List.length_map]
    omega
  rw [base64urlDecode, hurl]
  by_cases hnil : body = []
  · subst hnil
    obtain rfl : pad = 0 := by
      rw [List.length_nil] at hlen
      omega
    rw [base64Encode_eq_nil.mp henc]
    rfl
  · rw [if_neg (by simpa using hnil)]
    simp only [hpads, hback]
    rw [if_neg (by omega), ← henc, base64Decode_base64Encode]

/-- Both codecs invert their encoder, the URL-safe one writes URL-safe characters only, and `base64_decode` accepts
    what is padded to a multiple of four. -/
theorem base64_codecs_agree :
    (∀ x, base64Decode (base64Encode x) = x ∧ base64urlDecode (base64urlEncode x) = x ∧
      ∀ c ∈ base64urlEncode x, c ∈ b64urlEnc) ∧
    ∀ s, base64Decode s ≠ [] ↔ s ≠ [] ∧ s.length % 4 = 0 ∧ B64Text s := by
  refine ⟨fun x => ⟨base64Decode_base64Encode x, base64urlDecode_base64urlEncode x, fun c hc => ?_⟩,
    base64Decode_ne_nil⟩
  obtain ⟨body, pad, -, -, hbody, hurl⟩ := base64urlEncode_body x
  rw [hurl] at hc
  obtain ⟨b, hb, rfl⟩ := List.mem_map.mp hc
  exact (b64FromUrl_b64ToUrl b (hbody b hb)).2

end HolyTls

import HolyTls.H3.Request
import HolyTls.Lib.ByteMem

/-!
# `H3.Varint` — QUIC varints (`src/h3/h3_control.c`)

The two high bits of the first byte give the length of a varint, 1, 2, 4 or 8 bytes; the other 62 bits are
the number, most significant byte first. `quicVarintPut_eq` says that of `quic_varint_put`, and
`quicVarintGet_put` that `quic_varint_get` reads it back whatever follows. No other text of the same number
is shorter (`quicVarintPut_minimal`).
-/

namespace HolyTls

open ByteMem (be ofBe)

/-- `quic_varint_get`: the number and how many bytes it took, 0 on a short buffer. -/
def quicVarintGet (p : Str8) : Nat × Nat :=
  match p with
  | [] => (0, 0)
  | b :: rest =>
    let n := 1 <<< (b >>> 6).toNat
    if p.length < n then (0, 0)
    else ((rest.take (n - 1)).foldl (fun v c => v <<< 8 ||| c.toNat) (b &&& 0x3f).toNat, n)

/-! ## Reading -/

theorem shift_or_byte (v : Nat) (c : UInt8) : v <<< 8 ||| c.toNat = v * 256 + c.toNat := by
  have hc : c.toNat < 2 ^ 8 := c.toNat_lt
  rw [← Nat.shiftLeft_add_eq_or_of_lt hc, Nat.shiftLeft_eq]

/-- The two high bits: the length class. -/
theorem toNat_shift_six (b : UInt8) : (b >>> 6).toNat = b.toNat / 64 := by
  rw [UInt8.toNat_shiftRight]
  exact Nat.shiftRight_eq_div_pow b.toNat 6

/-- What a varint with the first byte `b` says. -/
theorem quicVarintGet_cons (b : UInt8) (rest : Str8) :
    quicVarintGet (b :: rest) =
      if rest.length + 1 < 2 ^ (b >>> 6).toNat then (0, 0)
      else (ofBe (b.toNat % 64) (rest.take (2 ^ (b >>> 6).toNat - 1)), 2 ^ (b >>> 6).toNat) := by
  have hmask : (b &&& 0x3f).toNat = b.toNat % 64 := by
    rw [UInt8.toNat_and]
    exact Nat.and_two_pow_sub_one_eq_mod b.toNat 6
  have hfold : ∀ bs : Str8, bs.foldl (fun v c => v <<< 8 ||| c.toNat) (b.toNat % 64) = ofBe (b.toNat % 64) bs := by
    intro bs
    simp only [shift_or_byte, ofBe]
  simp only [quicVarintGet, Nat.one_shiftLeft, hmask, hfold, List.length_cons]

/-- A varint takes at least one byte and no more than there are; what it leaves is what follows it. -/
theorem quicVarintGet_consumed (p : Str8) : (quicVarintGet p).2 ≤ p.length := by
  cases p with
  | nil => exact Nat.le_refl 0
  | cons b rest =>
    rw [quicVarintGet_cons]
    split
    · exact Nat.zero_le _
    · next h => simpa using h

/-! ## Writing -/

/-- A first byte with the class `k` and the six bits `x`. -/
theorem first_byte {k x : Nat} (hk : k < 4) (hx : x < 64) :
    (k <<< 6 ||| x).toUInt8.toNat = k * 64 + x ∧ ((k <<< 6 ||| x).toUInt8 >>> 6).toNat = k := by
  have hor : k <<< 6 ||| x = k * 64 + x := by
    rw [← Nat.shiftLeft_add_eq_or_of_lt (show x < 2 ^ 6 from hx), Nat.shiftLeft_eq]
  have hnat : (k <<< 6 ||| x).toUInt8.toNat = k * 64 + x := by
    rw [hor, Nat.toUInt8_eq, UInt8.toNat_ofNat']
    omega
  refine ⟨hnat, ?_⟩
  rw [toNat_shift_six, hnat]
  omega

theorem be_shift (w v : Nat) : be (w + 1) v = (v >>> (8 * w)).toUInt8 :: be w v := by
  have hbyte : UInt8.ofNat (v / 256 ^ w % 256) = (v >>> (8 * w)).toUInt8 := by
    rw [Nat.shiftRight_eq_div_pow, Nat.pow_mul]
    apply UInt8.toNat_inj.mp
    simp
  rw [be, hbyte]

/-- The class of a number: the logarithm of the length of its varint. -/
def varintClass (v : Nat) : Nat := if v < 2 ^ 6 then 0 else if v < 2 ^ 14 then 1 else if v < 2 ^ 30 then 2 else 3

theorem varintClass_cases (v : Nat) :
    (varintClass v = 0 ∧ v < 0x40) ∨ (varintClass v = 1 ∧ 0x40 ≤ v ∧ v < 0x4000) ∨
      (varintClass v = 2 ∧ 0x4000 ≤ v ∧ v < 0x40000000) ∨ (varintClass v = 3 ∧ 0x40000000 ≤ v) := by
  unfold varintClass
  split
  · omega
  · split
    · omega
    · split <;> omega

theorem varintClass_lt (v : Nat) : varintClass v < 4 := by
  rcases varintClass_cases v with h | h | h | h <;> omega

/-- A varint is the class, and then the number in that many bytes. -/
theorem quicVarintPut_eq (v : Nat) :
    quicVarintPut v = (varintClass v <<< 6 ||| v >>> (8 * (2 ^ varintClass v - 1))).toUInt8 ::
      be (2 ^ varintClass v - 1) v := by
  unfold quicVarintPut
  rcases varintClass_cases v with ⟨hclass, h⟩ | ⟨hclass, hlow, h⟩ | ⟨hclass, hlow, h⟩ | ⟨hclass, hlow⟩
  · rw [if_pos h, hclass]
    simp [be]
  · rw [if_neg (by omega), if_pos h, hclass]
    simp only [Nat.reducePow, Nat.reduceSub, be_shift]
    rfl
  · rw [if_neg (by omega), if_neg (by omega), if_pos h, hclass]
    simp only [Nat.reducePow, Nat.reduceSub, be_shift]
    rfl
  · rw [if_neg (by omega), if_neg (by omega), if_neg (by omega), hclass]
    simp only [Nat.reducePow, Nat.reduceSub, be_shift]
    rfl

/-- The six bits of the first byte are enough for the class. -/
theorem varintClass_high {v : Nat} (hv : v < 2 ^ 62) : v / 256 ^ (2 ^ varintClass v - 1) < 64 := by
  rcases varintClass_cases v with ⟨hclass, h⟩ | ⟨hclass, -, h⟩ | ⟨hclass, -, h⟩ | ⟨hclass, -⟩ <;> rw [hclass] <;>
    simp only [Nat.reducePow, Nat.reduceSub] at hv ⊢ <;> omega

@[simp] theorem quicVarintPut_length (v : Nat) : (quicVarintPut v).length = 2 ^ varintClass v := by
  rw [quicVarintPut_eq, List.length_cons, ByteMem.be_length]
  have hpos : 0 < 2 ^ varintClass v := Nat.two_pow_pos _
  omega

/-- **What was written is read back**, whatever follows it. -/
theorem quicVarintGet_put {v : Nat} (hv : v < 2 ^ 62) (rest : Str8) :
    quicVarintGet (quicVarintPut v ++ rest) = (v, (quicVarintPut v).length) := by
  have hpos : 0 < 2 ^ varintClass v := Nat.two_pow_pos _
  have hhigh := varintClass_high hv
  have hshift : v >>> (8 * (2 ^ varintClass v - 1)) = v / 256 ^ (2 ^ varintClass v - 1) := by
    rw [Nat.shiftRight_eq_div_pow, Nat.pow_mul]
  obtain ⟨hnat, hclass⟩ := first_byte (varintClass_lt v) hhigh
  rw [quicVarintPut_length, quicVarintPut_eq, List.cons_append, quicVarintGet_cons, hshift, hclass, hnat]
  have hlen : ¬ (be (2 ^ varintClass v - 1) v ++ rest).length + 1 < 2 ^ varintClass v := by
    rw [List.length_append, ByteMem.be_length]
    omega
  have htake : (be (2 ^ varintClass v - 1) v ++ rest).take (2 ^ varintClass v - 1) = be (2 ^ varintClass v - 1) v :=
    List.take_left' (ByteMem.be_length _ _)
  rw [if_neg hlen, htake, Nat.mul_add_mod_of_lt hhigh, ByteMem.ofBe_be, Nat.div_add_mod']

/-- **No varint of the same number is shorter.** -/
theorem quicVarintPut_minimal {s : Str8} {v n : Nat} (h : quicVarintGet s = (v, n)) (hn : n ≠ 0) :
    (quicVarintPut v).length ≤ n := by
  cases s with
  | nil =>
    cases h
    exact absurd rfl hn
  | cons b rest =>
    rw [quicVarintGet_cons] at h
    split at h
    · cases h
      exact absurd rfl hn
    · next hlen =>
        cases h
        have hx : b.toNat % 64 + 1 ≤ 64 := by omega
        have hlt := ByteMem.ofBe_lt (rest.take (2 ^ (b >>> 6).toNat - 1)) (b.toNat % 64)
        have htake : (rest.take (2 ^ (b >>> 6).toNat - 1)).length = 2 ^ (b >>> 6).toNat - 1 := by
          rw [List.length_take]
          omega
        rw [htake] at hlt
        have hbound := Nat.lt_of_lt_of_le hlt (Nat.mul_le_mul_right _ hx)
        have hb := b.toNat_lt
        have hclass : (b >>> 6).toNat = 0 ∨ (b >>> 6).toNat = 1 ∨ (b >>> 6).toNat = 2 ∨ (b >>> 6).toNat = 3 := by
          rw [toNat_shift_six]
          omega
        rw [quicVarintPut_length]
        apply Nat.pow_le_pow_right (by decide)
        generalize ofBe (b.toNat % 64) (rest.take (2 ^ (b >>> 6).toNat - 1)) = w at hbound ⊢
        have hcases := varintClass_cases w
        rcases hclass with h | h | h | h <;> rw [h] at hbound ⊢ <;>
          simp only [Nat.reducePow, Nat.reduceSub] at hbound <;> omega

end HolyTls

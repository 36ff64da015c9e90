import Mathlib.Tactic

/-!
# `Lib.ByteMem` — byte memories and circular addressing

A memory is a function from addresses to bytes. `read` and `write` move whole byte strings, `le` and `ofLe`
are the little-endian encoding of numbers, `be` and `ofBe` the big-endian one, and the last section relates
**offsets** that only ever grow to the **addresses** they take in a circular buffer of `n` bytes: an offset
`x` lives at address `x % n`. Two ranges of offsets that together span at most `n` bytes do not meet in
memory (`disjoint_mod`).
-/

namespace ByteMem

abbrev Mem := Nat → UInt8

/-- `len` bytes from address `i` on. -/
def read (m : Mem) (i len : Nat) : List UInt8 := (List.range len).map (fun k => m (i + k))

/-- The memory after writing `bs` at address `i`. -/
def write (m : Mem) (i : Nat) (bs : List UInt8) : Mem :=
  fun j => if i ≤ j ∧ j < i + bs.length then bs.getD (j - i) 0 else m j

@[simp] theorem read_length (m : Mem) (i len : Nat) : (read m i len).length = len := by simp [read]

@[simp] theorem read_zero (m : Mem) (i : Nat) : read m i 0 = [] := rfl

theorem read_congr {m m' : Mem} {i len : Nat} (h : ∀ k, k < len → m' (i + k) = m (i + k)) :
    read m' i len = read m i len := by
  unfold read
  apply List.map_congr_left
  intro k hk
  exact h k (List.mem_range.mp hk)

theorem read_add (m : Mem) (i a b : Nat) : read m i (a + b) = read m i a ++ read m (i + a) b := by
  unfold read
  rw [List.range_add, List.map_append, List.map_map]
  congr 1
  apply List.map_congr_left
  intro k _
  simp [Nat.add_assoc]

theorem read_write_self (m : Mem) (i : Nat) (bs : List UInt8) :
    read (write m i bs) i bs.length = bs := by
  apply List.ext_getElem
  · simp
  · intro k hk _
    have hk' : k < bs.length := by simpa using hk
    simp [read, write, hk']

theorem write_nil (m : Mem) (i : Nat) : write m i [] = m := by
  funext j
  unfold write
  rw [if_neg]
  simp

theorem write_of_not_mem {m : Mem} {i j : Nat} {bs : List UInt8} (h : j < i ∨ i + bs.length ≤ j) :
    write m i bs j = m j := by
  unfold write
  rw [if_neg]
  omega

theorem read_write_of_disjoint {m : Mem} {i j len : Nat} {bs : List UInt8}
    (h : j + len ≤ i ∨ i + bs.length ≤ j) : read (write m i bs) j len = read m j len := by
  apply read_congr
  intro k hk
  apply write_of_not_mem
  omega

theorem write_read_self (m : Mem) (i len : Nat) : write m i (read m i len) = m := by
  funext j
  unfold write
  split
  · next h =>
      rw [read_length] at h
      have hlt : j - i < len := by omega
      have hj : i + (j - i) = j := by omega
      simp [read, List.getD, hlt, hj]
  · rfl

theorem read_drop (m : Mem) (i len n : Nat) : (read m i len).drop n = read m (i + n) (len - n) := by
  rcases Nat.le_total n len with h | h
  · obtain ⟨k, rfl⟩ := Nat.exists_eq_add_of_le h
    rw [read_add, List.drop_left' (read_length m i n), Nat.add_sub_cancel_left]
  · rw [List.drop_eq_nil_of_le (by simpa using h), Nat.sub_eq_zero_of_le h, read_zero]

theorem read_take (m : Mem) (i len n : Nat) : (read m i len).take n = read m i (min n len) := by
  rcases Nat.le_total n len with h | h
  · obtain ⟨k, rfl⟩ := Nat.exists_eq_add_of_le h
    rw [read_add, List.take_left' (read_length m i n), Nat.min_eq_left h]
  · rw [List.take_of_length_le (by simpa using h), Nat.min_eq_right h]

/-! ## Little-endian numbers -/

/-- The `w` low bytes of `n`, least significant first. -/
def le : Nat → Nat → List UInt8
  | 0, _ => []
  | w + 1, n => UInt8.ofNat (n % 256) :: le w (n / 256)

def ofLe : List UInt8 → Nat
  | [] => 0
  | b :: bs => b.toNat + 256 * ofLe bs

@[simp] theorem le_length (w n : Nat) : (le w n).length = w := by
  induction w generalizing n with
  | zero => rfl
  | succ w ih => rw [le, List.length_cons, ih]

theorem ofLe_le {w n : Nat} (h : n < 256 ^ w) : ofLe (le w n) = n := by
  induction w generalizing n with
  | zero =>
    have : n = 0 := by simpa using h
    rw [this]; rfl
  | succ w ih =>
    have hdiv : n / 256 < 256 ^ w := by
      rw [Nat.div_lt_iff_lt_mul (by omega)]
      rw [Nat.pow_succ] at h
      exact h
    have hbyte : (UInt8.ofNat (n % 256)).toNat = n % 256 := by
      rw [UInt8.toNat_ofNat']
      omega
    rw [le, ofLe, ih hdiv, hbyte]
    omega

/-! ## Big-endian numbers -/

/-- The `w` low bytes of `n`, most significant first. -/
def be : Nat → Nat → List UInt8
  | 0, _ => []
  | w + 1, n => UInt8.ofNat (n / 256 ^ w % 256) :: be w n

/-- The number whose leading digits are `x` and whose further digits are `bs`. -/
def ofBe (x : Nat) (bs : List UInt8) : Nat := bs.foldl (fun v b => v * 256 + b.toNat) x

@[simp] theorem be_length (w n : Nat) : (be w n).length = w := by
  induction w with
  | zero => rfl
  | succ w ih => rw [be, List.length_cons, ih]

theorem ofBe_be (w n x : Nat) : ofBe x (be w n) = x * 256 ^ w + n % 256 ^ w := by
  induction w generalizing x with
  | zero => simp [be, ofBe, Nat.mod_one]
  | succ w ih =>
    have hbyte : (UInt8.ofNat (n / 256 ^ w % 256)).toNat = n / 256 ^ w % 256 := by
      rw [UInt8.toNat_ofNat']
      omega
    have hmod : n % 256 ^ (w + 1) = n / 256 ^ w % 256 * 256 ^ w + n % 256 ^ w := by
      rw [Nat.pow_succ, Nat.mod_mul, Nat.add_comm, Nat.mul_comm (256 ^ w)]
    have hstep : ofBe x (be (w + 1) n) = ofBe (x * 256 + n / 256 ^ w % 256) (be w n) := by
      rw [be, ofBe, List.foldl_cons, hbyte]
      rfl
    rw [hstep, ih, hmod, Nat.add_mul, Nat.pow_succ, Nat.mul_comm (256 ^ w) 256, ← Nat.mul_assoc, Nat.add_assoc]

theorem ofBe_lt (bs : List UInt8) (x : Nat) : ofBe x bs < (x + 1) * 256 ^ bs.length := by
  induction bs generalizing x with
  | nil => simp [ofBe]
  | cons b bs ih =>
    have hb : b.toNat < 256 := b.toNat_lt
    have hle : (x * 256 + b.toNat + 1) * 256 ^ bs.length ≤ (x + 1) * 256 * 256 ^ bs.length :=
      Nat.mul_le_mul_right _ (by omega)
    calc ofBe x (b :: bs) = ofBe (x * 256 + b.toNat) bs := rfl
      _ < (x * 256 + b.toNat + 1) * 256 ^ bs.length := ih _
      _ ≤ (x + 1) * 256 * 256 ^ bs.length := hle
      _ = (x + 1) * 256 ^ (b :: bs).length := by rw [List.length_cons, Nat.pow_succ, Nat.mul_assoc, Nat.mul_comm 256]

/-! ## Circular addressing -/

/-- Inside a range that does not wrap, addresses advance with offsets. -/
theorem mod_add_of_fits {x i n : Nat} (h : x % n + i < n) : (x + i) % n = x % n + i := by
  rw [Nat.add_mod, Nat.mod_eq_of_lt (show i < n by omega), Nat.mod_eq_of_lt h]

/-- **Two ranges of offsets within one turn do not meet.** `[a, a + la)` comes before `[b, b + lb)` and both
    together span at most `n`: then the address ranges they start at are disjoint. -/
theorem disjoint_mod {a la b lb n : Nat} (hn : 0 < n) (hab : a + la ≤ b) (hspan : b + lb ≤ a + n) :
    a % n + la ≤ b % n ∨ b % n + lb ≤ a % n := by
  have hda := Nat.div_add_mod a n
  have hdb := Nat.div_add_mod b n
  have hma := Nat.mod_lt a hn
  have hmb := Nat.mod_lt b hn
  -- `b` lies in the same turn as `a` or in the next one
  have hlo : a / n ≤ b / n := Nat.div_le_div_right (by omega)
  have hhi : b / n ≤ a / n + 1 := by
    have : b / n ≤ (a + n) / n := Nat.div_le_div_right (by omega)
    rwa [Nat.add_div_right a hn] at this
  rcases Nat.lt_or_ge (a / n) (b / n) with hlt | hge
  · have hq : b / n = a / n + 1 := by omega
    rw [hq, Nat.mul_add, Nat.mul_one] at hdb
    right
    omega
  · have hq : b / n = a / n := by omega
    rw [hq] at hdb
    left
    omega

/-- Writing behind `mid` leaves the bytes at the offsets before it alone. -/
theorem write_agrees_before {m : Mem} {n lo mid x y : Nat} {bs : List UInt8} (hn : 0 < n)
    (hx : mid ≤ x) (hspan : x + bs.length ≤ lo + n) (hlo : lo ≤ y) (hy : y < mid) :
    write m (x % n) bs (y % n) = m (y % n) := by
  apply write_of_not_mem
  rcases disjoint_mod (a := y) (b := x) hn (show y + 1 ≤ x by omega)
    (show x + bs.length ≤ y + n by omega) with h | h
  · left
    omega
  · right
    omega

end ByteMem

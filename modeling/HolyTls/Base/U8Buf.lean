import HolyTls.Base.Str8
import HolyTls.Lib.ByteMem

/-!
# `Base.U8Buf` — the growable byte buffer (`src/base/u8buf.c`)

A `U8Buf` is a block of `cap` bytes of which the first `len` are in use. When an append does not fit, a larger
block is taken from the arena and the bytes in use are copied. What the arena holds in a fresh block is a
parameter (`fill`). Seen from outside an append is an append: `content_push`, `content_append`.
-/

namespace HolyTls

open ByteMem (Mem read write)

/-- `while (ncap < need) ncap *= 2`. -/
def doubleUntil (need : Nat) : Nat → Nat → Nat
  | 0, ncap => ncap
  | fuel + 1, ncap => if ncap < need then doubleUntil need fuel (ncap * 2) else ncap

/-- Doubling gets there: `need` turns are more than enough. -/
theorem doubleUntil_ge {need fuel ncap : Nat} (hpos : 0 < ncap) (hfuel : need ≤ ncap + fuel) :
    need ≤ doubleUntil need fuel ncap := by
  induction fuel generalizing ncap with
  | zero => exact hfuel
  | succ fuel ih =>
    rw [doubleUntil]
    split
    · exact ih (by omega) (by omega)
    · omega

/-- `U8Buf`, with the block it points to. -/
structure U8Buf where
  v : Mem
  len : Nat
  cap : Nat
  len_le : len ≤ cap

namespace U8Buf

/-- The bytes in use. -/
def content (b : U8Buf) : Str8 := read b.v 0 b.len

/-- `u8buf_init`. -/
def init (fill : Mem) (cap : Nat) : U8Buf := { v := fill, len := 0, cap := cap, len_le := Nat.zero_le cap }

/-- `u8buf_reserve`. -/
def reserve (fill : Mem) (b : U8Buf) (need : Nat) : U8Buf :=
  if b.len + need ≤ b.cap then b
  else
    let ncap := doubleUntil (b.len + need) (b.len + need) (if b.cap ≠ 0 then b.cap else 64)
    { v := if b.len ≠ 0 then write fill 0 (read b.v 0 b.len) else fill
      len := b.len
      cap := ncap
      len_le := by
        have hpos : 0 < if b.cap ≠ 0 then b.cap else 64 := by split <;> omega
        exact Nat.le_trans (Nat.le_add_right _ _) (doubleUntil_ge hpos (Nat.le_add_left _ _)) }

variable (fill : Mem) (b : U8Buf)

@[simp] theorem reserve_len (need : Nat) : (reserve fill b need).len = b.len := by
  unfold reserve
  split <;> rfl

theorem reserve_cap (need : Nat) : b.len + need ≤ (reserve fill b need).cap := by
  unfold reserve
  split
  · assumption
  · have hpos : 0 < if b.cap ≠ 0 then b.cap else 64 := by split <;> omega
    exact doubleUntil_ge hpos (Nat.le_add_left _ _)

@[simp] theorem reserve_content (need : Nat) : (reserve fill b need).content = b.content := by
  unfold reserve
  split
  · rfl
  · by_cases hlen : b.len = 0
    · simp only [content, hlen, ByteMem.read_zero]
    · have hcopy := ByteMem.read_write_self fill 0 (read b.v 0 b.len)
      rw [ByteMem.read_length] at hcopy
      simpa only [content, ne_eq, hlen, not_false_eq_true, if_true] using hcopy

/-- Bytes written behind the content, in a block that has room for them. -/
def put (bytes : Str8) (h : b.len + bytes.length ≤ b.cap) : U8Buf where
  v := write b.v b.len bytes
  len := b.len + bytes.length
  cap := b.cap
  len_le := h

theorem put_content (bytes : Str8) (h : b.len + bytes.length ≤ b.cap) :
    (b.put bytes h).content = b.content ++ bytes := by
  have hbefore : read (write b.v b.len bytes) 0 b.len = read b.v 0 b.len :=
    ByteMem.read_write_of_disjoint (.inl (by omega))
  simp only [content, put, ByteMem.read_add, hbefore, Nat.zero_add, ByteMem.read_write_self]

/-- `u8buf_push`. -/
def push (x : UInt8) : U8Buf :=
  (reserve fill b 1).put [x] (by rw [reserve_len]; exact reserve_cap fill b 1)

/-- `u8buf_append`. -/
def append (p : Str8) : U8Buf :=
  if p = [] then b
  else (reserve fill b p.length).put p (by rw [reserve_len]; exact reserve_cap fill b p.length)

@[simp] theorem content_push (x : UInt8) : (push fill b x).content = b.content ++ [x] := by
  rw [push, put_content, reserve_content]

@[simp] theorem content_append (p : Str8) : (append fill b p).content = b.content ++ p := by
  unfold append
  split
  · next h => rw [h, List.append_nil]
  · rw [put_content, reserve_content]

theorem length_content : b.content.length = b.len := ByteMem.read_length _ _ _

end U8Buf

end HolyTls

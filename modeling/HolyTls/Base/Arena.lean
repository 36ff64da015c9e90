import HolyTls.Lib.Slots
import HolyTls.Lib.StackAlloc

/-!
# `Base.Arena` — the arena allocator (`base/arena.c`)

An arena is a chain of blocks, each one `malloc`ed object of a 32-byte header and `cap` payload bytes. A push
bumps `used` of the current block, moves on to later blocks when there is no room, and grows the chain at its
end. Positions are offsets into the payloads laid end to end; popping goes back to a position.

The chain is modelled as the list of its blocks with the index of the current one, numbers are 64-bit words as
in the source, and what `malloc` answers is an argument: `none` is NULL. `Arena.Mapped` is what `malloc`
promises: objects lie in the address space, are no larger than `PTRDIFF_MAX` and do not overlap.

Over the source's state, `ArenaSys` keeps two books that the code does not have: the allocations that are live
and the open `Temp`s. `arenaStep_refines` says that each call is a step of the stack allocator of
`Lib.StackAlloc`, on positions.
-/

namespace HolyTls

open Runs StackAlloc

variable {mallocs : List (Option UInt64)} {align p pos size : UInt64}

/-! ## The source -/

structure ArenaBlock where
  addr : UInt64
  cap : UInt64
  used : UInt64
  basePos : UInt64
  deriving DecidableEq, Repr

/-- `(U8 *)(b + 1)`: the payload follows the header. -/
def ArenaBlock.data (b : ArenaBlock) : UInt64 := b.addr + 32

structure Arena where
  blocks : List ArenaBlock
  current : Nat
  blockSize : UInt64
  deriving DecidableEq, Repr

def arenaDefaultBlock : UInt64 := 64 * 1024

/-- `AlignPow2`. -/
def alignPow2 (x p : UInt64) : UInt64 := (x + (p - 1)) &&& ~~~(p - 1)

/-- `Max`. -/
def maxU64 (a b : UInt64) : UInt64 := if a > b then a else b

/-- `arena_block_new`, given `malloc`'s answer; `none` is the call of `Fatal`. -/
def arenaBlockNew (cap basePos : UInt64) (malloc : Option UInt64) : Option ArenaBlock :=
  malloc.map (fun addr => ⟨addr, cap, 0, basePos⟩)

/-- `arena_alloc_sized`. -/
def arenaAllocSized (blockSize : UInt64) (malloc : Option UInt64) : Option Arena :=
  let blockSize := if blockSize = 0 then arenaDefaultBlock else blockSize
  (arenaBlockNew blockSize 0 malloc).map (fun b => ⟨[b], 0, blockSize⟩)

/-- How a push ends; `spin` is a loop that has not ended yet. -/
inductive PushResult
  | ok (p : UInt64) (a : Arena)
  | fatal
  | spin
  deriving DecidableEq

/-- The bytes a push takes from `b`: the pad up to the next aligned address, and the allocation. -/
def ArenaBlock.need (b : ArenaBlock) (size align : UInt64) : UInt64 :=
  let base := b.data + b.used
  (alignPow2 base align - base) + size

/-- The loop of `arena_push`, for at most `fuel` rounds; `mallocs` are the answers of the calls of `malloc`,
    NULL when there are no more. -/
def arenaPushLoop (size align : UInt64) : Nat → Arena → List (Option UInt64) → PushResult
  | 0, _, _ => .spin
  | fuel + 1, a, mallocs =>
    match a.blocks[a.current]? with
    | none => .fatal
    | some b =>
      if b.used + b.need size align ≤ b.cap then
        .ok (alignPow2 (b.data + b.used) align)
          { a with blocks := a.blocks.set a.current { b with used := b.used + b.need size align } }
      else if a.current + 1 < a.blocks.length then
        -- a reset block downstream may have room
        arenaPushLoop size align fuel { a with current := a.current + 1 } mallocs
      else
        let cap := maxU64 a.blockSize (size + align)
        match arenaBlockNew cap (b.basePos + b.cap) (mallocs.headD none) with
        | none => .fatal
        | some nb =>
          arenaPushLoop size align fuel
            { a with blocks := a.blocks ++ [nb], current := a.current + 1 } mallocs.tail

/-- `arena_push`: each block is tried once, and one new block. -/
def arenaPush (a : Arena) (size align : UInt64) (mallocs : List (Option UInt64)) : PushResult :=
  arenaPushLoop size align (a.blocks.length + 1) a mallocs

/-- `arena_pos`. -/
def arenaPos (a : Arena) : UInt64 :=
  match a.blocks[a.current]? with
  | none => 0
  | some b => b.basePos + b.used

/-- The walk of `arena_pop_to` over the chain: the index of the block that becomes current, and the blocks
    after the pop. -/
def popBlocks (pos : UInt64) : List ArenaBlock → Nat × List ArenaBlock
  | [] => (0, [])
  | [b] => (0, [{ b with used := pos - b.basePos }])
  | b :: c :: rest =>
    if pos > b.basePos + b.cap then
      ((popBlocks pos (c :: rest)).1 + 1, b :: (popBlocks pos (c :: rest)).2)
    else
      (0, { b with used := pos - b.basePos } :: (c :: rest).map (fun n => { n with used := 0 }))

/-- `arena_pop_to`. -/
def arenaPopTo (a : Arena) (pos : UInt64) : Arena :=
  { a with blocks := (popBlocks pos a.blocks).2, current := (popBlocks pos a.blocks).1 }

/-- `arena_clear`. -/
def arenaClear (a : Arena) : Arena := arenaPopTo a 0

/-! ## Calls in a row -/

/-- What `malloc` promises: every block is an object in the address space, with room for the address one past
    its end, of at most `PTRDIFF_MAX` bytes, and no two objects overlap. -/
def Arena.Mapped (a : Arena) : Prop :=
  (∀ b ∈ a.blocks, b.addr.toNat + (32 + b.cap.toNat) < 2 ^ 64 ∧ 32 + b.cap.toNat < 2 ^ 63) ∧
    a.blocks.Pairwise (fun b c => Apart b.addr.toNat (32 + b.cap.toNat) c.addr.toNat (32 + c.cap.toNat))

instance (a : Arena) : Decidable a.Mapped := inferInstanceAs (Decidable (_ ∧ _))

/-- The requests the allocator is for: alignments are powers of two, and sizes far from wrapping around. -/
def GoodRequest (size align : UInt64) : Prop :=
  (∃ k, align.toNat = 2 ^ k) ∧ size.toNat + align.toNat < 2 ^ 63

/-- An allocation: its range, the position right after it, and the number of its push. -/
structure Allocation where
  addr : UInt64
  size : UInt64
  stop : UInt64
  stamp : Nat
  deriving DecidableEq

/-- An open `Temp`, with the number of the first push that it will take back. -/
structure Temp where
  pos : UInt64
  stamp : Nat
  deriving DecidableEq

structure ArenaSys where
  arena : Arena
  clock : Nat
  live : List Allocation
  temps : List Temp
  deriving DecidableEq

inductive ArenaOp
  | push (size align : UInt64) (mallocs : List (Option UInt64))
  | tempBegin
  | tempEnd
  | clear
  deriving DecidableEq

/-- One call. A `temp_end` closes the innermost open `Temp`. -/
inductive ArenaStep : ArenaSys → List ArenaOp → ArenaSys → Prop
  | push {s : ArenaSys} {size align p : UInt64} {mallocs : List (Option UInt64)} {a : Arena}
      (hreq : GoodRequest size align) (hp : arenaPush s.arena size align mallocs = .ok p a) (hmap : a.Mapped) :
      ArenaStep s [.push size align mallocs] { s with
        arena := a, clock := s.clock + 1, live := ⟨p, size, arenaPos a, s.clock⟩ :: s.live }
  | tempBegin {s : ArenaSys} :
      ArenaStep s [.tempBegin] { s with temps := ⟨arenaPos s.arena, s.clock⟩ :: s.temps }
  | tempEnd {s : ArenaSys} {t : Temp} {ts : List Temp} (h : s.temps = t :: ts) :
      ArenaStep s [.tempEnd] { s with
        arena := arenaPopTo s.arena t.pos, live := s.live.filter (fun x => x.stamp < t.stamp), temps := ts }
  | clear {s : ArenaSys} : ArenaStep s [.clear] { s with arena := arenaClear s.arena, live := [] }

/-- A new arena. -/
def ArenaSys.Init (s : ArenaSys) : Prop :=
  ∃ blockSize malloc, arenaAllocSized blockSize malloc = some s.arena ∧ s.arena.Mapped ∧
    s.clock = 0 ∧ s.live = [] ∧ s.temps = []

/-- The states that calls in a row lead to. -/
def ArenaReach (s : ArenaSys) : Prop :=
  ∃ s₀ ops, s₀.Init ∧ Trace ArenaStep s₀ ops s

/-! ## Alignment -/

/-- Clearing the low bits of a word rounds it down. -/
theorem and_clear_low {y k : Nat} (hk : k ≤ 64) (hy : y < 2 ^ 64) :
    y &&& (2 ^ 64 - 1 - (2 ^ k - 1)) = y / 2 ^ k * 2 ^ k := by
  have hpow : 2 ^ k ≤ 2 ^ 64 := Nat.pow_le_pow_right (by decide) hk
  have hpos : 0 < 2 ^ k := Nat.two_pow_pos k
  apply Nat.eq_of_testBit_eq
  intro i
  rw [Nat.testBit_and, Nat.sub_sub, Nat.add_comm 1, Nat.testBit_two_pow_sub_succ (by omega),
    Nat.testBit_two_pow_sub_one, Nat.testBit_mul_two_pow, Nat.testBit_div_two_pow]
  by_cases hi : i < 64
  · by_cases hik : i < k
    · simp [hik, Nat.not_le.mpr hik]
    · simp [hi, hik, Nat.not_lt.mp hik, Nat.sub_add_cancel (Nat.not_lt.mp hik)]
  · have hbit : y.testBit i = false :=
      Nat.testBit_lt_two_pow (hy.trans_le (Nat.pow_le_pow_right (by decide) (Nat.not_lt.mp hi)))
    by_cases hik : k ≤ i
    · simp [hbit, hi, hik, Nat.sub_add_cancel hik]
    · simp [hbit, hi, hik]

theorem alignPow2_toNat (x : UInt64) {k : Nat} (hp : p.toNat = 2 ^ k) :
    (alignPow2 x p).toNat = (x.toNat + (2 ^ k - 1)) % 2 ^ 64 / 2 ^ k * 2 ^ k := by
  have hk : k < 64 := by
    have hlt := p.toNat_lt
    rw [hp] at hlt
    exact (Nat.pow_lt_pow_iff_right (by decide)).mp hlt
  have hone : (1 : UInt64) ≤ p := by
    rw [UInt64.le_iff_toNat_le, hp]
    exact Nat.two_pow_pos k
  rw [alignPow2, UInt64.toNat_and, UInt64.toNat_not, UInt64.toNat_add, UInt64.toNat_sub_of_le _ _ hone, hp]
  exact and_clear_low hk.le (Nat.mod_lt _ (by decide))

/-- `AlignPow2` adds the pad up to the next multiple; at the end of the address space it wraps to zero. -/
theorem alignPow2_spec (x : UInt64) {k : Nat} (hp : p.toNat = 2 ^ k) :
    ∃ pad < 2 ^ k, (x.toNat + pad) % 2 ^ k = 0 ∧ (alignPow2 x p).toNat = (x.toNat + pad) % 2 ^ 64 := by
  have hx := x.toNat_lt
  have hlt := p.toNat_lt
  have hpos : 0 < 2 ^ k := Nat.two_pow_pos k
  have hdvd : 2 ^ k ∣ 2 ^ 64 := by
    apply Nat.pow_dvd_pow
    rw [hp] at hlt
    exact ((Nat.pow_lt_pow_iff_right (by decide)).mp hlt).le
  rw [hp] at hlt
  rw [alignPow2_toNat x hp]
  by_cases hwrap : x.toNat + (2 ^ k - 1) < 2 ^ 64
  · -- the rounded sum is less than one multiple below it, so not below `x`
    rw [Nat.mod_eq_of_lt hwrap]
    have hle := Nat.div_mul_le_self (x.toNat + (2 ^ k - 1)) (2 ^ k)
    have hgt := Nat.lt_div_mul_add (a := x.toNat + (2 ^ k - 1)) hpos
    refine ⟨(x.toNat + (2 ^ k - 1)) / 2 ^ k * 2 ^ k - x.toNat, by omega, ?_, ?_⟩
    · rw [Nat.add_sub_cancel' (by omega)]
      exact Nat.mul_mod_left _ _
    · rw [Nat.add_sub_cancel' (by omega), Nat.mod_eq_of_lt (by omega)]
  · refine ⟨2 ^ 64 - x.toNat, by omega, ?_, ?_⟩
    · rw [Nat.add_sub_cancel' hx.le]
      exact Nat.mod_eq_zero_of_dvd hdvd
    · rw [Nat.add_sub_cancel' hx.le, Nat.mod_self, Nat.mod_eq_sub_mod (Nat.not_lt.mp hwrap),
        Nat.mod_eq_of_lt (by omega), Nat.div_eq_of_lt (by omega), Nat.zero_mul]

/-- The pad is smaller than the alignment, wherever the block lies. -/
theorem ArenaBlock.need_toNat (b : ArenaBlock) (hreq : GoodRequest size align) :
    ∃ pad < align.toNat, ((b.data + b.used).toNat + pad) % align.toNat = 0 ∧
      (alignPow2 (b.data + b.used) align).toNat = ((b.data + b.used).toNat + pad) % 2 ^ 64 ∧
      (b.need size align).toNat = pad + size.toNat := by
  obtain ⟨⟨k, hk⟩, hsum⟩ := hreq
  obtain ⟨pad, hpad, hmod, heq⟩ := alignPow2_spec (b.data + b.used) hk
  have hx := (b.data + b.used).toNat_lt
  refine ⟨pad, hk ▸ hpad, hk ▸ hmod, heq, ?_⟩
  rw [ArenaBlock.need, UInt64.toNat_add, UInt64.toNat_sub, heq]
  omega

/-! ## The chain of blocks

Everything about a block but `used` is settled when it is made: its place. -/

/-- Where a block is, in memory and among the positions. -/
def ArenaBlock.place (b : ArenaBlock) : UInt64 × UInt64 × UInt64 := (b.addr, b.cap, b.basePos)

/-- The blocks follow each other from position `base` on, below `2 ^ 64`, and none is overfull. -/
def Chain : Nat → List ArenaBlock → Prop
  | _, [] => True
  | base, b :: bs =>
    b.basePos.toNat = base ∧ base + b.cap.toNat < 2 ^ 64 ∧ b.used ≤ b.cap ∧ Chain (base + b.cap.toNat) bs

/-- The payload bytes of all blocks. -/
def capSum (bs : List ArenaBlock) : Nat := (bs.map (fun b => b.cap.toNat)).sum

@[simp] theorem capSum_nil : capSum [] = 0 := rfl

@[simp] theorem capSum_cons (b : ArenaBlock) (bs : List ArenaBlock) :
    capSum (b :: bs) = b.cap.toNat + capSum bs := by
  simp [capSum]

theorem capSum_append (bs bs' : List ArenaBlock) : capSum (bs ++ bs') = capSum bs + capSum bs' := by
  simp [capSum]

variable {bs bs' : List ArenaBlock}

theorem capSum_of_place (h : bs'.map ArenaBlock.place = bs.map ArenaBlock.place) : capSum bs' = capSum bs := by
  have hcap := congrArg (List.map (fun q : UInt64 × UInt64 × UInt64 => q.2.1.toNat)) h
  simp only [List.map_map] at hcap
  exact congrArg List.sum hcap

namespace Chain

variable {base : Nat} {bs : List ArenaBlock} {b c : ArenaBlock} {i j : Nat}

theorem get (h : Chain base bs) (hb : bs[i]? = some b) :
    base ≤ b.basePos.toNat ∧ b.basePos.toNat + b.cap.toNat ≤ base + capSum bs ∧
      b.basePos.toNat + b.cap.toNat < 2 ^ 64 ∧ b.used ≤ b.cap := by
  induction bs generalizing base i with
  | nil => simp at hb
  | cons d bs ih =>
    obtain ⟨hbase, hlt, hused, hrest⟩ := h
    rw [capSum_cons]
    cases i with
    | zero =>
      cases hb
      exact ⟨hbase.ge, by omega, by omega, hused⟩
    | succ i =>
      obtain ⟨hle, hle', hlt', hused'⟩ := ih hrest hb
      exact ⟨by omega, by omega, hlt', hused'⟩

/-- A later block starts where an earlier one ends, or after it. -/
theorem le (h : Chain base bs) (hb : bs[i]? = some b) (hc : bs[j]? = some c) (hij : i < j) :
    b.basePos.toNat + b.cap.toNat ≤ c.basePos.toNat := by
  induction bs generalizing base i j with
  | nil => simp at hb
  | cons d bs ih =>
    obtain ⟨hbase, hlt, hused, hrest⟩ := h
    obtain ⟨j, rfl⟩ := Nat.exists_eq_succ_of_ne_zero (Nat.ne_of_gt (Nat.zero_lt_of_lt hij))
    cases i with
    | zero =>
      cases hb
      have hle := (hrest.get hc).1
      omega
    | succ i => exact ih hrest hb hc (Nat.lt_of_succ_lt_succ hij)

/-- A block ends where the next one starts. -/
theorem succ (h : Chain base bs) (hb : bs[i]? = some b) (hc : bs[i + 1]? = some c) :
    c.basePos.toNat = b.basePos.toNat + b.cap.toNat := by
  induction bs generalizing base i with
  | nil => simp at hb
  | cons d bs ih =>
    obtain ⟨hbase, hlt, hused, hrest⟩ := h
    cases i with
    | succ i => exact ih hrest hb hc
    | zero =>
      cases hb
      cases bs with
      | nil => simp at hc
      | cons e bs =>
        cases hc
        rw [hbase]
        exact hrest.1

theorem set (h : Chain base bs) (hb : bs[i]? = some b) {u : UInt64} (hu : u ≤ b.cap) :
    Chain base (bs.set i { b with used := u }) := by
  induction bs generalizing base i with
  | nil => simp at hb
  | cons d bs ih =>
    obtain ⟨hbase, hlt, hused, hrest⟩ := h
    cases i with
    | zero =>
      cases hb
      exact ⟨hbase, hlt, hu, hrest⟩
    | succ i => exact ⟨hbase, hlt, hused, ih hrest hb⟩

theorem snoc (h : Chain base bs) (hlast : bs.getLast? = some b) (hpos : c.basePos = b.basePos + b.cap)
    (hused : c.used = 0) (hlt : base + capSum (bs ++ [c]) < 2 ^ 64) : Chain base (bs ++ [c]) := by
  induction bs generalizing base with
  | nil => simp at hlast
  | cons d bs ih =>
    obtain ⟨hbase, hd, hu, hrest⟩ := h
    rw [List.cons_append, capSum_cons] at hlt
    refine ⟨hbase, hd, hu, ?_⟩
    cases bs with
    | nil =>
      obtain rfl : d = b := Option.some.inj hlast
      rw [List.nil_append, capSum_cons] at hlt
      refine ⟨?_, by omega, ?_, trivial⟩
      · rw [hpos, UInt64.toNat_add, hbase, Nat.mod_eq_of_lt hd]
      · rw [hused]
        exact UInt64.le_iff_toNat_le.mpr (Nat.zero_le _)
    | cons e bs =>
      rw [List.getLast?_cons_cons] at hlast
      exact ih hrest hlast (by omega)

/-- Emptying blocks keeps the chain. -/
theorem reset (h : Chain base bs) : Chain base (bs.map (fun n => { n with used := 0 })) := by
  induction bs generalizing base with
  | nil => trivial
  | cons d bs ih =>
    obtain ⟨hbase, hlt, hused, hrest⟩ := h
    exact ⟨hbase, hlt, UInt64.le_iff_toNat_le.mpr (Nat.zero_le _), ih hrest⟩

end Chain

variable {b : ArenaBlock}

theorem set_place {i : Nat} (hb : bs[i]? = some b) (u : UInt64) :
    (bs.set i { b with used := u }).map ArenaBlock.place = bs.map ArenaBlock.place :=
  Slots.map_set_key hb rfl

theorem popBlocks_place (pos : UInt64) (bs : List ArenaBlock) :
    (popBlocks pos bs).2.map ArenaBlock.place = bs.map ArenaBlock.place := by
  fun_induction popBlocks pos bs with
  | case1 => rfl
  | case2 b => rfl
  | case3 b c rest hgt ih =>
    rw [List.map_cons, ih]
    rfl
  | case4 b c rest hle =>
    rw [List.map_cons, List.map_map]
    rfl

/-- A pop goes exactly to the position asked for, which ends up in the block that becomes current. -/
theorem popBlocks_spec {base : Nat} (hne : bs ≠ []) (h : Chain base bs) (hlo : base ≤ pos.toNat)
    (hhi : pos.toNat ≤ base + capSum bs) :
    Chain base (popBlocks pos bs).2 ∧ ∃ b, (popBlocks pos bs).2[(popBlocks pos bs).1]? = some b ∧
      b.basePos + b.used = pos := by
  have hcut : ∀ b : ArenaBlock, b.basePos.toNat ≤ pos.toNat → pos.toNat ≤ b.basePos.toNat + b.cap.toNat →
      pos - b.basePos ≤ b.cap := by
    intro b hlo hhi
    rw [UInt64.le_iff_toNat_le, UInt64.toNat_sub_of_le _ _ (UInt64.le_iff_toNat_le.mpr hlo)]
    omega
  fun_induction popBlocks pos bs generalizing base with
  | case1 => exact absurd rfl hne
  | case2 b =>
    obtain ⟨hbase, hlt, hused, hrest⟩ := h
    rw [capSum_cons, capSum_nil] at hhi
    exact ⟨⟨hbase, hlt, hcut b (by omega) (by omega), hrest⟩, _, rfl,
      (UInt64.add_comm _ _).trans (UInt64.sub_add_cancel _ _)⟩
  | case3 b c rest hgt ih =>
    obtain ⟨hbase, hlt, hused, hrest⟩ := h
    rw [capSum_cons] at hhi
    have hgt' : b.basePos.toNat + b.cap.toNat < pos.toNat := by
      have hsum : (b.basePos + b.cap).toNat < pos.toNat := UInt64.lt_iff_toNat_lt.mp hgt
      rwa [UInt64.toNat_add, Nat.mod_eq_of_lt (hbase.symm ▸ hlt)] at hsum
    obtain ⟨hchain, d, hd, hpos⟩ := ih (List.cons_ne_nil c rest) hrest (by omega) (by omega)
    exact ⟨⟨hbase, hlt, hused, hchain⟩, d, hd, hpos⟩
  | case4 b c rest hle =>
    obtain ⟨hbase, hlt, hused, hrest⟩ := h
    have hle' : pos.toNat ≤ b.basePos.toNat + b.cap.toNat := by
      have hsum : ¬ (b.basePos + b.cap).toNat < pos.toNat := fun h => hle (UInt64.lt_iff_toNat_lt.mpr h)
      rw [UInt64.toNat_add, Nat.mod_eq_of_lt (hbase.symm ▸ hlt)] at hsum
      omega
    exact ⟨⟨hbase, hlt, hcut b (by omega) hle', hrest.reset⟩, _, rfl,
      (UInt64.add_comm _ _).trans (UInt64.sub_add_cancel _ _)⟩

/-! ## Growing -/

/-- The chain gets new, empty blocks at its end. -/
inductive Grows : List ArenaBlock → List ArenaBlock → Prop
  | refl (bs : List ArenaBlock) : Grows bs bs
  | grow {bs bs' : List ArenaBlock} {b c : ArenaBlock} (hlast : bs.getLast? = some b)
      (hpos : c.basePos = b.basePos + b.cap) (hused : c.used = 0) (h : Grows (bs ++ [c]) bs') : Grows bs bs'

theorem Grows.prefixed (h : Grows bs bs') : bs <+: bs' := by
  induction h with
  | refl bs => exact List.prefix_rfl
  | grow _ _ _ _ ih => exact (List.prefix_append _ _).trans ih

theorem Grows.chain (h : Grows bs bs') (hc : Chain 0 bs) (hlt : capSum bs' < 2 ^ 64) : Chain 0 bs' := by
  induction h with
  | refl bs => exact hc
  | @grow bs bs' b c hlast hpos hused h ih =>
    obtain ⟨rest, rfl⟩ := h.prefixed
    have hle : capSum (bs ++ [c]) ≤ capSum (bs ++ [c] ++ rest) := by
      rw [capSum_append (bs ++ [c])]
      exact Nat.le_add_right _ _
    exact ih (hc.snoc hlast hpos hused (by omega)) hlt

variable {a a' : Arena}

/-- A push that returns has found a block with room, at or after the current one. -/
theorem arenaPushLoop_ok {fuel : Nat} (hcur : a.current < a.blocks.length)
    (h : arenaPushLoop size align fuel a mallocs = .ok p a') :
    ∃ bs i b, Grows a.blocks bs ∧ a.current ≤ i ∧ bs[i]? = some b ∧ b.used + b.need size align ≤ b.cap ∧
      p = alignPow2 (b.data + b.used) align ∧
      a' = { a with blocks := bs.set i { b with used := b.used + b.need size align }, current := i } := by
  induction fuel generalizing a mallocs with
  | zero => cases h
  | succ fuel ih =>
    have hb := List.getElem?_eq_getElem hcur
    generalize a.blocks[a.current] = b at hb
    rw [arenaPushLoop, hb] at h
    dsimp only at h
    split at h
    · next hfit =>
        cases h
        exact ⟨a.blocks, a.current, b, Grows.refl _, le_rfl, hb, hfit, rfl, rfl⟩
    · split at h
      · next hnext =>
          obtain ⟨bs, i, c, hg, hi, hc, hfit, hp, ha⟩ := ih hnext h
          exact ⟨bs, i, c, hg, Nat.le_of_succ_le hi, hc, hfit, hp, ha⟩
      · next hend =>
          cases hm : mallocs.headD none with
          | none =>
            rw [hm] at h
            cases h
          | some addr =>
            rw [hm] at h
            obtain ⟨bs, i, c, hg, hi, hc, hfit, hp, ha⟩ := ih (by simp; omega) h
            have hlast : a.blocks.getLast? = some b := by
              rw [List.getLast?_eq_getElem?, ← hb]
              congr 1
              omega
            exact ⟨bs, i, c, hg.grow hlast rfl rfl, Nat.le_of_succ_le hi, hc, hfit, hp, ha⟩

/-- A new block has room for the request it was made for. -/
theorem need_le_new (hreq : GoodRequest size align) (b : ArenaBlock) {blockSize : UInt64}
    (hcap : b.cap = maxU64 blockSize (size + align)) (hused : b.used = 0) :
    b.used + b.need size align ≤ b.cap := by
  obtain ⟨pad, hpad, -, -, hneed⟩ := b.need_toNat hreq
  have hsum : (size + align).toNat = size.toNat + align.toNat := by
    rw [UInt64.toNat_add, Nat.mod_eq_of_lt (by have := hreq.2; omega)]
  have hle : size + align ≤ b.cap := by
    rw [hcap, maxU64]
    split
    · next hgt => exact UInt64.le_of_lt hgt
    · exact UInt64.le_refl _
  rw [UInt64.le_iff_toNat_le, hsum] at hle
  rw [hused, UInt64.le_iff_toNat_le, UInt64.toNat_add, hneed]
  have := b.cap.toNat_lt
  simp only [UInt64.toNat_zero, Nat.zero_add]
  rw [Nat.mod_eq_of_lt (by omega)]
  omega

/-- The loop of a push ends: it returns, or a call of `malloc` has returned NULL. -/
theorem arenaPushLoop_returns (hreq : GoodRequest size align) {fuel : Nat}
    (hcur : a.current < a.blocks.length) (hfuel : a.blocks.length - a.current < fuel) :
    (∃ p a', arenaPushLoop size align fuel a mallocs = .ok p a') ∨
      mallocs.headD none = none ∧ arenaPushLoop size align fuel a mallocs = .fatal := by
  induction fuel generalizing a with
  | zero => exact absurd hfuel (Nat.not_lt_zero _)
  | succ fuel ih =>
    have hb := List.getElem?_eq_getElem hcur
    generalize a.blocks[a.current] = b at hb
    rw [arenaPushLoop, hb]
    dsimp only
    split
    · exact .inl ⟨_, _, rfl⟩
    · split
      · next hnext => exact ih hnext (by simp only; omega)
      · next hend =>
          cases hm : mallocs.headD none with
          | none => exact .inr ⟨rfl, rfl⟩
          | some addr =>
            -- the next round is about the new block, which has room
            left
            obtain ⟨fuel, rfl⟩ : ∃ n, fuel = n + 1 := ⟨fuel - 1, by omega⟩
            have hlen : a.current + 1 = a.blocks.length := by omega
            simp only [arenaBlockNew, Option.map_some]
            rw [arenaPushLoop]
            simp only [hlen, List.getElem?_concat_length]
            have hroom := need_le_new hreq
              ⟨addr, maxU64 a.blockSize (size + align), 0, b.basePos + b.cap⟩ rfl rfl
            rw [if_pos hroom]
            exact ⟨_, _, rfl⟩

/-! ## The arena as a stack allocator -/

def Allocation.span (x : Allocation) : Span Allocation :=
  ⟨x.stop.toNat - x.size.toNat, x.stop.toNat, x.stamp, x⟩

def Temp.mark (t : Temp) : Mark := ⟨t.pos.toNat, t.stamp⟩

def ArenaSys.abs (s : ArenaSys) : StackAlloc.State Allocation :=
  ⟨(arenaPos s.arena).toNat, s.clock, s.live.map Allocation.span, s.temps.map Temp.mark⟩

def ArenaOp.kind : ArenaOp → Kind
  | .push _ _ _ => .push
  | .tempBegin => .mark
  | .tempEnd => .release
  | .clear => .clear

/-- The allocation lies in the payload of `b`, and its positions are those of its addresses. -/
def Allocation.In (x : Allocation) (b : ArenaBlock) : Prop :=
  b.basePos.toNat + x.size.toNat ≤ x.stop.toNat ∧ x.stop.toNat ≤ b.basePos.toNat + b.cap.toNat ∧
    x.addr.toNat + x.size.toNat + b.basePos.toNat = b.addr.toNat + 32 + x.stop.toNat

structure ArenaInv (s : ArenaSys) : Prop where
  mapped : s.arena.Mapped
  chain : Chain 0 s.arena.blocks
  current : s.arena.current < s.arena.blocks.length
  temps : ∀ t ∈ s.temps, t.pos.toNat ≤ capSum s.arena.blocks
  live : ∀ x ∈ s.live, ∃ b ∈ s.arena.blocks, x.In b
  book : StackAlloc.Inv s.abs

theorem Arena.Mapped.of_place (h : a'.blocks.map ArenaBlock.place = a.blocks.map ArenaBlock.place)
    (hm : a.Mapped) : a'.Mapped := by
  -- both parts of `Mapped` are about the places alone
  have hplace : ∀ a : Arena, a.Mapped ↔
      (∀ q ∈ a.blocks.map ArenaBlock.place,
        q.1.toNat + (32 + q.2.1.toNat) < 2 ^ 64 ∧ 32 + q.2.1.toNat < 2 ^ 63) ∧
      (a.blocks.map ArenaBlock.place).Pairwise (fun q r =>
        Apart q.1.toNat (32 + q.2.1.toNat) r.1.toNat (32 + r.2.1.toNat)) := by
    intro a
    rw [List.pairwise_map, List.forall_mem_map]
    rfl
  rw [hplace, h, ← hplace]
  exact hm

/-- Objects that do not overlap fit into the address space together, so positions do not wrap around. -/
theorem Arena.Mapped.capSum_lt (hm : a.Mapped) : capSum a.blocks < 2 ^ 64 := by
  have hsum := sum_le_of_apart hm.2 (fun b hb => (hm.1 b hb).1.le)
  cases hbs : a.blocks with
  | nil => decide
  | cons b bs =>
    rw [hbs, List.map_cons, List.sum_cons] at hsum
    have hle : capSum bs ≤ (bs.map (fun c => 32 + c.cap.toNat)).sum :=
      List.sum_le_sum (fun c _ => Nat.le_add_left _ _)
    rw [capSum_cons]
    omega

/-- An allocation stays in its block when blocks keep their places. -/
theorem in_of_place (h : bs.map ArenaBlock.place <+: bs'.map ArenaBlock.place) {x : Allocation}
    (hx : ∃ b ∈ bs, x.In b) : ∃ b ∈ bs', x.In b := by
  obtain ⟨b, hb, hin⟩ := hx
  obtain ⟨b', hb', heq⟩ := List.mem_map.mp (h.subset (List.mem_map_of_mem hb))
  simp only [ArenaBlock.place, Prod.mk.injEq] at heq
  obtain ⟨haddr, hcap, hpos⟩ := heq
  refine ⟨b', hb', ?_⟩
  rw [Allocation.In, haddr, hcap, hpos]
  exact hin

theorem arenaPos_eq (h : a.blocks[a.current]? = some b) : arenaPos a = b.basePos + b.used := by
  rw [arenaPos, h]

/-- The position does not wrap around. -/
theorem ArenaBlock.end_toNat (hlt : b.basePos.toNat + b.cap.toNat < 2 ^ 64) {u : UInt64} (hu : u ≤ b.cap) :
    (b.basePos + u).toNat = b.basePos.toNat + u.toNat := by
  rw [UInt64.le_iff_toNat_le] at hu
  rw [UInt64.toNat_add, Nat.mod_eq_of_lt (by omega)]

variable {s : ArenaSys}

theorem ArenaInv.pos_le (h : ArenaInv s) : (arenaPos s.arena).toNat ≤ capSum s.arena.blocks := by
  have hb := List.getElem?_eq_getElem h.current
  obtain ⟨-, hle, hlt, hused⟩ := h.chain.get hb
  rw [arenaPos_eq hb, ArenaBlock.end_toNat hlt hused]
  rw [UInt64.le_iff_toNat_le] at hused
  omega

/-- What one push does, seen from the positions: it takes aligned bytes of a block above the old position, and
    its end is the new position. -/
structure Pushes (a : Arena) (size align p : UInt64) (a' : Arena) : Prop where
  chain : Chain 0 a'.blocks
  current : a'.current < a'.blocks.length
  place : a.blocks.map ArenaBlock.place <+: a'.blocks.map ArenaBlock.place
  above : (arenaPos a).toNat + size.toNat ≤ (arenaPos a').toNat
  inside : ∀ n, ∃ b ∈ a'.blocks, (Allocation.mk p size (arenaPos a') n).In b
  aligned : p.toNat % align.toNat = 0

theorem arenaPush_pushes (hc : Chain 0 a.blocks) (hcur : a.current < a.blocks.length)
    (hreq : GoodRequest size align) (h : arenaPush a size align mallocs = .ok p a') (hm : a'.Mapped) :
    Pushes a size align p a' := by
  obtain ⟨bs, i, b, hg, hi, hb, hfit, rfl, rfl⟩ := arenaPushLoop_ok hcur h
  have hplace := set_place hb (b.used + b.need size align)
  have hlen : i < bs.length := (List.getElem?_eq_some_iff.mp hb).1
  have hcbs : Chain 0 bs := hg.chain hc (capSum_of_place hplace ▸ hm.capSum_lt)
  obtain ⟨-, -, hlt, hused⟩ := hcbs.get hb
  -- the block is an object of its own, so neither the addresses nor the sums wrap around
  have hmbs : Arena.Mapped { a with blocks := bs } := hm.of_place hplace.symm
  obtain ⟨haddr, hcap⟩ := hmbs.1 b (List.mem_of_getElem? hb)
  obtain ⟨pad, hpad, hmod, hal, hneed⟩ := b.need_toNat hreq
  have hreq2 := hreq.2
  have husedN : b.used.toNat ≤ b.cap.toNat := UInt64.le_iff_toNat_le.mp hused
  have hfitN : b.used.toNat + (pad + size.toNat) ≤ b.cap.toNat := by
    rwa [UInt64.le_iff_toNat_le, UInt64.toNat_add, hneed, Nat.mod_eq_of_lt (by omega)] at hfit
  have husedN' : (b.used + b.need size align).toNat = b.used.toNat + (pad + size.toNat) := by
    rw [UInt64.toNat_add, hneed, Nat.mod_eq_of_lt (by omega)]
  have hdata : (b.data + b.used).toNat = b.addr.toNat + 32 + b.used.toNat := by
    have h32 : (32 : UInt64).toNat = 32 := rfl
    rw [ArenaBlock.data, UInt64.toNat_add, UInt64.toNat_add, h32]
    omega
  have hp : (alignPow2 (b.data + b.used) align).toNat = b.addr.toNat + 32 + b.used.toNat + pad := by
    rw [hal, hdata, Nat.mod_eq_of_lt (by omega)]
  have hget : (bs.set i { b with used := b.used + b.need size align })[i]? =
      some { b with used := b.used + b.need size align } := by
    rw [List.getElem?_set_self hlen]
  have hpos : (arenaPos { a with
      blocks := bs.set i { b with used := b.used + b.need size align }, current := i }).toNat =
      b.basePos.toNat + (b.used.toNat + (pad + size.toNat)) := by
    rw [arenaPos_eq (a := { a with blocks := _, current := i }) hget, ArenaBlock.end_toNat hlt hfit, husedN']
  have habove : (arenaPos a).toNat ≤ b.basePos.toNat + b.used.toNat := by
    have hold := List.getElem?_eq_getElem hcur
    obtain ⟨-, -, hlt₀, hused₀⟩ := hc.get hold
    have hold' : bs[a.current]? = some a.blocks[a.current] := by
      obtain ⟨rest, rfl⟩ := hg.prefixed
      rw [List.getElem?_append_left hcur, hold]
    rw [arenaPos_eq hold, ArenaBlock.end_toNat hlt₀ hused₀]
    rcases Nat.eq_or_lt_of_le hi with rfl | hlt'
    · rw [Option.some.inj (hb.symm.trans hold')]
    · have hle := hcbs.le hold' hb hlt'
      rw [UInt64.le_iff_toNat_le] at hused₀
      omega
  refine ⟨hcbs.set hb hfit, by simpa using hlen, ?_, by omega, ?_, ?_⟩
  · rw [hplace]
    exact hg.prefixed.map _
  · intro n
    refine ⟨_, List.mem_of_getElem? hget, ?_⟩
    simp only [Allocation.In]
    rw [hpos, hp]
    omega
  · rw [hp, ← hdata]
    exact hmod

theorem arenaPopTo_spec (hc : Chain 0 a.blocks) (hne : a.blocks ≠ []) (hpos : pos.toNat ≤ capSum a.blocks) :
    Chain 0 (arenaPopTo a pos).blocks ∧ (arenaPopTo a pos).current < (arenaPopTo a pos).blocks.length ∧
      arenaPos (arenaPopTo a pos) = pos := by
  obtain ⟨hchain, b, hb, heq⟩ := popBlocks_spec hne hc (Nat.zero_le _) (hpos.trans (Nat.le_add_left _ _))
  exact ⟨hchain, (List.getElem?_eq_some_iff.mp hb).1, (arenaPos_eq hb).trans heq⟩

theorem ArenaInv.pop (h : ArenaInv s) {live : List Allocation} {temps : List Temp}
    (hpos : pos.toNat ≤ capSum s.arena.blocks) (hlive : live ⊆ s.live) (htemps : temps ⊆ s.temps)
    (hbook : StackAlloc.Inv ⟨pos.toNat, s.clock, live.map Allocation.span, temps.map Temp.mark⟩) :
    ArenaInv { s with arena := arenaPopTo s.arena pos, live := live, temps := temps } := by
  have hplace : (arenaPopTo s.arena pos).blocks.map ArenaBlock.place = s.arena.blocks.map ArenaBlock.place :=
    popBlocks_place pos s.arena.blocks
  have hne : s.arena.blocks ≠ [] := List.ne_nil_of_length_pos (Nat.zero_lt_of_lt h.current)
  obtain ⟨hchain, hcur, heq⟩ := arenaPopTo_spec h.chain hne hpos
  refine ⟨h.mapped.of_place hplace, hchain, hcur, ?_, ?_, ?_⟩
  · intro t ht
    rw [capSum_of_place hplace]
    exact h.temps t (htemps ht)
  · intro x hx
    exact in_of_place (hplace ▸ List.prefix_rfl) (h.live x (hlive hx))
  · rw [ArenaSys.abs]
    dsimp only
    rw [heq]
    exact hbook

theorem filter_span {live : List Allocation} {n : Nat} :
    (live.filter (fun x => x.stamp < n)).map Allocation.span =
      (live.map Allocation.span).filter (fun x => x.stamp < n) := by
  rw [List.filter_map]
  rfl

variable {s' : ArenaSys}

/-- Each call is a step of the stack allocator. -/
theorem arenaStep_refines {o : List ArenaOp} (h : ArenaStep s o s') (hI : ArenaInv s) :
    StackAlloc.Step s.abs (o.map ArenaOp.kind) s'.abs := by
  have hne : s.arena.blocks ≠ [] := List.ne_nil_of_length_pos (Nat.zero_lt_of_lt hI.current)
  cases h with
  | @push size align p mallocs a hreq hp hmap =>
    have hpush := arenaPush_pushes hI.chain hI.current hreq hp hmap
    have habove := hpush.above
    exact StackAlloc.Step.push _ (s := s.abs) (by simp only [ArenaSys.abs]; omega) (Nat.sub_le _ _)
  | tempBegin => exact StackAlloc.Step.mark
  | @tempEnd t ts hts =>
    have hpos := (arenaPopTo_spec hI.chain hne (hI.temps t (hts ▸ List.mem_cons_self))).2.2
    have hmarks : s.abs.marks = t.mark :: ts.map Temp.mark := by
      rw [ArenaSys.abs, hts]
      rfl
    have hstep := StackAlloc.Step.release hmarks
    have habs : ArenaSys.abs { s with
        arena := arenaPopTo s.arena t.pos, live := s.live.filter (fun x => x.stamp < t.stamp), temps := ts } =
        ⟨t.pos.toNat, s.clock, (s.live.map Allocation.span).filter (fun x => x.stamp < t.stamp),
          ts.map Temp.mark⟩ := by
      simp only [ArenaSys.abs, hpos, filter_span]
    rw [habs]
    exact hstep
  | clear =>
    have hpos := (@arenaPopTo_spec 0 _ hI.chain hne (Nat.zero_le _)).2.2
    have habs : ArenaSys.abs { s with arena := arenaClear s.arena, live := [] } =
        { s.abs with top := 0, live := [] } := by
      simp only [ArenaSys.abs, arenaClear, hpos]
      rfl
    rw [habs]
    exact StackAlloc.Step.clear

theorem ArenaStep.inv {o : List ArenaOp} (h : ArenaStep s o s') (hI : ArenaInv s) : ArenaInv s' := by
  have hbook := (arenaStep_refines h hI).inv hI.book
  cases h with
  | @push size align p mallocs a hreq hp hmap =>
    have hpush := arenaPush_pushes hI.chain hI.current hreq hp hmap
    refine ⟨hmap, hpush.chain, hpush.current, ?_, ?_, hbook⟩
    · intro t ht
      refine (hI.temps t ht).trans ?_
      obtain ⟨rest, hrest⟩ := hpush.place
      have hcaps := congrArg (fun q => (q.map (fun r : UInt64 × UInt64 × UInt64 => r.2.1.toNat)).sum) hrest
      simp only [List.map_append, List.sum_append, List.map_map] at hcaps
      exact (Nat.le_add_right _ _).trans_eq hcaps
    · intro x hx
      rcases List.mem_cons.mp hx with rfl | hx
      · exact hpush.inside s.clock
      · exact in_of_place hpush.place (hI.live x hx)
  | tempBegin =>
    refine ⟨hI.mapped, hI.chain, hI.current, ?_, hI.live, hbook⟩
    intro t ht
    rcases List.mem_cons.mp ht with rfl | ht
    · exact hI.pos_le
    · exact hI.temps t ht
  | @tempEnd t ts hts =>
    have hpos := hI.temps t (hts ▸ List.mem_cons_self)
    refine hI.pop hpos (List.filter_subset_self _) (hts ▸ List.subset_cons_self t ts) ?_
    rw [ArenaSys.abs, (arenaPopTo_spec hI.chain ?_ hpos).2.2] at hbook
    · exact hbook
    · exact List.ne_nil_of_length_pos (Nat.zero_lt_of_lt hI.current)
  | clear =>
    refine hI.pop (Nat.zero_le _) (List.nil_subset _) (List.Subset.refl _) ?_
    rw [ArenaSys.abs, arenaClear, (arenaPopTo_spec hI.chain ?_ (Nat.zero_le _)).2.2] at hbook
    · exact hbook
    · exact List.ne_nil_of_length_pos (Nat.zero_lt_of_lt hI.current)

theorem ArenaInv.init (h : s.Init) : ArenaInv s := by
  obtain ⟨blockSize, malloc, halloc, hmap, hclock, hlive, htemps⟩ := h
  obtain ⟨arena, clock, live, temps⟩ := s
  dsimp only at halloc hmap hclock hlive htemps
  subst hclock hlive htemps
  cases malloc with
  | none => cases halloc
  | some addr =>
    cases halloc
    refine ⟨hmap, ⟨rfl, ?_, UInt64.le_iff_toNat_le.mpr (Nat.zero_le _), trivial⟩, Nat.zero_lt_one,
      fun t ht => (by cases ht), fun x hx => (by cases hx), ⟨fun x hx => (by cases hx), List.Pairwise.nil,
        fun x hx => (by cases hx), fun m hm => (by cases hm)⟩⟩
    have hlt := hmap.capSum_lt
    rw [capSum_cons] at hlt
    omega

/-- A run of calls is a run of the stack allocator. -/
theorem arenaTrace_refines {ops : List ArenaOp} (h : Trace ArenaStep s ops s') (hI : ArenaInv s) :
    ArenaInv s' ∧ Trace StackAlloc.Step s.abs (ops.map ArenaOp.kind) s'.abs := by
  induction h with
  | refl s => exact ⟨hI, Trace.refl _⟩
  | head hs _ ih =>
    obtain ⟨hI', htr⟩ := ih (hs.inv hI)
    rw [List.map_append]
    exact ⟨hI', Trace.head (arenaStep_refines hs hI) htr⟩

theorem ArenaReach.inv (h : ArenaReach s) : ArenaInv s := by
  obtain ⟨s₀, ops, hinit, htr⟩ := h
  exact (arenaTrace_refines htr (ArenaInv.init hinit)).1

/-! ## What the arena is for -/

/-- Two allocations whose positions do not meet do not meet in memory: within one block addresses go with
    positions, and different blocks are different objects. -/
theorem Arena.Mapped.apart (hm : a.Mapped) {x y : Allocation} (hx : ∃ b ∈ a.blocks, x.In b)
    (hy : ∃ c ∈ a.blocks, y.In c) (hpos : y.stop.toNat ≤ x.stop.toNat - x.size.toNat) :
    Apart y.addr.toNat y.size.toNat x.addr.toNat x.size.toNat := by
  obtain ⟨b, hb, hxlo, hxhi, hxaddr⟩ := hx
  obtain ⟨c, hc, hylo, hyhi, hyaddr⟩ := hy
  by_cases hbc : c = b
  · subst hbc
    exact .inl (by omega)
  · have hsymm : Std.Symm (fun b c : ArenaBlock =>
        Apart b.addr.toNat (32 + b.cap.toNat) c.addr.toNat (32 + c.cap.toNat)) := ⟨fun _ _ h => h.symm⟩
    have hobj := hm.2.forall hc hb hbc
    exact hobj.mono (by omega) (by omega) (by omega) (by omega)

/-- What is promised in the state `s`. The ranges are over addresses; `scope` is about any nested run of calls
    between a `temp_begin` and its `temp_end`. -/
structure StackAllocator (s : ArenaSys) : Prop where
  contiguous : ∀ (i : Nat) (b c : ArenaBlock), s.arena.blocks[i]? = some b → s.arena.blocks[i + 1]? = some c →
    c.basePos.toNat = b.basePos.toNat + b.cap.toNat
  live : s.live.Pairwise (fun x y => Apart x.addr.toNat x.size.toNat y.addr.toNat y.size.toNat)
  returns : ∀ size align mallocs, GoodRequest size align →
    (∃ p a, arenaPush s.arena size align mallocs = .ok p a) ∨
      mallocs.headD none = none ∧ arenaPush s.arena size align mallocs = .fatal
  push : ∀ size align mallocs p a, GoodRequest size align → arenaPush s.arena size align mallocs = .ok p a →
    a.Mapped →
    (∃ b ∈ a.blocks, b.addr.toNat + 32 ≤ p.toNat ∧
      p.toNat + size.toNat ≤ b.addr.toNat + 32 + b.cap.toNat) ∧
    p.toNat % align.toNat = 0 ∧
    ∀ x ∈ s.live, Apart x.addr.toNat x.size.toNat p.toNat size.toNat
  scope : ∀ ops s', Nested (ops.map ArenaOp.kind) →
    Trace ArenaStep s (.tempBegin :: (ops ++ [.tempEnd])) s' →
    arenaPos s'.arena = arenaPos s.arena ∧ (.clear ∉ ops → s'.live = s.live)

/-- The arena is a stack allocator, in every state that calls lead to. -/
theorem arena_stack_allocator {s : ArenaSys} (h : ArenaReach s) : StackAllocator s := by
  have hI := h.inv
  refine ⟨fun i b c hb hc => hI.chain.succ hb hc, ?_, ?_, ?_, ?_⟩
  · have hspans := List.pairwise_map.mp hI.book.apart
    refine hspans.imp_of_mem ?_
    intro x y hx hy hle
    exact (hI.mapped.apart (hI.live x hx) (hI.live y hy) hle).symm
  · intro size align mallocs hreq
    have hcur := hI.current
    exact arenaPushLoop_returns hreq hcur (by omega)
  · intro size align mallocs p a hreq hp hmap
    have hpush := arenaPush_pushes hI.chain hI.current hreq hp hmap
    have hin := hpush.inside s.clock
    refine ⟨?_, hpush.aligned, ?_⟩
    · obtain ⟨b, hb, hlo, hhi, haddr⟩ := hin
      simp only at hlo hhi haddr
      exact ⟨b, hb, by omega, by omega⟩
    · intro x hx
      have hbelow := hI.book.below _ (List.mem_map_of_mem hx)
      have habove := hpush.above
      simp only [Allocation.span, ArenaSys.abs] at hbelow
      exact hmap.apart hin (in_of_place hpush.place (hI.live x hx)) (by simp only; omega)
  · intro ops s' hn htr
    have habs := (arenaTrace_refines htr hI).2
    rw [List.map_cons, List.map_append] at habs
    obtain ⟨htop, -, hlive⟩ := scope_restores hI.book hn habs
    refine ⟨UInt64.toNat_inj.mp htop, ?_⟩
    intro hc
    have hspans : s'.live.map Allocation.span = s.live.map Allocation.span := by
      apply hlive
      intro hmem
      obtain ⟨op, hop, hkind⟩ := List.mem_map.mp hmem
      cases op <;> first | exact hc hop | cases hkind
    exact List.map_injective_iff.mpr (fun x y hxy => congrArg Span.val hxy) hspans

/-- A block of 64 bytes, a push of 40, and inside a `Temp` one of 48 that needs a second block. -/
def arenaSample : ArenaSys :=
  { arena := ⟨[⟨4096, 64, 40, 0⟩, ⟨8192, 64, 48, 64⟩], 1, 64⟩
    clock := 2
    live := [⟨8224, 48, 112, 1⟩, ⟨4128, 40, 40, 0⟩]
    temps := [⟨40, 1⟩] }

theorem arena_stack_allocator_sample : StackAllocator arenaSample := by
  refine arena_stack_allocator ⟨⟨⟨[⟨4096, 64, 0, 0⟩], 0, 64⟩, 0, [], []⟩,
    [.push 40 8 []] ++ ([.tempBegin] ++ ([.push 48 16 [some 8192]] ++ [])),
    ⟨64, some 4096, rfl, by decide, rfl, rfl, rfl⟩, ?_⟩
  refine Trace.head (.push (p := 4128) (a := ⟨[⟨4096, 64, 40, 0⟩], 0, 64⟩) ⟨⟨3, rfl⟩, by decide⟩ rfl (by decide)) ?_
  refine Trace.head .tempBegin ?_
  exact Trace.head (.push (p := 8224) (a := arenaSample.arena) ⟨⟨4, rfl⟩, by decide⟩ rfl (by decide))
    (Trace.refl arenaSample)

end HolyTls

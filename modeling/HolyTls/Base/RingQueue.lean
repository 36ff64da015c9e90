import HolyTls.Base.Ring

/-!
# `Base.RingQueue` — the ring allocator is a FIFO queue of blocks

The bytes between `tail` and `head` are a sequence of slots, one for each live block: an optional skip
marker that reaches to the physical end, a header, the data. `Layout` says that a queue of blocks is laid
out so, and `RaInv` adds what the two sides know about each other: the cached tail is an old tail, the
cached head is an old head, and an outstanding reservation lies in the free part. Every step keeps the
invariant (`raStep_inv`), because a producer only ever writes behind `head`, where no slot is (`Layout.frame`).
-/

namespace HolyTls

open ByteMem

variable {n x : Nat} {ra : RaRing}

/-- A live block: where its header is, and what it was committed with. -/
structure Block where
  hdr : Nat
  size : Nat
  tag : Nat
  data : List UInt8

/-! ## Arithmetic of the ring -/

theorem raPad_ge (n : Nat) : n ≤ raPad n := by
  unfold raPad
  omega

theorem raPad_dvd (n : Nat) : 16 ∣ raPad n := ⟨(n + 15) / 16, by unfold raPad; omega⟩

theorem raPad_le {k : Nat} (h : n ≤ k) (hk : 16 ∣ k) : raPad n ≤ k := by
  unfold raPad
  omega

/-- A capacity the allocator accepts: a power of two, at least 32, that fits 64 bits. -/
structure CapOk (cap : Nat) : Prop where
  pow : ∃ k, 5 ≤ k ∧ k < 64 ∧ cap = 2 ^ k

namespace CapOk

variable {cap : Nat}

theorem dvd (h : CapOk cap) : 16 ∣ cap := by
  obtain ⟨k, hk, -, rfl⟩ := h.pow
  exact Nat.pow_dvd_pow 2 (show 4 ≤ k by omega)

theorem pos (h : CapOk cap) : 0 < cap := by
  obtain ⟨k, -, -, rfl⟩ := h.pow
  exact Nat.two_pow_pos k

theorem le (h : CapOk cap) : cap ≤ 2 ^ 63 := by
  obtain ⟨k, -, hk, rfl⟩ := h.pow
  exact Nat.pow_le_pow_right (by omega) (by omega)

theorem and_mask (h : CapOk cap) (x : Nat) : x &&& (cap - 1) = x % cap := by
  obtain ⟨k, -, -, rfl⟩ := h.pow
  exact Nat.and_two_pow_sub_one_eq_mod x k

theorem mod_dvd (h : CapOk cap) (hx : 16 ∣ x) : 16 ∣ x % cap :=
  (Nat.dvd_mod_iff h.dvd).mpr hx

/-- An aligned header never wraps. -/
theorem hdr_fits (h : CapOk cap) (hx : 16 ∣ x) : x % cap + 16 ≤ cap := by
  have h1 := h.mod_dvd hx
  have h2 := h.dvd
  have h3 := Nat.mod_lt x h.pos
  omega

end CapOk

/-- The ring's capacity. -/
abbrev RaRing.cap (ra : RaRing) : Nat := ra.mask + 1

theorem RaRing.and_mask (hc : CapOk ra.cap) (x : Nat) : x &&& ra.mask = x % ra.cap :=
  hc.and_mask x

/-! ## Slots -/

/-- The bytes of a header. -/
def hdrBytes (sizeFlags tag : Nat) : List UInt8 := le 8 sizeFlags ++ le 8 tag

@[simp] theorem hdrBytes_length (sizeFlags tag : Nat) : (hdrBytes sizeFlags tag).length = 16 := by
  simp [hdrBytes]

/-- The block `b` stands at offset `o`. -/
structure BlockAt (m : Mem) (cap o : Nat) (b : Block) : Prop where
  aligned : 16 ∣ o
  place : o % cap = b.hdr
  fits : o % cap + 16 + raPad b.size ≤ cap
  tag_lt : b.tag < 2 ^ 64
  hdr : read m (o % cap) 16 = hdrBytes b.size b.tag
  data : read m (o % cap + 16) b.size = b.data

/-- A skip marker at offset `o` covers the `n` bytes to the physical end. -/
structure SkipAt (m : Mem) (cap o n : Nat) : Prop where
  aligned : 16 ∣ o
  toEnd : o % cap + n = cap
  pos : 16 ≤ n
  hdr : read m (o % cap) 16 = hdrBytes (raSkip ||| (n - 16)) 0

/-- The slot of `b` reaches from one offset to another. -/
inductive Slot (m : Mem) (cap : Nat) : Nat → Block → Nat → Prop
  | plain {o : Nat} {b : Block} (hb : BlockAt m cap o b) : Slot m cap o b (o + 16 + raPad b.size)
  | skipped {o n : Nat} {b : Block} (hs : SkipAt m cap o n) (hb : BlockAt m cap (o + n) b) :
      Slot m cap o b (o + n + 16 + raPad b.size)

/-- The queue `q` is laid out between two offsets. -/
inductive Layout (m : Mem) (cap : Nat) : Nat → List Block → Nat → Prop
  | nil (o : Nat) : Layout m cap o [] o
  | cons {o mid h : Nat} {b : Block} {q : List Block} (hs : Slot m cap o b mid)
      (hrest : Layout m cap mid q h) : Layout m cap o (b :: q) h

variable {m m' : Mem} {cap o mid h : Nat} {b : Block} {q q' : List Block}

theorem Slot.lt (hs : Slot m cap o b mid) : o + 16 ≤ mid := by
  cases hs with
  | plain hb | skipped hs hb => omega

theorem Slot.aligned (hs : Slot m cap o b mid) : 16 ∣ mid := by
  have hp := raPad_dvd b.size
  cases hs with
  | plain hb | skipped hs hb =>
    have := hb.aligned
    omega

theorem Layout.le (hl : Layout m cap o q h) : o ≤ h := by
  induction hl with
  | nil o => exact le_refl o
  | cons hs _ ih => exact le_trans (by have := hs.lt; omega) ih

theorem Layout.aligned (hl : Layout m cap o q h) (ho : 16 ∣ o) : 16 ∣ h := by
  induction hl with
  | nil o => exact ho
  | cons hs _ ih => exact ih hs.aligned

theorem Layout.of_nil (hl : Layout m cap o [] h) : h = o := by
  cases hl
  rfl

theorem Layout.of_cons (hl : Layout m cap o (b :: q) h) :
    ∃ mid, Slot m cap o b mid ∧ Layout m cap mid q h := by
  cases hl with
  | cons hs hrest => exact ⟨_, hs, hrest⟩

theorem Layout.append (hl : Layout m cap o q mid) (hl' : Layout m cap mid q' h) :
    Layout m cap o (q ++ q') h := by
  induction hl with
  | nil o => exact hl'
  | cons hs _ ih => exact .cons hs (ih hl')

theorem Layout.snoc (hl : Layout m cap o q mid) (hs : Slot m cap mid b h) :
    Layout m cap o (q ++ [b]) h := hl.append (.cons hs (.nil h))

/-- Where a live block stands. -/
theorem Layout.mem (hl : Layout m cap o q h) (hb : b ∈ q) :
    ∃ x, BlockAt m cap x b ∧ o ≤ x ∧ x + 16 + raPad b.size ≤ h := by
  induction hl with
  | nil o => cases hb
  | @cons o mid h c q hs hrest ih =>
    rcases List.mem_cons.mp hb with rfl | hb
    · have hle := hrest.le
      cases hs with
      | plain hb => exact ⟨o, hb, le_refl o, hle⟩
      | skipped hs hb => exact ⟨_, hb, Nat.le_add_right _ _, hle⟩
    · obtain ⟨x, hx, hox, hxh⟩ := ih hb
      exact ⟨x, hx, by have := hs.lt; omega, hxh⟩

/-! ### Frames: what a layout depends on -/

theorem read_offsets {len : Nat} (hfit : x % cap + len ≤ cap)
    (hagree : ∀ y, x ≤ y → y < x + len → m' (y % cap) = m (y % cap)) :
    read m' (x % cap) len = read m (x % cap) len := by
  apply read_congr
  intro k hk
  rw [← mod_add_of_fits (show x % cap + k < cap by omega)]
  exact hagree (x + k) (by omega) (by omega)

theorem BlockAt.frame (hb : BlockAt m cap o b)
    (hagree : ∀ y, o ≤ y → y < o + 16 + raPad b.size → m' (y % cap) = m (y % cap)) :
    BlockAt m' cap o b := by
  have hpad := raPad_ge b.size
  have hfits := hb.fits
  refine ⟨hb.aligned, hb.place, hb.fits, hb.tag_lt, ?_, ?_⟩
  · rw [read_offsets (by omega) (fun y h1 h2 => hagree y h1 (by omega))]
    exact hb.hdr
  · -- header and data are one range
    have hall : read m' (o % cap) (16 + b.size) = read m (o % cap) (16 + b.size) :=
      read_offsets (by omega) (fun y h1 h2 => hagree y h1 (by omega))
    rw [read_add, read_add] at hall
    rw [(List.append_inj hall (by simp)).2]
    exact hb.data

theorem SkipAt.frame (hc : CapOk cap) (hs : SkipAt m cap o n)
    (hagree : ∀ y, o ≤ y → y < o + 16 → m' (y % cap) = m (y % cap)) : SkipAt m' cap o n := by
  refine ⟨hs.aligned, hs.toEnd, hs.pos, ?_⟩
  rw [read_offsets (hc.hdr_fits hs.aligned) hagree]
  exact hs.hdr

theorem Slot.frame (hc : CapOk cap) (hs : Slot m cap o b mid)
    (hagree : ∀ y, o ≤ y → y < mid → m' (y % cap) = m (y % cap)) : Slot m' cap o b mid := by
  cases hs with
  | plain hb => exact .plain (hb.frame hagree)
  | skipped hs hb =>
    exact .skipped (hs.frame hc (fun y h1 h2 => hagree y h1 (by have := hs.pos; omega)))
      (hb.frame (fun y h1 h2 => hagree y (by omega) h2))

/-- **A layout only depends on the bytes at its own offsets.** -/
theorem Layout.frame (hc : CapOk cap) (hl : Layout m cap o q h)
    (hagree : ∀ y, o ≤ y → y < h → m' (y % cap) = m (y % cap)) : Layout m' cap o q h := by
  induction hl with
  | nil o => exact .nil o
  | cons hs hrest ih =>
    have hle := hrest.le
    have hlt := hs.lt
    exact .cons (hs.frame hc (fun y h1 h2 => hagree y h1 (by omega)))
      (ih (fun y h1 h2 => hagree y (by omega) h2))

/-! ## Reading a slot -/

theorem ofLe_hdrBytes {m : Mem} {i sizeFlags tag : Nat} (h : read m i 16 = hdrBytes sizeFlags tag)
    (hs : sizeFlags < 2 ^ 64) (ht : tag < 2 ^ 64) :
    ofLe (read m i 8) = sizeFlags ∧ ofLe (read m (i + 8) 8) = tag := by
  rw [show (16 : Nat) = 8 + 8 from rfl, read_add] at h
  obtain ⟨h1, h2⟩ := List.append_inj h (by simp)
  have h256 : (256 : Nat) ^ 8 = 2 ^ 64 := by norm_num
  exact ⟨by rw [h1, ofLe_le (by omega)], by rw [h2, ofLe_le (by omega)]⟩

theorem BlockAt.size_lt (hc : CapOk cap) (hb : BlockAt m cap o b) : b.size < 2 ^ 63 := by
  have h1 := hb.fits
  have h2 := hc.le
  have h3 := raPad_ge b.size
  omega

theorem raHdrRead_block (hc : CapOk ra.cap) (hb : BlockAt ra.buf ra.cap o b) :
    raHdrRead ra o = { sizeFlags := b.size, tag := b.tag } := by
  have hsize := hb.size_lt hc
  obtain ⟨h1, h2⟩ := ofLe_hdrBytes hb.hdr (by omega) hb.tag_lt
  unfold raHdrRead
  rw [RaRing.and_mask hc, h1, h2]

theorem not_isSkip_block (hc : CapOk cap) (hb : BlockAt m cap o b) (tag : Nat) :
    RaHdr.isSkip { sizeFlags := b.size, tag := tag } = false := by
  unfold RaHdr.isSkip
  exact Nat.testBit_lt_two_pow (hb.size_lt hc)

theorem raHdrRead_skip (hc : CapOk ra.cap) (hs : SkipAt ra.buf ra.cap o n) :
    (raHdrRead ra o).isSkip = true ∧ (raHdrRead ra o).sizeFlags % raSkip = n - 16 := by
  have hn : n - 16 < 2 ^ 63 := by
    have h1 := hs.toEnd
    have h2 := hc.le
    have h3 := hc.pos
    have h4 := hs.pos
    omega
  have hor : raSkip ||| (n - 16) = raSkip + (n - 16) := by
    have := Nat.two_pow_add_eq_or_of_lt hn 1
    rw [Nat.mul_one] at this
    exact this.symm
  obtain ⟨h1, -⟩ := ofLe_hdrBytes hs.hdr (by rw [hor, raSkip]; omega) (by omega)
  have hflags : (raHdrRead ra o).sizeFlags = raSkip + (n - 16) := by
    unfold raHdrRead
    rw [RaRing.and_mask hc, h1, hor]
  constructor
  · unfold RaHdr.isSkip
    rw [hflags, raSkip, Nat.testBit_two_pow_add_eq]
    rw [Nat.testBit_lt_two_pow hn]
    rfl
  · rw [hflags, raSkip, Nat.add_mod_left, Nat.mod_eq_of_lt hn]

/-- What both consumer calls find at the front of a slot: after hopping a skip marker, the header of the
    block, and behind it the end of the slot. -/
theorem Slot.front (hc : CapOk ra.cap) (hs : Slot ra.buf ra.cap o b mid) (hlt : mid < 2 ^ 64) :
    ∃ x, o ≤ x ∧ BlockAt ra.buf ra.cap x b ∧ mid = x + 16 + raPad b.size ∧
      (((raHdrRead ra o).isSkip = false ∧ x = o) ∨
       ((raHdrRead ra o).isSkip = true ∧ raHop o (raHdrRead ra o) = x)) := by
  cases hs with
  | plain hb =>
    refine ⟨o, le_refl o, hb, rfl, .inl ⟨?_, rfl⟩⟩
    rw [raHdrRead_block hc hb]
    exact not_isSkip_block hc hb b.tag
  | @skipped n _ hs hb =>
    obtain ⟨h1, h2⟩ := raHdrRead_skip hc hs
    refine ⟨o + n, Nat.le_add_right _ _, hb, rfl, .inr ⟨h1, ?_⟩⟩
    have hpos := hs.pos
    unfold raHop
    rw [h2, raHdrBytes, Nat.mod_eq_of_lt (by omega)]
    omega

theorem Slot.end_unique {mid' : Nat} (hc : CapOk ra.cap) (hs : Slot ra.buf ra.cap o b mid)
    (hs' : Slot ra.buf ra.cap o b mid') (hlt : mid < 2 ^ 64) (hlt' : mid' < 2 ^ 64) : mid = mid' := by
  obtain ⟨x, -, -, rfl, hx⟩ := hs.front hc hlt
  obtain ⟨x', -, -, rfl, hx'⟩ := hs'.front hc hlt'
  rcases hx with ⟨h1, rfl⟩ | ⟨h1, hx⟩
  · rcases hx' with ⟨-, rfl⟩ | ⟨h2, -⟩
    · rfl
    · rw [h1] at h2; cases h2
  · rcases hx' with ⟨h2, -⟩ | ⟨-, hx'⟩
    · rw [h1] at h2; cases h2
    · rw [← hx, ← hx']

/-! ## The invariant -/

/-- An outstanding reservation: its header follows `head`, or the skip marker at `head`, and what may be
    committed ends before the physical end and before the oldest byte the producer knows to be live. -/
structure RsvOk (ra : RaRing) : Prop where
  place : ra.rsvHdr = ra.head ∨
    ∃ n, SkipAt ra.buf ra.cap ra.head n ∧ ra.rsvHdr = ra.head + n
  aligned : 16 ∣ ra.rsvHdr
  maxAl : 16 ∣ ra.rsvMax
  fits : ra.rsvHdr % ra.cap + 16 + ra.rsvMax ≤ ra.cap
  free : ra.rsvHdr + 16 + ra.rsvMax ≤ ra.tailCache + ra.cap

theorem RsvOk.head_le (hr : RsvOk ra) : ra.head ≤ ra.rsvHdr := by
  rcases hr.place with h | ⟨n, -, h⟩ <;> omega

/-- The ring `ra` holds the queue `q`. -/
structure RaInv (ra : RaRing) (q : List Block) : Prop where
  capOk : CapOk ra.cap
  tailAl : 16 ∣ ra.tail
  headLt : ra.head < 2 ^ 64
  layout : Layout ra.buf ra.cap ra.tail q ra.head
  cacheLe : ra.tailCache ≤ ra.tail
  cacheAl : 16 ∣ ra.tailCache
  cacheFull : ra.head ≤ ra.tailCache + ra.cap
  headCache : ra.headCache ≤ ra.tail ∨
    ∃ q₁ q₂, q = q₁ ++ q₂ ∧ q₁ ≠ [] ∧ Layout ra.buf ra.cap ra.tail q₁ ra.headCache ∧
      Layout ra.buf ra.cap ra.headCache q₂ ra.head
  rsv : ra.rsvActive = true → RsvOk ra

theorem raInv_init {capacity : Nat} (hc : CapOk capacity) (mem : Mem) : RaInv (raInit mem capacity) [] := by
  have hcap : (raInit mem capacity).cap = capacity := by
    have := hc.pos
    show capacity - 1 + 1 = capacity
    omega
  exact ⟨by rw [hcap]; exact hc, ⟨0, rfl⟩, by show 0 < 2 ^ 64; omega, .nil 0, le_refl 0, ⟨0, rfl⟩,
    Nat.zero_le _, .inl (le_refl 0), fun hact => by cases hact⟩

variable {ra : RaRing}

theorem RaInv.headAl (hi : RaInv ra q) : 16 ∣ ra.head := hi.layout.aligned hi.tailAl

/-- The bytes at the live offsets are untouched. -/
def LiveUntouched (ra : RaRing) (m' : Mem) : Prop :=
  ∀ y, ra.tail ≤ y → y < ra.head → m' (y % ra.cap) = ra.buf (y % ra.cap)

/-- An old head is behind the tail, or closes a part of the queue. -/
def OldHead (m : Mem) (cap tail hc : Nat) (q : List Block) (head : Nat) : Prop :=
  hc ≤ tail ∨ ∃ q₁ q₂, q = q₁ ++ q₂ ∧ q₁ ≠ [] ∧ Layout m cap tail q₁ hc ∧ Layout m cap hc q₂ head

theorem OldHead.frame {tail hc : Nat} (hcap : CapOk cap) (ho : OldHead m cap tail hc q h)
    (hagree : ∀ y, tail ≤ y → y < h → m' (y % cap) = m (y % cap)) : OldHead m' cap tail hc q h := by
  rcases ho with hle | ⟨q₁, q₂, hq, hne, h1, h2⟩
  · exact .inl hle
  · have hle1 := h1.le
    have hle2 := h2.le
    exact .inr ⟨q₁, q₂, hq, hne, h1.frame hcap (fun y ha hb => hagree y ha (by omega)),
      h2.frame hcap (fun y ha hb => hagree y (by omega) hb)⟩

/-- Changing only free bytes, and the producer's own fields, keeps the queue. -/
theorem RaInv.producer (hi : RaInv ra q) {m' : Mem} (hm : LiveUntouched ra m') {tc rh rm : Nat} {act : Bool}
    (htc : tc ≤ ra.tail) (htcAl : 16 ∣ tc) (htcFull : ra.head ≤ tc + ra.cap)
    (hrsv : act = true →
      RsvOk { ra with buf := m', tailCache := tc, rsvHdr := rh, rsvMax := rm, rsvActive := act }) :
    RaInv { ra with buf := m', tailCache := tc, rsvHdr := rh, rsvMax := rm, rsvActive := act } q :=
  ⟨hi.capOk, hi.tailAl, hi.headLt, hi.layout.frame hi.capOk hm, htc, htcAl, htcFull,
    OldHead.frame hi.capOk hi.headCache hm, hrsv⟩

/-- Writing from the offset `x` on, behind `head` and within one turn of `tail`, changes only free bytes. -/
theorem RaInv.liveUntouched_write (hi : RaInv ra q) {bs : List UInt8} (hx : ra.head ≤ x)
    (hspan : x + bs.length ≤ ra.tail + ra.cap) : LiveUntouched ra (write ra.buf (x % ra.cap) bs) := by
  intro y hlo hhi
  exact write_agrees_before hi.capOk.pos hx hspan hlo hhi

/-! ## The producer's steps -/

/-- What `ra_reserve` hands out: an aligned, contiguous span inside the buffer, long enough, that meets no
    live block and no live header. -/
structure SpanOk (cap : Nat) (q : List Block) (minSize ptr max : Nat) : Prop where
  aligned : 16 ∣ ptr
  inside : ptr + max ≤ cap
  enough : minSize ≤ max
  disjoint : ∀ b ∈ q, ptr + max ≤ b.hdr ∨ b.hdr + 16 + b.size ≤ ptr

/-- A reservation's span avoids every live block. -/
theorem RaInv.span (hi : RaInv ra q) (hact : ra.rsvActive = true) {minSize : Nat}
    (hmin : minSize ≤ ra.rsvMax) :
    SpanOk ra.cap q minSize ((ra.rsvHdr + 16) % ra.cap) ra.rsvMax := by
  have hr := hi.rsv hact
  have hpos := hi.capOk.pos
  have hfits := hr.fits
  have hfree := hr.free
  have htc := hi.cacheLe
  have hhead := hr.head_le
  refine ⟨hi.capOk.mod_dvd (by have := hr.aligned; omega), ?_, hmin, ?_⟩
  · by_cases hz : ra.rsvHdr % ra.cap + 16 < ra.cap
    · rw [mod_add_of_fits hz]
      omega
    · have := Nat.mod_lt (ra.rsvHdr + 16) hpos
      omega
  · intro b hb
    obtain ⟨x, hbx, htx, hxh⟩ := hi.layout.mem hb
    have hpad := raPad_ge b.size
    rcases disjoint_mod hpos (show x + (16 + b.size) ≤ ra.rsvHdr + 16 by omega)
      (show ra.rsvHdr + 16 + ra.rsvMax ≤ x + ra.cap by omega) with h | h
    · right
      rw [← hbx.place]
      omega
    · left
      rw [← hbx.place]
      exact h

/-- The padding of a reservation: none, or all bytes to the physical end. -/
theorem raReserveSkip_cases (hc : CapOk ra.cap) (hhead : 16 ∣ ra.head) (minSize : Nat) :
    (raReserveSkip ra minSize = 0 ∧ ra.head % ra.cap + 16 + raPad minSize ≤ ra.cap) ∨
    (ra.head % ra.cap + raReserveSkip ra minSize = ra.cap ∧ 16 ≤ raReserveSkip ra minSize) := by
  have hfit := hc.hdr_fits hhead
  have hcap : ra.mask + 1 = ra.cap := rfl
  simp only [raReserveSkip, RaRing.and_mask hc, raHdrBytes, hcap]
  split
  · right
    omega
  · left
    omega

theorem skipAt_write (hhead : 16 ∣ ra.head) (hend : ra.head % ra.cap + n = ra.cap) (hpos : 16 ≤ n) :
    SkipAt (write ra.buf (ra.head % ra.cap) (hdrBytes (raSkip ||| (n - 16)) 0)) ra.cap ra.head n := by
  refine ⟨hhead, hend, hpos, ?_⟩
  have := read_write_self ra.buf (ra.head % ra.cap) (hdrBytes (raSkip ||| (n - 16)) 0)
  rwa [hdrBytes_length] at this

theorem RaInv.refresh (hi : RaInv ra q) (hact : ra.rsvActive = false) :
    RaInv { ra with tailCache := ra.tail } q := by
  have hfull := hi.cacheFull
  have hle := hi.cacheLe
  exact hi.producer (fun y _ _ => rfl) (le_refl _) hi.tailAl (by omega)
    (fun h => by rw [hact] at h; cases h)

/-- Without padding the reservation starts at `head`. -/
theorem RaInv.place_plain (hi : RaInv ra q) {need : Nat} (hneed : 16 ∣ need)
    (hroom : ra.head + 16 + need ≤ ra.tailCache + ra.cap)
    (hfit : ra.head % ra.cap + 16 + need ≤ ra.cap) :
    RaInv (raPlace ra 0).1 q ∧ (raPlace ra 0).1.rsvActive = true ∧ need ≤ (raPlace ra 0).1.rsvMax := by
  have hcap : ra.mask + 1 = ra.cap := rfl
  have hmod := hi.capOk.mod_dvd hi.headAl
  have hhead := hi.headAl
  have hcapAl := hi.capOk.dvd
  have htc := hi.cacheAl
  have hle := hi.cacheLe
  have hlh := hi.layout.le
  simp only [raPlace, if_true, Nat.add_zero, Nat.sub_zero, raHdrBytes, RaRing.and_mask hi.capOk, hcap,
    true_and]
  generalize hmax : min (ra.cap - ra.head % ra.cap - 16) (ra.cap - (ra.head - ra.tailCache) - 16) = max
  refine ⟨hi.producer (fun y _ _ => rfl) hle htc hi.cacheFull (fun _ => ?_), by omega⟩
  exact ⟨.inl rfl, hhead, by show 16 ∣ max; omega,
    by show ra.head % ra.cap + 16 + max ≤ ra.cap; omega,
    by show ra.head + 16 + max ≤ ra.tailCache + ra.cap; omega⟩

/-- With padding a skip marker stands at `head`, and the reservation starts at the physical start. -/
theorem RaInv.place_skipped (hi : RaInv ra q) {need : Nat} (hneed : 16 ∣ need)
    (hend : ra.head % ra.cap + n = ra.cap) (hn : 16 ≤ n)
    (hroom : ra.head + n + 16 + need ≤ ra.tailCache + ra.cap) :
    RaInv (raPlace ra n).1 q ∧ (raPlace ra n).1.rsvActive = true ∧ need ≤ (raPlace ra n).1.rsvMax := by
  have hcap : ra.mask + 1 = ra.cap := rfl
  have hmod := hi.capOk.mod_dvd hi.headAl
  have hhead := hi.headAl
  have hcapAl := hi.capOk.dvd
  have htc := hi.cacheAl
  have hle := hi.cacheLe
  have hlh := hi.layout.le
  have hne : ¬ n = 0 := by omega
  have hwrap : (ra.head + n) % ra.cap = 0 := by
    rw [← Nat.mod_add_mod, hend, Nat.mod_self]
  have hfree : LiveUntouched ra
      (write ra.buf (ra.head % ra.cap) (hdrBytes (raSkip ||| (n - 16)) 0)) :=
    hi.liveUntouched_write (le_refl _) (by rw [hdrBytes_length]; omega)
  simp only [raPlace, hne, if_false, raHdrWrite, raHdrBytes, RaRing.and_mask hi.capOk, hcap, true_and]
  generalize hmax : min (ra.cap - 16) (ra.cap - (ra.head - ra.tailCache) - n - 16) = max
  refine ⟨hi.producer hfree hle htc hi.cacheFull (fun _ => ?_), by omega⟩
  exact ⟨.inr ⟨n, skipAt_write hhead hend hn, rfl⟩, by show 16 ∣ ra.head + n; omega,
    by show 16 ∣ max; omega,
    by show (ra.head + n) % ra.cap + 16 + max ≤ ra.cap; omega,
    by show ra.head + n + 16 + max ≤ ra.tailCache + ra.cap; omega⟩

/-- What the second half of `ra_reserve` returns. -/
theorem raPlace_result (hc : CapOk ra.cap) (n : Nat) :
    (raPlace ra n).2 =
        (((raPlace ra n).1.rsvHdr + 16) % (raPlace ra n).1.cap, (raPlace ra n).1.rsvMax) ∧
      (raPlace ra n).1.cap = ra.cap ∧ (raPlace ra n).1.rsvHdr = ra.head + n := by
  by_cases hn : n = 0
  · simp only [raPlace, hn, if_true, raHdrBytes, RaRing.and_mask hc, and_self]
  · simp only [raPlace, hn, if_false, raHdrWrite, raHdrBytes, RaRing.and_mask hc, and_self]

/-- The offsets a call of `ra_reserve` computes are below `2^64`. -/
def OffsetsFit (ra : RaRing) (minSize : Nat) : Prop :=
  minSize ≤ ra.cap → ra.head + raReserveSkip ra minSize + 16 + raPad minSize < 2 ^ 64

/-- **`ra_reserve`**, on a ring without a reservation, is null or hands out a span as promised; the queue
    stays as it is. -/
theorem raReserve_spec (hi : RaInv ra q) (hact : ra.rsvActive = false) {minSize : Nat}
    (hlt : OffsetsFit ra minSize) :
    ∃ ra' res, raReserve ra minSize = some (ra', res) ∧ RaInv ra' q ∧ ra'.cap = ra.cap ∧
      ∀ ptr max, res = some (ptr, max) →
        ra'.rsvActive = true ∧ ra'.rsvMax = max ∧ SpanOk ra.cap q minSize ptr max ∧
        ra'.rsvHdr + 16 + raPad minSize < 2 ^ 64 := by
  have hfree : ¬ ra.rsvActive = true := by rw [hact]; exact Bool.false_ne_true
  unfold raReserve
  rw [if_neg hfree]
  by_cases hmin : minSize > ra.mask + 1
  · simp only [hmin, if_true]
    exact ⟨ra, none, rfl, hi, rfl, fun ptr max h => by cases h⟩
  have hlt := hlt (Nat.le_of_not_gt hmin)
  have hmod : (raReserveSkip ra minSize + raHdrBytes + raPad minSize) % 2 ^ 64 =
      raReserveSkip ra minSize + 16 + raPad minSize := Nat.mod_eq_of_lt (by unfold raHdrBytes; omega)
  simp only [hmin, if_false, hmod]
  have hskip := raReserveSkip_cases hi.capOk hi.headAl minSize
  generalize raReserveSkip ra minSize = n at hskip hlt ⊢
  -- whichever tail is used, the ring with it satisfies the invariant
  obtain ⟨ra₁, hra₁, hi₁, hact₁, hhead₁, hcap₁⟩ : ∃ ra₁,
      (if ra.mask + 1 - (ra.head - ra.tailCache) < n + 16 + raPad minSize
        then { ra with tailCache := ra.tail } else ra) = ra₁ ∧
      RaInv ra₁ q ∧ ra₁.rsvActive = false ∧ ra₁.head = ra.head ∧ ra₁.cap = ra.cap := by
    split
    · exact ⟨_, rfl, hi.refresh hact, hact, rfl, rfl⟩
    · exact ⟨_, rfl, hi, hact, rfl, rfl⟩
  rw [hra₁]
  by_cases hroom : ra.mask + 1 - (ra₁.head - ra₁.tailCache) < n + 16 + raPad minSize
  · simp only [hroom, if_true]
    exact ⟨ra₁, none, rfl, hi₁, hcap₁, fun ptr max h => by cases h⟩
  simp only [hroom, if_false]
  have hmask : ra.mask + 1 = ra₁.cap := hcap₁.symm
  have hneed := raPad_dvd minSize
  have hge := raPad_ge minSize
  have hfull := hi₁.cacheFull
  have hle := hi₁.layout.le
  have htc := hi₁.cacheLe
  rw [← hhead₁, ← hcap₁] at hskip
  have hplaced : RaInv (raPlace ra₁ n).1 q ∧ (raPlace ra₁ n).1.rsvActive = true ∧
      raPad minSize ≤ (raPlace ra₁ n).1.rsvMax := by
    rcases hskip with ⟨rfl, hfit⟩ | ⟨hend, hn⟩
    · exact hi₁.place_plain hneed (by omega) hfit
    · exact hi₁.place_skipped hneed hend hn (by omega)
  obtain ⟨hinv, hact', hmax⟩ := hplaced
  obtain ⟨hres', hcap', hhdr'⟩ := raPlace_result hi₁.capOk n
  refine ⟨_, _, rfl, hinv, hcap'.trans hcap₁, ?_⟩
  intro ptr max hres
  rw [hres'] at hres
  cases hres
  refine ⟨hact', rfl, ?_, by omega⟩
  rw [← hcap₁, ← hcap']
  exact hinv.span hact' (by omega)

/-- Writing inside the reserved span keeps the queue and the reservation. -/
theorem raFill_inv (hi : RaInv ra q) (hact : ra.rsvActive = true) {i : Nat} {bs : List UInt8}
    (hfit : i + bs.length ≤ ra.rsvMax) : RaInv (raFill ra i bs) q := by
  have hr := hi.rsv hact
  have hfits := hr.fits
  have hfree := hr.free
  have hle := hi.cacheLe
  by_cases hbs : bs = []
  · subst hbs
    have hsame : raFill ra i [] = ra := by unfold raFill; rw [write_nil]
    rw [hsame]
    exact hi
  have hlen : 0 < bs.length := List.length_pos_iff.mpr hbs
  -- the span is one range of offsets, all behind the reservation's header
  have hpos : (ra.rsvHdr + 16 &&& ra.mask) + i = (ra.rsvHdr + 16 + i) % ra.cap := by
    rw [RaRing.and_mask hi.capOk, mod_add_of_fits (show ra.rsvHdr % ra.cap + 16 < ra.cap by omega),
      Nat.add_assoc ra.rsvHdr,
      mod_add_of_fits (show ra.rsvHdr % ra.cap + (16 + i) < ra.cap by omega), Nat.add_assoc]
  have hhead := hr.head_le
  unfold raFill
  rw [raHdrBytes, hpos]
  refine hi.producer (hi.liveUntouched_write (by omega) (by omega)) hle hi.cacheAl hi.cacheFull (fun _ => ?_)
  refine ⟨?_, hr.aligned, hr.maxAl, hr.fits, hr.free⟩
  rcases hr.place with h | ⟨n, hs, h⟩
  · exact .inl h
  · refine .inr ⟨n, hs.frame hi.capOk ?_, h⟩
    intro y (hlo : ra.head ≤ y) (hhi : y < ra.head + 16)
    have hn := hs.pos
    exact write_agrees_before hi.capOk.pos (show ra.rsvHdr ≤ ra.rsvHdr + 16 + i by omega)
      (show ra.rsvHdr + 16 + i + bs.length ≤ ra.head + ra.cap by have := hi.layout.le; omega)
      hlo (by omega)

theorem RsvOk.slot (hr : RsvOk ra) (hc : CapOk ra.cap) (htc : ra.tailCache ≤ ra.head) {size tag : Nat}
    (hsize : size ≤ ra.rsvMax) (htag : tag < 2 ^ 64) :
    Slot (write ra.buf (ra.rsvHdr % ra.cap) (hdrBytes size tag)) ra.cap ra.head
      { hdr := ra.rsvHdr % ra.cap, size := size, tag := tag
        data := read ra.buf (ra.rsvHdr % ra.cap + 16) size }
      (ra.rsvHdr + 16 + raPad size) := by
  have hpad := raPad_le hsize hr.maxAl
  have hfits := hr.fits
  have hfree := hr.free
  -- the block itself: the header is what was just written, the data is behind it
  have hb : BlockAt (write ra.buf (ra.rsvHdr % ra.cap) (hdrBytes size tag)) ra.cap ra.rsvHdr
      { hdr := ra.rsvHdr % ra.cap, size := size, tag := tag
        data := read ra.buf (ra.rsvHdr % ra.cap + 16) size } := by
    refine ⟨hr.aligned, rfl, by show _ + 16 + raPad size ≤ _; omega, htag, ?_, ?_⟩
    · have := read_write_self ra.buf (ra.rsvHdr % ra.cap) (hdrBytes size tag)
      rwa [hdrBytes_length] at this
    · exact read_write_of_disjoint (.inr (by rw [hdrBytes_length]))
  rcases hr.place with h | ⟨n, hs, h⟩
  · rw [← h]
    exact .plain hb
  · -- the skip marker lies before the header
    have hs' : SkipAt (write ra.buf (ra.rsvHdr % ra.cap) (hdrBytes size tag)) ra.cap ra.head n := by
      apply hs.frame hc
      intro y hlo hhi
      have hn := hs.pos
      exact write_agrees_before hc.pos (le_refl ra.rsvHdr)
        (show ra.rsvHdr + (hdrBytes size tag).length ≤ ra.head + ra.cap by rw [hdrBytes_length]; omega)
        hlo (by omega)
    rw [h] at hs' hb ⊢
    exact .skipped hs' hb

/-- The block published by the last commit, of `size` bytes with `tag`: its bytes are those of the span. -/
def published (ra : RaRing) (size tag : Nat) : Block :=
  { hdr := ra.rsvHdr % ra.cap, size := size, tag := tag
    data := read ra.buf (ra.rsvHdr % ra.cap + 16) size }

/-- **`ra_commit`** of a size within the reservation appends the block to the queue, with the bytes that
    stood in the span. -/
theorem raCommit_spec (hi : RaInv ra q) (hact : ra.rsvActive = true) {size tag : Nat}
    (hsize : size ≤ ra.rsvMax) (htag : tag < 2 ^ 64) (hlt : ra.rsvHdr + 16 + raPad size < 2 ^ 64) :
    ∃ ra', raCommit ra size tag = some (ra', (ra.rsvHdr + 16) % ra.cap) ∧
      RaInv ra' (q ++ [published ra' size tag]) ∧ ra'.cap = ra.cap ∧
      published ra' size tag = published ra size tag := by
  have hr := hi.rsv hact
  have hc := hi.capOk
  have hpad := raPad_le hsize hr.maxAl
  have hfree := hr.free
  have hle := hi.cacheLe
  have hlh := hi.layout.le
  have hslot := hr.slot hc (by omega) hsize htag
  have hhead := hr.head_le
  have hm : LiveUntouched ra (write ra.buf (ra.rsvHdr % ra.cap) (hdrBytes size tag)) :=
    hi.liveUntouched_write hhead (by rw [hdrBytes_length]; omega)
  have hdata : read (write ra.buf (ra.rsvHdr % ra.cap) (hdrBytes size tag)) (ra.rsvHdr % ra.cap + 16) size
      = read ra.buf (ra.rsvHdr % ra.cap + 16) size :=
    read_write_of_disjoint (.inr (by rw [hdrBytes_length]))
  have hsz : ¬ size > ra.rsvMax := by omega
  unfold raCommit
  simp only [hact, Bool.not_true, Bool.false_eq_true, if_false, hsz, raHdrWrite, raHdrBytes,
    RaRing.and_mask hc, Nat.mod_eq_of_lt hlt]
  rw [← hdata] at hslot
  refine ⟨_, rfl, ?_, rfl, congrArg (Block.mk _ size tag) hdata⟩
  refine ⟨hc, hi.tailAl, hlt, (hi.layout.frame hc hm).snoc hslot, hle, hi.cacheAl, ?_, ?_,
    fun h => by cases h⟩
  · show ra.rsvHdr + 16 + raPad size ≤ ra.tailCache + ra.cap
    omega
  · -- an old head is still a boundary
    refine (OldHead.frame hc hi.headCache hm).imp id ?_
    rintro ⟨q₁, q₂, hq, hne, h1, h2⟩
    exact ⟨q₁, q₂ ++ [_], by rw [hq, List.append_assoc]; rfl, hne, h1, h2.snoc hslot⟩

theorem raAbort_spec (hi : RaInv ra q) (hact : ra.rsvActive = true) :
    ∃ ra', raAbort ra = some ra' ∧ RaInv ra' q ∧ ra'.cap = ra.cap := by
  unfold raAbort
  rw [if_pos hact]
  refine ⟨_, rfl, ?_, rfl⟩
  exact hi.producer (fun y _ _ => rfl) hi.cacheLe hi.cacheAl hi.cacheFull (fun h => by cases h)

/-- **`ra_alloc`** is null and keeps the queue, or appends a block. -/
theorem raAlloc_spec (hi : RaInv ra q) (hact : ra.rsvActive = false) {size tag : Nat}
    (htag : tag < 2 ^ 64) (hlt : OffsetsFit ra size) :
    ∃ ra' res, raAlloc ra size tag = some (ra', res) ∧ ra'.cap = ra.cap ∧
      RaInv ra' (if res = none then q else q ++ [published ra' size tag]) := by
  obtain ⟨ra₁, res, hres, hi₁, hcap₁, hspan⟩ := raReserve_spec hi hact hlt
  unfold raAlloc
  rw [hres]
  cases res with
  | none => exact ⟨ra₁, none, rfl, hcap₁, hi₁⟩
  | some p =>
    obtain ⟨hact₁, hmax, hok, hfit⟩ := hspan p.1 p.2 rfl
    obtain ⟨ra₂, hcommit, hi₂, hcap₂, -⟩ :=
      raCommit_spec hi₁ hact₁ (by rw [hmax]; exact hok.enough) htag hfit
    refine ⟨ra₂, some ((ra₁.rsvHdr + 16) % ra₁.cap), ?_, hcap₂.trans hcap₁, hi₂⟩
    show (raCommit ra₁ size tag).map (fun p => (p.1, some p.2)) = _
    rw [hcommit]
    rfl

/-! ## The consumer's steps -/

theorem RaInv.first_slot (hi : RaInv ra (b :: q)) :
    ∃ mid, Slot ra.buf ra.cap ra.tail b mid ∧ Layout ra.buf ra.cap mid q ra.head ∧ mid < 2 ^ 64 ∧
      (ra.tail < ra.headCache → mid ≤ ra.headCache) := by
  have hlt := hi.headLt
  obtain ⟨mid, hs, hrest⟩ := hi.layout.of_cons
  have hle := hrest.le
  refine ⟨mid, hs, hrest, by omega, ?_⟩
  intro hcache
  rcases hi.headCache with hno | ⟨q₁, q₂, hq, hne, h1, h2⟩
  · omega
  · -- the cached head closes a non-empty part of the queue, whose first slot is this one
    have hle2 := h2.le
    obtain ⟨c, q₁, rfl⟩ := List.exists_cons_of_ne_nil hne
    obtain ⟨rfl, -⟩ : b = c ∧ q = q₁ ++ q₂ := by simpa using hq
    obtain ⟨mid', hs', hrest'⟩ := h1.of_cons
    have hle' := hrest'.le
    rw [hs.end_unique hi.capOk hs' (by omega) (by omega)]
    exact hle'

/-- The refreshed cache of `ra_peek` keeps the queue. -/
theorem RaInv.refreshHead (hi : RaInv ra q) :
    RaInv { ra with headCache := if ra.tail ≥ ra.headCache then ra.head else ra.headCache } q := by
  refine ⟨hi.capOk, hi.tailAl, hi.headLt, hi.layout, hi.cacheLe, hi.cacheAl, hi.cacheFull, ?_,
    fun hact => ?_⟩
  on_goal 2 => exact { hi.rsv hact with }
  show (if ra.tail ≥ ra.headCache then ra.head else ra.headCache) ≤ ra.tail ∨ _
  split
  · by_cases hq : q = []
    · subst hq
      left
      exact le_of_eq hi.layout.of_nil
    · exact .inr ⟨q, [], by simp, hq, hi.layout, .nil _⟩
  · exact hi.headCache

/-- What `ra_peek` answers for a queue. -/
def FrontOf (ra : RaRing) (blk : RaBlock) : List Block → Prop
  | [] => blk.data = none
  | b :: _ => blk.data = some ((b.hdr + 16) % ra.cap) ∧ blk.size = b.size ∧ blk.tag = b.tag ∧
      read ra.buf ((b.hdr + 16) % ra.cap) b.size = b.data

/-- The data of a block starts right behind its header. (An empty block may end at the physical end.) -/
theorem BlockAt.payload (hb : BlockAt m cap o b) :
    (o + 16) % cap = (b.hdr + 16) % cap ∧ read m ((b.hdr + 16) % cap) b.size = b.data := by
  have hfits := hb.fits
  have hpad := raPad_ge b.size
  rw [← hb.place, Nat.mod_add_mod]
  refine ⟨rfl, ?_⟩
  by_cases hz : b.size = 0
  · have := hb.data
    rw [hz] at this ⊢
    rw [read_zero] at this ⊢
    exact this
  · rw [mod_add_of_fits (show o % cap + 16 < cap by omega)]
    exact hb.data

/-- **`ra_peek`** never fails an assertion, shows the front of the queue, and changes nothing but the
    cached head. -/
theorem raPeek_spec (hi : RaInv ra q) :
    ∃ ra' blk, raPeek ra = some (ra', blk) ∧ RaInv ra' q ∧ ra'.cap = ra.cap ∧ FrontOf ra blk q := by
  have hi' := hi.refreshHead
  generalize hhc : (if ra.tail ≥ ra.headCache then ra.head else ra.headCache) = hc at hi'
  unfold raPeek
  simp only [hhc]
  cases q with
  | nil =>
    have hempty : ra.head = ra.tail := hi.layout.of_nil
    have hcache : ra.headCache ≤ ra.tail := by
      rcases hi.headCache with h | ⟨q₁, q₂, hq, hne, -, -⟩
      · exact h
      · exact absurd (List.append_eq_nil_iff.mp hq.symm).1 hne
    rw [if_pos hcache, hempty] at hhc
    have hcond : (decide (ra.tail ≥ ra.headCache) && ra.tail == hc) = true := by
      rw [← hhc]
      simp [hcache]
    rw [if_pos hcond]
    exact ⟨_, _, rfl, hi', rfl, rfl⟩
  | cons b q =>
    obtain ⟨mid, hs, hrest, hmid, hbound⟩ := hi.first_slot
    have hlt := hs.lt
    have hle := hrest.le
    have hmidc : mid ≤ hc := by
      rw [← hhc]
      split
      · exact hle
      · exact hbound (by omega)
    have hcond : ¬ (decide (ra.tail ≥ ra.headCache) && ra.tail == hc) = true := by
      have : ra.tail ≠ hc := by omega
      simp [this]
    rw [if_neg hcond]
    obtain ⟨x, hox, hb, hend, hfront⟩ := hs.front hi.capOk hmid
    obtain ⟨hptr, hdata⟩ := hb.payload
    rcases hfront with ⟨hplain, rfl⟩ | ⟨hskip, hhop⟩
    · simp only [raHdrRead_block hi.capOk hb, not_isSkip_block hi.capOk hb, Bool.false_eq_true, if_false,
        RaRing.and_mask hi.capOk, raHdrBytes]
      exact ⟨_, _, rfl, hi', rfl, by rw [hptr], rfl, rfl, hdata⟩
    · -- behind the skip marker stands the block, before the head the consumer goes by
      have hx : x < hc := by omega
      simp only [hskip, if_true, hhop, raHdrRead_block hi.capOk hb, not_isSkip_block hi.capOk hb, hx,
        decide_true, Bool.not_false, Bool.and_self, RaRing.and_mask hi.capOk, raHdrBytes]
      exact ⟨_, _, rfl, hi', rfl, by rw [hptr], rfl, rfl, hdata⟩

theorem RaInv.headCache_tail (hi : RaInv ra (b :: q)) (hs : Slot ra.buf ra.cap ra.tail b mid)
    (hmid : mid < 2 ^ 64) : OldHead ra.buf ra.cap mid ra.headCache q ra.head := by
  rcases hi.headCache with hcache | ⟨q₁, q₂, hq, hne, h1, h2⟩
  · have := hs.lt
    left
    omega
  · have hle2 := h2.le
    have hlt := hi.headLt
    obtain ⟨c, q₁, rfl⟩ := List.exists_cons_of_ne_nil hne
    obtain ⟨rfl, hq'⟩ : b = c ∧ q = q₁ ++ q₂ := by simpa using hq
    obtain ⟨mid', hs', hrest'⟩ := h1.of_cons
    have hle' := hrest'.le
    rw [← hs.end_unique hi.capOk hs' hmid (by omega)] at hrest'
    by_cases hq₁ : q₁ = []
    · subst hq₁
      left
      exact le_of_eq hrest'.of_nil
    · exact .inr ⟨q₁, q₂, hq', hq₁, hrest', h2⟩

/-- **`ra_release`** on a ring that is not empty succeeds and drops the front of the queue. -/
theorem raRelease_spec (hi : RaInv ra (b :: q)) :
    ∃ ra', raRelease ra = some ra' ∧ RaInv ra' q ∧ ra'.cap = ra.cap := by
  obtain ⟨mid, hs, hrest, hmid, -⟩ := hi.first_slot
  have hlt := hs.lt
  have hle := hrest.le
  have hne : ¬ ra.tail = ra.head := by omega
  obtain ⟨x, hox, hb, hend, hfront⟩ := hs.front hi.capOk hmid
  -- the new tail is the end of the front slot
  have hinv : RaInv { ra with tail := mid } q := by
    have hcache := hi.cacheLe
    exact ⟨hi.capOk, hs.aligned, hi.headLt, hrest, by show ra.tailCache ≤ mid; omega, hi.cacheAl,
      hi.cacheFull, hi.headCache_tail hs hmid, fun hact => { hi.rsv hact with }⟩
  rw [hend] at hinv hmid
  have hmod := Nat.mod_eq_of_lt hmid
  unfold raRelease
  rw [if_neg hne]
  rcases hfront with ⟨hplain, rfl⟩ | ⟨hskip, hhop⟩
  · simp only [raHdrRead_block hi.capOk hb, not_isSkip_block hi.capOk hb, Bool.false_eq_true, if_false,
      raHdrBytes, hmod]
    exact ⟨_, rfl, hinv, rfl⟩
  · simp only [hskip, if_true, hhop, raHdrRead_block hi.capOk hb, not_isSkip_block hi.capOk hb,
      Bool.false_eq_true, if_false, raHdrBytes, hmod]
    exact ⟨_, rfl, hinv, rfl⟩

/-! ## Runs

A step is one call of either side, made as the two rules allow (one reservation at a time, release only
when a block is there), together with what it does to a FIFO queue: commit and alloc append the block they
publish, release drops the oldest, everything else leaves the queue alone. -/

inductive RaStep : RaRing × List Block → RaRing × List Block → Prop
  | reserve {ra ra' : RaRing} {q : List Block} {minSize : Nat} {res : Option (Nat × Nat)}
      (hact : ra.rsvActive = false) (hlt : OffsetsFit ra minSize)
      (hr : raReserve ra minSize = some (ra', res)) : RaStep (ra, q) (ra', q)
  | fill {ra : RaRing} {q : List Block} {i : Nat} {bs : List UInt8} (hact : ra.rsvActive = true)
      (hfit : i + bs.length ≤ ra.rsvMax) : RaStep (ra, q) (raFill ra i bs, q)
  | commit {ra ra' : RaRing} {q : List Block} {size tag ptr : Nat} (hact : ra.rsvActive = true)
      (hsize : size ≤ ra.rsvMax) (htag : tag < 2 ^ 64) (hlt : ra.rsvHdr + 16 + raPad size < 2 ^ 64)
      (hr : raCommit ra size tag = some (ra', ptr)) : RaStep (ra, q) (ra', q ++ [published ra size tag])
  | abort {ra ra' : RaRing} {q : List Block} (hact : ra.rsvActive = true) (hr : raAbort ra = some ra') :
      RaStep (ra, q) (ra', q)
  | allocFull {ra ra' : RaRing} {q : List Block} {size tag : Nat} (hact : ra.rsvActive = false)
      (htag : tag < 2 ^ 64) (hlt : OffsetsFit ra size) (hr : raAlloc ra size tag = some (ra', none)) :
      RaStep (ra, q) (ra', q)
  | alloc {ra ra' : RaRing} {q : List Block} {size tag ptr : Nat} (hact : ra.rsvActive = false)
      (htag : tag < 2 ^ 64) (hlt : OffsetsFit ra size) (hr : raAlloc ra size tag = some (ra', some ptr)) :
      RaStep (ra, q) (ra', q ++ [published ra' size tag])
  | peek {ra ra' : RaRing} {q : List Block} {blk : RaBlock} (hr : raPeek ra = some (ra', blk)) :
      RaStep (ra, q) (ra', q)
  | release {ra ra' : RaRing} {b : Block} {q : List Block} (hr : raRelease ra = some ra') :
      RaStep (ra, b :: q) (ra', q)

/-- The rings, with their queues, that a run of calls leads to. -/
def RaReach (mem : Mem) (capacity : Nat) (ra : RaRing) (q : List Block) : Prop :=
  Relation.ReflTransGen RaStep (raInit mem capacity, []) (ra, q)

theorem raStep_inv {x y : RaRing × List Block} (hstep : RaStep x y) (hi : RaInv x.1 x.2) :
    RaInv y.1 y.2 ∧ y.1.cap = x.1.cap := by
  cases hstep with
  | reserve hact hlt hr =>
    obtain ⟨_, _, hr', hi', hcap, -⟩ := raReserve_spec hi hact hlt
    cases hr.symm.trans hr'
    exact ⟨hi', hcap⟩
  | fill hact hfit => exact ⟨raFill_inv hi hact hfit, rfl⟩
  | commit hact hsize htag hlt hr =>
    obtain ⟨_, hr', hi', hcap, hpub⟩ := raCommit_spec hi hact hsize htag hlt
    cases hr.symm.trans hr'
    rw [hpub] at hi'
    exact ⟨hi', hcap⟩
  | abort hact hr =>
    obtain ⟨_, hr', hi', hcap⟩ := raAbort_spec hi hact
    cases hr.symm.trans hr'
    exact ⟨hi', hcap⟩
  | allocFull hact htag hlt hr | alloc hact htag hlt hr =>
    obtain ⟨_, _, hr', hcap, hi'⟩ := raAlloc_spec hi hact htag hlt
    cases hr.symm.trans hr'
    exact ⟨hi', hcap⟩
  | peek hr =>
    obtain ⟨_, _, hr', hi', hcap, -⟩ := raPeek_spec hi
    cases hr.symm.trans hr'
    exact ⟨hi', hcap⟩
  | release hr =>
    obtain ⟨_, hr', hi', hcap⟩ := raRelease_spec hi
    cases hr.symm.trans hr'
    exact ⟨hi', hcap⟩

theorem raReach_inv {mem : Mem} {capacity : Nat} (hc : CapOk capacity) (hreach : RaReach mem capacity ra q) :
    RaInv ra q ∧ ra.cap = capacity := by
  have hpos := hc.pos
  have hrun : ∀ y, Relation.ReflTransGen RaStep (raInit mem capacity, []) y →
      RaInv y.1 y.2 ∧ y.1.cap = capacity := by
    intro y hy
    induction hy with
    | refl => exact ⟨raInv_init hc mem, by show capacity - 1 + 1 = capacity; omega⟩
    | tail _ hstep ih =>
      obtain ⟨hi, hcap⟩ := raStep_inv hstep ih.1
      exact ⟨hi, hcap.trans ih.2⟩
  exact hrun (ra, q) hreach

/-- **The ring allocator refines a FIFO queue of blocks.** In every state a run leads to: the offsets are
    in order and at most one turn apart; `ra_peek` shows exactly the front of the queue; every call the
    rules allow gets past all assertions; and `ra_reserve` is null or hands out an aligned span inside the
    buffer, long enough and clear of every live block and header. -/
theorem ring_refines_queue {mem : Mem} {capacity : Nat} (hc : CapOk capacity)
    (hreach : RaReach mem capacity ra q) :
    (ra.tail ≤ ra.head ∧ ra.head ≤ ra.tail + capacity) ∧
    (∃ ra' blk, raPeek ra = some (ra', blk) ∧ FrontOf ra blk q) ∧
    (q ≠ [] → (raRelease ra).isSome) ∧
    (ra.rsvActive = false → ∀ minSize, OffsetsFit ra minSize →
      (∃ ra' res, raReserve ra minSize = some (ra', res) ∧
        ∀ ptr max, res = some (ptr, max) → ra'.rsvMax = max ∧ SpanOk capacity q minSize ptr max) ∧
      ∀ tag, tag < 2 ^ 64 → (raAlloc ra minSize tag).isSome) ∧
    (ra.rsvActive = true →
      (∀ size tag, size ≤ ra.rsvMax → tag < 2 ^ 64 → ra.rsvHdr + 16 + raPad size < 2 ^ 64 →
        (raCommit ra size tag).isSome) ∧
      (raAbort ra).isSome) := by
  obtain ⟨hi, rfl⟩ := raReach_inv hc hreach
  have hle := hi.cacheLe
  have hfull := hi.cacheFull
  refine ⟨⟨hi.layout.le, by omega⟩, ?_, ?_, ?_, ?_⟩
  · obtain ⟨ra', blk, hr, -, -, hfront⟩ := raPeek_spec hi
    exact ⟨ra', blk, hr, hfront⟩
  · intro hne
    obtain ⟨b, q', rfl⟩ := List.exists_cons_of_ne_nil hne
    obtain ⟨ra', hr, -⟩ := raRelease_spec hi
    rw [hr]
    rfl
  · intro hact minSize hlt
    constructor
    · obtain ⟨ra', res, hr, -, -, hspan⟩ := raReserve_spec hi hact hlt
      exact ⟨ra', res, hr, fun ptr max h => ⟨(hspan ptr max h).2.1, (hspan ptr max h).2.2.1⟩⟩
    · intro tag htag
      obtain ⟨ra', res, hr, -⟩ := raAlloc_spec hi hact htag hlt
      rw [hr]
      rfl
  · intro hact
    constructor
    · intro size tag hsize htag hlt
      obtain ⟨ra', hr, -⟩ := raCommit_spec hi hact hsize htag hlt
      rw [hr]
      rfl
    · obtain ⟨ra', hr, -⟩ := raAbort_spec hi hact
      rw [hr]
      rfl

/-- A run on 64 bytes that wraps: the second block needs a skip marker and a refreshed tail, and the
    consumer's cached head is behind the tail by then. -/
theorem raReach_wrapped : ∃ ra, RaReach (fun _ => 0) 64 ra
    [{ hdr := 0, size := 2, tag := 9, data := [104, 105] }] ∧ ra.rsvActive = false ∧ ra.tail = 48 := by
  refine ⟨_, .tail (.tail (.tail (.tail (.tail .refl
    (@RaStep.alloc _ _ _ 20 7 _ rfl (by decide) (fun _ => by decide) rfl))
    (RaStep.release rfl))
    (@RaStep.reserve _ _ _ 20 _ rfl (fun _ => by decide) rfl))
    (@RaStep.fill _ _ 0 [104, 105] rfl (by decide)))
    (@RaStep.commit _ _ _ 2 9 _ rfl (by decide) (by decide) (by decide) rfl), rfl, rfl⟩

theorem ring_refines_queue_wrapped :
    CapOk 64 ∧ ∃ ra q, RaReach (fun _ => 0) 64 ra q ∧ q ≠ [] ∧ (raRelease ra).isSome := by
  have hc : CapOk 64 := ⟨⟨6, by decide, by decide, by decide⟩⟩
  obtain ⟨ra, hreach, -⟩ := raReach_wrapped
  exact ⟨hc, ra, _, hreach, by simp, (ring_refines_queue hc hreach).2.2.1 (by simp)⟩

end HolyTls

import HolyTls.Lib.ByteMem

/-!
# `Base.Ring` — the ring allocator (`src/base/ring_alloc.h`)

One producer reserves and commits blocks, one consumer peeks at and releases the oldest one. `head` and
`tail` are byte offsets that only grow; the offset `x` lives at `x & mask` in the buffer. Each side keeps a
cached copy of the other side's offset and refreshes it only when the cached view says it must.

Every call is one atomic step. Offsets are 64-bit: where a sum could pass `2^64` the remainder is written
out. An assertion of the source that fails is the result `none`; pointers are indices into the buffer, and
a null pointer is `none` inside the result.
-/

namespace HolyTls

open ByteMem

/-- `RA_HDR_BYTES`. -/
def raHdrBytes : Nat := 16

/-- `RA_SKIP`: bit 63 of `size_flags`. -/
def raSkip : Nat := 2 ^ 63

/-- `ra_hdr`. -/
structure RaHdr where
  sizeFlags : Nat
  tag : Nat
deriving DecidableEq, Repr

/-- `size_flags & RA_SKIP`. -/
def RaHdr.isSkip (h : RaHdr) : Bool := h.sizeFlags.testBit 63

/-- `ra_block`: `data` is null when the ring is empty. -/
structure RaBlock where
  data : Option Nat
  size : Nat
  tag : Nat
deriving DecidableEq, Repr

/-- `ra_ring`. -/
structure RaRing where
  buf : Mem
  mask : Nat
  head : Nat
  tailCache : Nat
  rsvHdr : Nat
  rsvMax : Nat
  rsvActive : Bool
  tail : Nat
  headCache : Nat

/-- `ra__pad`: round up to a multiple of 16. -/
def raPad (n : Nat) : Nat := (n + 15) / 16 * 16

/-- `ra__hdr_write`. -/
def raHdrWrite (ra : RaRing) (off sizeFlags tag : Nat) : RaRing :=
  { ra with buf := write ra.buf (off &&& ra.mask) (le 8 sizeFlags ++ le 8 tag) }

/-- `ra__hdr_read`. -/
def raHdrRead (ra : RaRing) (off : Nat) : RaHdr :=
  { sizeFlags := ofLe (read ra.buf (off &&& ra.mask) 8)
    tag := ofLe (read ra.buf ((off &&& ra.mask) + 8) 8) }

/-- `ra_init` on a buffer of `capacity` bytes. -/
def raInit (mem : Mem) (capacity : Nat) : RaRing :=
  { buf := mem, mask := capacity - 1, head := 0, tailCache := 0, rsvHdr := 0, rsvMax := 0
    rsvActive := false, tail := 0, headCache := 0 }

/-! ## The producer -/

/-- The padding to the physical end, when header and data would not fit before it. -/
def raReserveSkip (ra : RaRing) (minSize : Nat) : Nat :=
  let toEnd := ra.mask + 1 - (ra.head &&& ra.mask)
  if toEnd < raHdrBytes + raPad minSize then toEnd else 0

/-- The second half of `ra_reserve`, once there is room: mark the padding and record the reservation. -/
def raPlace (ra : RaRing) (skip : Nat) : RaRing × Nat × Nat :=
  let cap := ra.mask + 1
  let freeBytes := cap - (ra.head - ra.tailCache)
  let ra := if skip = 0 then ra else raHdrWrite ra ra.head (raSkip ||| (skip - raHdrBytes)) 0
  let hdrOff := ra.head + skip
  let toEnd := if skip = 0 then cap - (ra.head &&& ra.mask) else cap
  let maxData := min (toEnd - raHdrBytes) (freeBytes - skip - raHdrBytes)
  ({ ra with rsvHdr := hdrOff, rsvMax := maxData, rsvActive := true },
    (hdrOff + raHdrBytes) &&& ra.mask, maxData)

/-- `ra_reserve`: the pointer and the number of bytes that may be committed, or null. -/
def raReserve (ra : RaRing) (minSize : Nat) : Option (RaRing × Option (Nat × Nat)) :=
  if ra.rsvActive then none
  else
    let cap := ra.mask + 1
    if minSize > cap then some (ra, none)
    else
      let skip := raReserveSkip ra minSize
      let totalMin := (skip + raHdrBytes + raPad minSize) % 2 ^ 64
      -- the cached tail is refreshed only when it does not prove enough room
      let ra := if cap - (ra.head - ra.tailCache) < totalMin then { ra with tailCache := ra.tail } else ra
      if cap - (ra.head - ra.tailCache) < totalMin then some (ra, none)
      else some ((raPlace ra skip).1, some (raPlace ra skip).2)

/-- The producer writes `bs` into the reserved span, `i` bytes from its start. -/
def raFill (ra : RaRing) (i : Nat) (bs : List UInt8) : RaRing :=
  { ra with buf := write ra.buf (((ra.rsvHdr + raHdrBytes) &&& ra.mask) + i) bs }

/-- `ra_commit`: the data pointer of the published block. -/
def raCommit (ra : RaRing) (size tag : Nat) : Option (RaRing × Nat) :=
  if !ra.rsvActive then none
  else if size > ra.rsvMax then none
  else
    let hdrOff := ra.rsvHdr
    let ra := raHdrWrite ra hdrOff size tag
    some ({ ra with rsvActive := false, rsvMax := 0
                    head := (hdrOff + raHdrBytes + raPad size) % 2 ^ 64 },
      (hdrOff + raHdrBytes) &&& ra.mask)

/-- `ra_abort`. -/
def raAbort (ra : RaRing) : Option RaRing :=
  if ra.rsvActive then some { ra with rsvActive := false, rsvMax := 0 } else none

/-- `ra_alloc`: reserve and commit an exact size. -/
def raAlloc (ra : RaRing) (size tag : Nat) : Option (RaRing × Option Nat) :=
  match raReserve ra size with
  | none => none
  | some (ra, none) => some (ra, none)
  | some (ra, some _) => (raCommit ra size tag).map (fun p => (p.1, some p.2))

/-! ## The consumer -/

/-- The offset behind a skip marker with header `h` at `tail`. -/
def raHop (tail : Nat) (h : RaHdr) : Nat := (tail + raHdrBytes + h.sizeFlags % raSkip) % 2 ^ 64

/-- `ra_peek`. The cached head is refreshed only when it does not prove that a block is there. -/
def raPeek (ra : RaRing) : Option (RaRing × RaBlock) :=
  let headCache := if ra.tail ≥ ra.headCache then ra.head else ra.headCache
  let ra' := { ra with headCache := headCache }
  if ra.tail ≥ ra.headCache && ra.tail == headCache then
    some (ra', { data := none, size := 0, tag := 0 })
  else
    let h := raHdrRead ra ra.tail
    if h.isSkip then
      let tail := raHop ra.tail h
      let h := raHdrRead ra tail
      if tail < headCache && !h.isSkip then
        some (ra', { data := some ((tail + raHdrBytes) &&& ra.mask), size := h.sizeFlags, tag := h.tag })
      else none
    else
      some (ra', { data := some ((ra.tail + raHdrBytes) &&& ra.mask), size := h.sizeFlags, tag := h.tag })

/-- `ra_release`. -/
def raRelease (ra : RaRing) : Option RaRing :=
  if ra.tail = ra.head then none
  else
    let h := raHdrRead ra ra.tail
    if h.isSkip then
      let tail := raHop ra.tail h
      let h := raHdrRead ra tail
      if h.isSkip then none
      else some { ra with tail := (tail + raHdrBytes + raPad h.sizeFlags) % 2 ^ 64 }
    else some { ra with tail := (ra.tail + raHdrBytes + raPad h.sizeFlags) % 2 ^ 64 }

end HolyTls

import HolyTls.Base.U8Buf

/-!
# `Ws.Build` — client frames on the wire (`src/ws/ws_frame.c`)

`ws_frame_build` appends one masked frame to a buffer: two bytes of header, the length in one of three forms,
the mask key, and the payload, which is copied into the buffer first and masked there. `wsFrame_content` says
which bytes that are.

What they mean is said by a decoder after RFC 6455, section 5.2 (`decodeFrame`), which knows nothing of the
builder: it gives the frame back and consumes exactly its bytes, and no frame with the same payload is shorter.
-/

namespace HolyTls

open ByteMem (Mem read write be ofBe)

/-- The three forms of the length field of a masked frame. -/
def wsPushLength (fill : Mem) (out : U8Buf) (len : Nat) : U8Buf :=
  if len < 126 then out.push fill (0x80 ||| len).toUInt8
  else if len ≤ 0xffff then
    ((out.push fill (0x80 ||| 126)).push fill (len >>> 8).toUInt8).push fill len.toUInt8
  else
    [7, 6, 5, 4, 3, 2, 1, 0].foldl (fun out i => out.push fill (len >>> (i * 8)).toUInt8)
      (out.push fill (0x80 ||| 127))

/-- `out->v[off + i] ^= mask_key[i & 3]` for each `i` below `n`. -/
def wsMaskLoop (key : Fin 4 → UInt8) (off n : Nat) (v : Mem) : Mem :=
  (List.range n).foldl (fun v i => write v (off + i) [v (off + i) ^^^ key (Fin.ofNat 4 i)]) v

/-- `ws_frame_build`. -/
def wsFrameBuild (fill : Mem) (out : U8Buf) (op : UInt8) (fin rsv1 : Bool) (payload : Str8) (key : Fin 4 → UInt8) :
    U8Buf :=
  let out := out.push fill ((if fin then 0x80 else 0) ||| (if rsv1 then 0x40 else 0) ||| (op &&& 0x0f))
  let out := wsPushLength fill out payload.length
  let out := out.append fill (List.ofFn key)
  let off := out.len
  let out := if payload.length ≠ 0 then out.append fill payload else out
  { out with v := wsMaskLoop key off payload.length out.v }

/-! ## The decoder of a server -/

/-- A frame as a server reads it. -/
structure WsFrame where
  fin : Bool
  rsv1 : Bool
  rsv2 : Bool
  rsv3 : Bool
  opcode : UInt8
  masked : Bool
  payload : Str8
deriving DecidableEq, Repr

/-- The payload masked, or unmasked, with a key. -/
def wsMask (key : Str8) (payload : Str8) : Str8 := payload.mapIdx (fun i b => b ^^^ key.getD (i % 4) 0)

/-- How many bytes of length follow the second byte. -/
def extLength (len7 : Nat) : Nat := if len7 = 126 then 2 else if len7 = 127 then 8 else 0

/-- A frame at the start of `s` and how many bytes it takes; `none` when it is not all there, or when the
    most significant bit of a 64-bit length is set. -/
def decodeFrame (s : Str8) : Option (WsFrame × Nat) :=
  match s with
  | b0 :: b1 :: rest =>
    let len7 := b1.toNat % 128
    let ext := extLength len7
    let len := if ext = 0 then len7 else ofBe 0 (rest.take ext)
    let masked := 128 ≤ b1.toNat
    let keyLen := if masked then 4 else 0
    if rest.length < ext + keyLen + len ∨ 2 ^ 63 ≤ len then none
    else
      let key := (rest.drop ext).take keyLen
      let payload := (rest.drop (ext + keyLen)).take len
      some ({ fin := 128 ≤ b0.toNat, rsv1 := b0.toNat / 64 % 2 = 1, rsv2 := b0.toNat / 32 % 2 = 1
              rsv3 := b0.toNat / 16 % 2 = 1, opcode := b0 &&& 0x0f, masked := masked
              payload := if masked then wsMask key payload else payload }, 2 + ext + keyLen + len)
  | _ => none

/-! ## The bytes of a frame -/

/-- The second byte and the length field. -/
def wsLengthBytes (len : Nat) : Str8 :=
  if len < 126 then [(0x80 ||| len).toUInt8] else if len ≤ 0xffff then 254 :: be 2 len else 255 :: be 8 len

theorem wsPushLength_content (fill : Mem) (out : U8Buf) (len : Nat) :
    (wsPushLength fill out len).content = out.content ++ wsLengthBytes len := by
  have hbyte : ∀ w, UInt8.ofNat (len / 256 ^ w % 256) = (len >>> (w * 8)).toUInt8 := by
    intro w
    rw [Nat.shiftRight_eq_div_pow, Nat.mul_comm, Nat.pow_mul]
    apply UInt8.toNat_inj.mp
    simp
  unfold wsPushLength wsLengthBytes
  split
  · simp
  · split
    · simp only [U8Buf.content_push, be, hbyte, List.append_assoc]
      rfl
    · simp only [List.foldl_cons, List.foldl_nil, U8Buf.content_push, be, hbyte, List.append_assoc]
      rfl

section

variable {key : Fin 4 → UInt8} {off n : Nat} {v : Mem}

/-- Masking in place touches the payload and nothing else. -/
theorem wsMaskLoop_apply (j : Nat) :
    wsMaskLoop key off n v j = if off ≤ j ∧ j < off + n then v j ^^^ key (Fin.ofNat 4 (j - off)) else v j := by
  induction n generalizing j with
  | zero => rw [wsMaskLoop, List.range_zero, List.foldl_nil, if_neg (by omega)]
  | succ n ih =>
    have hstep : wsMaskLoop key off (n + 1) v =
        write (wsMaskLoop key off n v) (off + n) [wsMaskLoop key off n v (off + n) ^^^ key (Fin.ofNat 4 n)] := by
      rw [wsMaskLoop, List.range_succ, List.foldl_append, List.foldl_cons, List.foldl_nil]
      rfl
    have hlast : wsMaskLoop key off n v (off + n) = v (off + n) := by rw [ih, if_neg (by omega)]
    rw [hstep, hlast, write]
    by_cases hj : j = off + n
    · subst hj
      rw [if_pos (by simp), if_pos (by omega), Nat.add_sub_cancel_left, Nat.sub_self]
      rfl
    · rw [if_neg (by simp; omega), ih]
      by_cases hin : off ≤ j ∧ j < off + n
      · rw [if_pos hin, if_pos (by omega)]
      · rw [if_neg hin, if_neg (by omega)]

/-- A key as the four bytes on the wire. -/
theorem getD_ofFn_key (i : Nat) : (List.ofFn key).getD (i % 4) 0 = key (Fin.ofNat 4 i) := by
  have hlt : i % 4 < 4 := Nat.mod_lt _ (by decide)
  rw [List.getD_eq_getElem?_getD, List.getElem?_ofFn, dif_pos hlt]
  rfl

theorem read_wsMaskLoop_before : read (wsMaskLoop key off n v) 0 off = read v 0 off := by
  apply ByteMem.read_congr
  intro i hi
  rw [wsMaskLoop_apply, if_neg (by omega)]

theorem read_wsMaskLoop : read (wsMaskLoop key off n v) off n = wsMask (List.ofFn key) (read v off n) := by
  apply List.ext_getElem?
  intro i
  by_cases hi : i < n
  · have hkey := @getD_ofFn_key key i
    simp only [wsMask, ByteMem.read, List.getElem?_mapIdx, List.getElem?_map, List.getElem?_range hi, Option.map_some,
      wsMaskLoop_apply, hkey]
    rw [if_pos (by omega), Nat.add_sub_cancel_left]
  · simp [wsMask, ByteMem.read, hi]

end

/-- The first byte. -/
def wsFirstByte (op : UInt8) (fin rsv1 : Bool) : UInt8 :=
  (if fin then 0x80 else 0) ||| (if rsv1 then 0x40 else 0) ||| (op &&& 0x0f)

/-- A frame on the wire. -/
def wsFrameBytes (op : UInt8) (fin rsv1 : Bool) (payload : Str8) (key : Fin 4 → UInt8) : Str8 :=
  wsFirstByte op fin rsv1 :: (wsLengthBytes payload.length ++ (List.ofFn key ++ wsMask (List.ofFn key) payload))

/-- **The builder appends the bytes of the frame**, and what was in the buffer stays. -/
theorem wsFrame_content (fill : Mem) (out : U8Buf) (op : UInt8) (fin rsv1 : Bool) (payload : Str8)
    (key : Fin 4 → UInt8) :
    (wsFrameBuild fill out op fin rsv1 payload key).content = out.content ++ wsFrameBytes op fin rsv1 payload key := by
  -- the buffer before the payload, and with it
  let pre := (wsPushLength fill (out.push fill (wsFirstByte op fin rsv1)) payload.length).append fill (List.ofFn key)
  let copied := if payload.length ≠ 0 then pre.append fill payload else pre
  have hpre : pre.content =
      out.content ++ wsFirstByte op fin rsv1 :: (wsLengthBytes payload.length ++ List.ofFn key) := by
    simp [pre, wsPushLength_content]
  have hcopied : copied.content = pre.content ++ payload := by
    by_cases hp : payload = [] <;> simp [copied, hp]
  have hlen : copied.len = pre.len + payload.length := by
    rw [← U8Buf.length_content, hcopied, List.length_append, U8Buf.length_content]
  have hsplit : read copied.v 0 pre.len = pre.content ∧ read copied.v pre.len payload.length = payload := by
    have hread : read copied.v 0 pre.len ++ read copied.v (0 + pre.len) payload.length = pre.content ++ payload := by
      rw [← ByteMem.read_add, ← hlen]
      exact hcopied
    rw [Nat.zero_add] at hread
    exact List.append_inj hread (by rw [ByteMem.read_length, U8Buf.length_content])
  have hmasked : (wsFrameBuild fill out op fin rsv1 payload key).content =
      read (wsMaskLoop key pre.len payload.length copied.v) 0 copied.len := rfl
  rw [hmasked, hlen, ByteMem.read_add, Nat.zero_add, read_wsMaskLoop_before, read_wsMaskLoop, hsplit.1, hsplit.2, hpre]
  simp [wsFrameBytes]

/-! ## What they mean -/

theorem wsMask_wsMask (key payload : Str8) : wsMask key (wsMask key payload) = payload := by
  apply List.ext_getElem
  · simp [wsMask]
  · intro i _ _
    simp only [wsMask, List.getElem_mapIdx, UInt8.xor_assoc, UInt8.xor_self, UInt8.xor_zero]

@[simp] theorem wsMask_length (key payload : Str8) : (wsMask key payload).length = payload.length := by simp [wsMask]

/-- Decoding a masked frame by its pieces: `e` is the extended length, `k` the key. -/
theorem decodeFrame_pieces {b0 b1 : UInt8} {e k p more : Str8} {len7 : Nat} (hb1 : b1.toNat = 128 + len7)
    (hlen7 : len7 < 128) (he : e.length = extLength len7)
    (hlen : (if extLength len7 = 0 then len7 else ofBe 0 e) = p.length) (hk : k.length = 4) (hp : p.length < 2 ^ 63) :
    decodeFrame (b0 :: b1 :: (e ++ (k ++ (p ++ more)))) =
      some ({ fin := 128 ≤ b0.toNat, rsv1 := b0.toNat / 64 % 2 = 1, rsv2 := b0.toNat / 32 % 2 = 1
              rsv3 := b0.toNat / 16 % 2 = 1, opcode := b0 &&& 0x0f, masked := true
              payload := wsMask k p }, 2 + extLength len7 + 4 + p.length) := by
  have hmod : b1.toNat % 128 = len7 := by omega
  have hmasked : 128 ≤ b1.toNat := by omega
  have htake : (e ++ (k ++ (p ++ more))).take (extLength len7) = e := by rw [← he, List.take_left]
  have hkey : ((e ++ (k ++ (p ++ more))).drop (extLength len7)).take 4 = k := by
    rw [← he, List.drop_left, ← hk, List.take_left]
  have hpayload : ((e ++ (k ++ (p ++ more))).drop (extLength len7 + 4)).take p.length = p := by
    rw [← List.drop_drop, ← he, List.drop_left, ← hk, List.drop_left, List.take_left]
  have hroom : ¬ ((e ++ (k ++ (p ++ more))).length < extLength len7 + 4 + p.length ∨ 2 ^ 63 ≤ p.length) := by
    simp only [List.length_append]
    omega
  simp only [decodeFrame, hmod, htake, hlen, hmasked, decide_true, if_true, hroom, if_false, hkey, hpayload]

theorem wsFirstByte_flags {op : UInt8} (fin rsv1 : Bool) (hop : op.toNat < 16) :
    decide (128 ≤ (wsFirstByte op fin rsv1).toNat) = fin ∧
      decide ((wsFirstByte op fin rsv1).toNat / 64 % 2 = 1) = rsv1 ∧
      decide ((wsFirstByte op fin rsv1).toNat / 32 % 2 = 1) = false ∧
      decide ((wsFirstByte op fin rsv1).toNat / 16 % 2 = 1) = false ∧ wsFirstByte op fin rsv1 &&& 0x0f = op := by
  obtain ⟨k, hk, rfl⟩ : ∃ k, k < 16 ∧ op = UInt8.ofNat k := ⟨op.toNat, hop, UInt8.ofNat_toNat.symm⟩
  clear hop
  interval_cases k <;> cases fin <;> cases rsv1 <;> decide

/-- How many bytes of length a payload needs. -/
def wsLengthForm (len : Nat) : Nat := if len < 126 then 0 else if len ≤ 0xffff then 2 else 8

/-- The length field, as the decoder takes it apart. -/
theorem wsLengthBytes_pieces {len : Nat} (hlen : len < 2 ^ 63) :
    ∃ b1 e len7, wsLengthBytes len = b1 :: e ∧ b1.toNat = 128 + len7 ∧ len7 < 128 ∧ e.length = extLength len7 ∧
      (if extLength len7 = 0 then len7 else ofBe 0 e) = len ∧ extLength len7 = wsLengthForm len := by
  unfold wsLengthBytes wsLengthForm
  by_cases h7 : len < 126
  · have hext : extLength len = 0 := by rw [extLength, if_neg (by omega), if_neg (by omega)]
    have hor : 0x80 ||| len = 128 + len := by
      have hor' := Nat.two_pow_add_eq_or_of_lt (show len < 2 ^ 7 by omega) 1
      simpa using hor'.symm
    have hbyte : (0x80 ||| len).toUInt8.toNat = 128 + len := by
      rw [hor, Nat.toUInt8_eq, UInt8.toNat_ofNat']
      omega
    refine ⟨(0x80 ||| len).toUInt8, [], len, by rw [if_pos h7], hbyte, by omega, hext.symm, by rw [if_pos hext], ?_⟩
    rw [hext, if_pos h7]
  · rw [if_neg h7, if_neg h7]
    by_cases h16 : len ≤ 0xffff
    · rw [if_pos h16, if_pos h16]
      refine ⟨254, be 2 len, 126, rfl, rfl, by decide, ByteMem.be_length _ _, ?_, rfl⟩
      rw [if_neg (by decide), ByteMem.ofBe_be]
      omega
    · rw [if_neg h16, if_neg h16]
      refine ⟨255, be 8 len, 127, rfl, rfl, by decide, ByteMem.be_length _ _, ?_, rfl⟩
      rw [if_neg (by decide), ByteMem.ofBe_be]
      omega

/-- **The decoder gives back what was sent**, whatever follows. -/
theorem decodeFrame_wsFrameBytes {op : UInt8} {payload : Str8} (fin rsv1 : Bool) (key : Fin 4 → UInt8)
    (hop : op.toNat < 16) (hlen : payload.length < 2 ^ 63) (more : Str8) :
    decodeFrame (wsFrameBytes op fin rsv1 payload key ++ more) =
      some ({ fin := fin, rsv1 := rsv1, rsv2 := false, rsv3 := false, opcode := op, masked := true
              payload := payload }, 2 + wsLengthForm payload.length + 4 + payload.length) := by
  obtain ⟨b1, e, len7, hbytes, hb1, hlen7, he, hvalue, hform⟩ := wsLengthBytes_pieces hlen
  obtain ⟨hfin, hrsv1, hrsv2, hrsv3, hopcode⟩ := wsFirstByte_flags fin rsv1 hop
  have hlen' : (wsMask (List.ofFn key) payload).length = payload.length := wsMask_length _ _
  have hdecode : decodeFrame (wsFirstByte op fin rsv1 :: b1 ::
      (e ++ (List.ofFn key ++ (wsMask (List.ofFn key) payload ++ more)))) = _ :=
    decodeFrame_pieces hb1 hlen7 he (by rw [hlen']; exact hvalue) List.length_ofFn (by rw [hlen']; exact hlen)
  rw [hfin, hrsv1, hrsv2, hrsv3, hopcode, wsMask_wsMask, hlen', hform] at hdecode
  rw [← hdecode, wsFrameBytes, hbytes]
  simp

theorem wsFrameBytes_length {op : UInt8} {payload : Str8} (fin rsv1 : Bool) (key : Fin 4 → UInt8)
    (hlen : payload.length < 2 ^ 63) :
    (wsFrameBytes op fin rsv1 payload key).length = 2 + wsLengthForm payload.length + 4 + payload.length := by
  obtain ⟨b1, e, len7, hbytes, -, -, he, -, hform⟩ := wsLengthBytes_pieces hlen
  rw [wsFrameBytes, hbytes]
  simp only [List.length_cons, List.length_append, List.length_ofFn, wsMask_length, he, hform]
  omega

/-- A length field that says `len` is at least as long as `len` needs. -/
theorem wsLengthForm_le {len7 len : Nat} {rest : Str8} (hlen7 : len7 < 128)
    (hlen : (if extLength len7 = 0 then len7 else ofBe 0 (rest.take (extLength len7))) = len) :
    wsLengthForm len ≤ extLength len7 := by
  by_cases h126 : len7 = 126
  · subst h126
    have hext : extLength 126 = 2 := rfl
    have hlt := ByteMem.ofBe_lt (rest.take 2) 0
    have hpow : 256 ^ (rest.take 2).length ≤ 256 ^ 2 := Nat.pow_le_pow_right (by decide) (by simp)
    rw [hext, if_neg (by decide)] at hlen
    have hle : len ≤ 0xffff := by omega
    rw [hext, wsLengthForm]
    split
    · omega
    · omega
  · by_cases h127 : len7 = 127
    · subst h127
      have hext : extLength 127 = 8 := rfl
      rw [hext, wsLengthForm]
      split
      · omega
      · split <;> omega
    · have hext : extLength len7 = 0 := by rw [extLength, if_neg h126, if_neg h127]
      rw [hext, if_pos rfl] at hlen
      rw [wsLengthForm, if_pos (by omega)]
      exact Nat.zero_le _

/-- A masked frame with a payload of that length takes at least that many bytes. -/
theorem decodeFrame_minimal {s : Str8} {f : WsFrame} {n : Nat} (h : decodeFrame s = some (f, n))
    (hmasked : f.masked = true) : 2 + wsLengthForm f.payload.length + 4 + f.payload.length ≤ n := by
  rcases s with _ | ⟨b0, _ | ⟨b1, rest⟩⟩
  · cases h
  · cases h
  · by_cases hhigh : 128 ≤ b1.toNat
    · simp only [decodeFrame, hhigh, decide_true, if_true] at h
      generalize hlen : (if extLength (b1.toNat % 128) = 0 then b1.toNat % 128
        else ofBe 0 (rest.take (extLength (b1.toNat % 128)))) = len at h
      split at h
      · cases h
      · next hroom =>
          cases h
          simp only [wsMask_length, List.length_take, List.length_drop]
          have hall : min len (rest.length - (extLength (b1.toNat % 128) + 4)) = len := by omega
          have hform : wsLengthForm len ≤ extLength (b1.toNat % 128) := wsLengthForm_le (by omega) hlen
          rw [hall]
          omega
    · simp only [decodeFrame, hhigh, decide_false, if_false] at h
      generalize (if extLength (b1.toNat % 128) = 0 then b1.toNat % 128
        else ofBe 0 (rest.take (extLength (b1.toNat % 128)))) = len at h
      split at h
      · cases h
      · cases h
        cases hmasked

/-- **Client frames decode to what was sent.** -/
theorem ws_frame_decodes (fill : Mem) (out : U8Buf) (op : UInt8) (fin rsv1 : Bool) (payload : Str8)
    (key : Fin 4 → UInt8) (more : Str8) (hop : op.toNat < 16) (hlen : payload.length < 2 ^ 63) :
    ∃ bytes, (wsFrameBuild fill out op fin rsv1 payload key).content = out.content ++ bytes ∧
      decodeFrame (bytes ++ more) =
        some ({ fin := fin, rsv1 := rsv1, rsv2 := false, rsv3 := false, opcode := op, masked := true
                payload := payload }, bytes.length) ∧
      bytes.length = 2 + wsLengthForm payload.length + 4 + payload.length ∧
      ∀ s f n, decodeFrame s = some (f, n) → f.masked = true → f.payload.length = payload.length →
        bytes.length ≤ n := by
  have hbytes : (wsFrameBytes op fin rsv1 payload key).length = _ := wsFrameBytes_length fin rsv1 key hlen
  refine ⟨wsFrameBytes op fin rsv1 payload key, wsFrame_content fill out op fin rsv1 payload key, ?_, hbytes, ?_⟩
  · rw [hbytes]
    exact decodeFrame_wsFrameBytes fin rsv1 key hop hlen more
  · intro s f n hdecode hmasked hsame
    rw [hbytes, ← hsame]
    exact decodeFrame_minimal hdecode hmasked

/-- A text frame behind four bytes that are already in the buffer. -/
theorem ws_frame_decodes_text :
    ∃ bytes, (wsFrameBuild (fun _ => 0) ((U8Buf.init (fun _ => 7) 4).append (fun _ => 7) (lit "1234")) 1 true false
        (lit "hi") (fun i => UInt8.ofNat i.val)).content = lit "1234" ++ bytes ∧
      decodeFrame (bytes ++ lit "rest") =
        some ({ fin := true, rsv1 := false, rsv2 := false, rsv3 := false, opcode := 1, masked := true
                payload := lit "hi" }, bytes.length) ∧ bytes.length = 8 := by
  obtain ⟨bytes, hcontent, hdecode, hlen, -⟩ := ws_frame_decodes (fun _ => 0)
    ((U8Buf.init (fun _ => 7) 4).append (fun _ => 7) (lit "1234")) 1 true false (lit "hi") (fun i => UInt8.ofNat i.val)
    (lit "rest") (by decide) (by decide)
  rw [U8Buf.content_append] at hcontent
  exact ⟨bytes, hcontent, hdecode, hlen⟩

end HolyTls

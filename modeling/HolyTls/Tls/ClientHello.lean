import HolyTls.Lib.ByteMem
import HolyTls.Tls.Ja4

/-!
# `Tls.ClientHello` — reading a ClientHello (`src/tls/ja4.c`)

The parser works on bounds-checked cursors. A read that does not fit clears the cursor's `ok` and gives 0;
a nested list gets a cursor of its own, clamped to what is there. On an encoded ClientHello every read fits,
and the parser returns what was encoded (`ja4Parse_encode`).

Only the cursor of the ClientHello itself decides `ok`. What comes before the extensions is read with it, so
a message cut there is rejected: a reader that succeeds does the same on a longer input (`Steady`), so a
prefix that is accepted contains everything up to the compression methods. Extensions are read with cursors
whose `ok` nobody looks at (`truncated_hello_ok_iff`).
-/

namespace HolyTls

open ByteMem (be ofBe)

variable {max n : Nat} {α : Type}

/-! ## Cursors -/

/-- `Cursor`: what is left of its range, and whether every read so far fitted. -/
structure Cursor where
  rest : Str8
  ok : Bool := true
deriving DecidableEq, Repr

/-- `cur_remaining`. -/
def Cursor.remaining (c : Cursor) : Nat := if c.ok then c.rest.length else 0

/-- The next `w` bytes as a number. -/
def curRead (w : Nat) : StateM Cursor Nat := fun c =>
  if c.remaining < w then (0, { c with ok := false })
  else (ofBe 0 (c.rest.take w), { c with rest := c.rest.drop w })

/-- `cur_u8`. -/
def curU8 : StateM Cursor Nat := curRead 1

/-- `cur_u16`. -/
def curU16 : StateM Cursor Nat := curRead 2

/-- `cur_u24`. -/
def curU24 : StateM Cursor Nat := curRead 3

/-- `cur_skip`. -/
def curSkip (n : Nat) : StateM Cursor Unit := fun c =>
  if c.remaining < n then ((), { rest := [], ok := false }) else ((), { c with rest := c.rest.drop n })

/-- A loop `for (i = 0; i + w <= len; i += w)` over values of `w` bytes, with a counter of `bits` bits. At most `max`
    values are kept. The loop over a protocol name also stops at a read that fails (`whileOk`). The fuel `len` is
    more than the number of turns, unless the counter wraps around. -/
def readLoop {α : Type} (conv : Nat → α) (w bits max len : Nat) (whileOk : Bool) :
    Nat → Nat → List α → StateM Cursor (List α)
  | 0, _, vs => pure vs
  | fuel + 1, i, vs => fun c =>
    if i + w ≤ len ∧ (whileOk = true → c.ok = true) then
      let (v, c) := curRead w c
      readLoop conv w bits max len whileOk fuel ((i + w) % 2 ^ bits) (if vs.length < max then vs ++ [conv v] else vs) c
    else (vs, c)

/-! ## The parser -/

def ja4MaxCiphers : Nat := 128
def ja4MaxExts : Nat := 128
def ja4MaxGroups : Nat := 64
def ja4MaxEcpf : Nat := 32
def ja4MaxSv : Nat := 32
def ja4MaxSigalgs : Nat := 64
def ja4MaxAlpn : Nat := 32

/-- The `switch` of `parse_ch_body` over the extension type, on the cursor of the extension's data. -/
def parseExtension (type : Nat) (info : ClientHelloInfo) : StateM Cursor ClientHelloInfo :=
  if type = 0x0000 then pure { info with hasSni := true }
  else if type = 0x000a then do
    let l ← curU16
    let vs ← readLoop UInt16.ofNat 2 16 ja4MaxGroups l false l 0 info.supportedGroups
    pure { info with supportedGroups := vs }
  else if type = 0x000b then do
    let l ← curU8
    let vs ← readLoop UInt8.ofNat 1 8 ja4MaxEcpf l false l 0 info.ecPointFormats
    pure { info with ecPointFormats := vs }
  else if type = 0x000d then do
    let l ← curU16
    let vs ← readLoop UInt16.ofNat 2 16 ja4MaxSigalgs l false l 0 info.sigAlgs
    pure { info with sigAlgs := vs }
  else if type = 0x0010 then do
    let _ ← curU16
    let l ← curU8
    let vs ← readLoop UInt8.ofNat 1 8 ja4MaxAlpn l true l 0 info.alpnFirst
    pure { info with alpnFirst := vs }
  else if type = 0x002b then do
    let l ← curU8
    let vs ← readLoop UInt16.ofNat 2 8 ja4MaxSv l false l 0 info.supportedVersions
    pure { info with supportedVersions := vs }
  else pure info

/-- The `while` loop over the extensions. Each turn takes at least four bytes. -/
def parseExts : Nat → Cursor → ClientHelloInfo → ClientHelloInfo
  | 0, _, info => info
  | fuel + 1, exts, info =>
    if exts.remaining < 4 then info
    else
      let (type, exts) := curU16 exts
      let (elen, exts) := curU16 exts
      let ed : Cursor := { rest := exts.rest.take (min elen exts.remaining) }
      let exts := (curSkip elen exts).2
      let info := { info with extensions :=
        if info.extensions.length < ja4MaxExts then info.extensions ++ [UInt16.ofNat type] else info.extensions }
      parseExts fuel exts (parseExtension type info ed).1

/-- `parse_ch_body` up to the compression methods. -/
def parseChHead (info : ClientHelloInfo) : StateM Cursor ClientHelloInfo := do
  let version ← curU16
  curSkip 32
  curSkip (← curU8)
  let csLen ← curU16
  let ciphers ← readLoop UInt16.ofNat 2 16 ja4MaxCiphers csLen false csLen 0 info.cipherSuites
  curSkip (← curU8)
  pure { info with legacyVersion := UInt16.ofNat version, cipherSuites := ciphers }

/-- `parse_ch_body`. -/
def parseChBody (info : ClientHelloInfo) (ch : Cursor) : ClientHelloInfo :=
  let (info, ch) := parseChHead info ch
  let (info, ch) :=
    if ch.remaining ≥ 2 then
      let (extTotal, ch) := curU16 ch
      (parseExts ch.rest.length { rest := ch.rest.take (min extTotal ch.remaining) } info, ch)
    else (info, ch)
  { info with ok := ch.ok }

/-- The part that `ja4_parse_record` and `ja4_parse_handshake` share, from the message type on. -/
def parseHello (info : ClientHelloInfo) (hs : Cursor) : ClientHelloInfo :=
  let (type, hs) := curU8 hs
  if type ≠ 0x01 then info
  else
    let (chLen, hs) := curU24 hs
    parseChBody info { rest := hs.rest.take (min chLen hs.remaining) }

/-- `ja4_parse_record`. -/
def ja4ParseRecord (rec : Str8) : ClientHelloInfo :=
  let info : ClientHelloInfo := { transport := 116 }
  let (type, c) := curU8 { rest := rec }
  if type ≠ 0x16 then info
  else
    let (_, c) := curU16 c
    let (recLen, c) := curU16 c
    parseHello info { rest := c.rest.take (min recLen c.remaining) }

/-- `ja4_parse_handshake`. -/
def ja4ParseHandshake (hsMsg : Str8) : ClientHelloInfo := parseHello { transport := 113 } { rest := hsMsg }

/-! ## ClientHellos -/

/-- An extension of a ClientHello, with the bodies that the parser looks into. -/
inductive HelloExtension
  | supportedGroups (groups : List UInt16)
  | ecPointFormats (formats : List UInt8)
  | signatureAlgorithms (algs : List UInt16)
  | alpn (first : Str8) (others : List Str8)
  | supportedVersions (versions : List UInt16)
  | other (type : UInt16) (body : Str8)
deriving DecidableEq, Repr

namespace HelloExtension

@[simp] def type : HelloExtension → UInt16
  | supportedGroups _ => 0x000a
  | ecPointFormats _ => 0x000b
  | signatureAlgorithms _ => 0x000d
  | alpn _ _ => 0x0010
  | supportedVersions _ => 0x002b
  | other type _ => type

/-- The 16-bit values of a list, as they go on the wire. -/
def wire16 (vs : List UInt16) : Str8 := vs.flatMap fun v => be 2 v.toNat

/-- A byte string behind its length. -/
def wire8 (s : Str8) : Str8 := be 1 s.length ++ s

@[simp] def body : HelloExtension → Str8
  | supportedGroups vs | signatureAlgorithms vs => be 2 (wire16 vs).length ++ wire16 vs
  | ecPointFormats fs => wire8 fs
  | alpn first others =>
    be 2 (wire8 first ++ others.flatMap wire8).length ++ (wire8 first ++ others.flatMap wire8)
  | supportedVersions vs => be 1 (wire16 vs).length ++ wire16 vs
  | other _ body => body

def encode (e : HelloExtension) : Str8 := be 2 e.type.toNat ++ (be 2 e.body.length ++ e.body)

/-- The counts are within the parser's limits, and another extension is of another type. -/
def Fits : HelloExtension → Prop
  | supportedGroups vs => vs.length ≤ ja4MaxGroups
  | ecPointFormats fs => fs.length ≤ ja4MaxEcpf
  | signatureAlgorithms vs => vs.length ≤ ja4MaxSigalgs
  | alpn first others => first.length ≤ ja4MaxAlpn ∧ ∀ p ∈ others, p.length ≤ 255
  | supportedVersions vs => vs.length ≤ ja4MaxSv
  | other type _ => type ∉ ([0x000a, 0x000b, 0x000d, 0x0010, 0x002b] : List UInt16)

@[simp] def groups : HelloExtension → List UInt16
  | supportedGroups vs => vs
  | _ => []

@[simp] def formats : HelloExtension → List UInt8
  | ecPointFormats fs => fs
  | _ => []

@[simp] def algs : HelloExtension → List UInt16
  | signatureAlgorithms vs => vs
  | _ => []

@[simp] def protocol : HelloExtension → Str8
  | alpn first _ => first
  | _ => []

@[simp] def versions : HelloExtension → List UInt16
  | supportedVersions vs => vs
  | _ => []

end HelloExtension

/-- What comes before the extensions. -/
structure HelloHead where
  legacyVersion : UInt16
  random : Str8
  sessionId : Str8
  cipherSuites : List UInt16
  compression : Str8
  random_length : random.length = 32
  sessionId_length : sessionId.length ≤ 255
  cipherSuites_length : cipherSuites.length ≤ ja4MaxCiphers
  compression_length : compression.length ≤ 255

open HelloExtension in
def HelloHead.encode (h : HelloHead) : Str8 :=
  be 2 h.legacyVersion.toNat ++ (h.random ++ (wire8 h.sessionId ++
    (be 2 (wire16 h.cipherSuites).length ++ (wire16 h.cipherSuites ++ wire8 h.compression))))

/-- A ClientHello: each extension at most once, and all of them within the 16 bits of their length. -/
structure ClientHello extends HelloHead where
  extensions : List HelloExtension
  fits : ∀ e ∈ extensions, e.Fits
  count : extensions.length ≤ ja4MaxExts
  distinct : (extensions.map HelloExtension.type).Nodup
  total : (extensions.flatMap HelloExtension.encode).length < 2 ^ 16

def ClientHello.encode (h : ClientHello) : Str8 :=
  h.toHelloHead.encode ++ (be 2 (h.extensions.flatMap HelloExtension.encode).length ++
    h.extensions.flatMap HelloExtension.encode)

/-- A ClientHello as a handshake message. -/
def handshakeMessage (body : Str8) : Str8 := be 1 1 ++ (be 3 body.length ++ body)

/-- A handshake message in one record. -/
def tlsRecord (version : UInt16) (message : Str8) : Str8 :=
  be 1 0x16 ++ (be 2 version.toNat ++ (be 2 message.length ++ message))

/-- What the parser is to find. -/
def ClientHello.info (h : ClientHello) (transport : UInt8) : ClientHelloInfo where
  ok := true
  transport := transport
  legacyVersion := h.legacyVersion
  cipherSuites := h.cipherSuites
  extensions := h.extensions.map HelloExtension.type
  supportedGroups := h.extensions.flatMap HelloExtension.groups
  ecPointFormats := h.extensions.flatMap HelloExtension.formats
  supportedVersions := h.extensions.flatMap HelloExtension.versions
  sigAlgs := h.extensions.flatMap HelloExtension.algs
  hasSni := h.extensions.any fun e => e.type == 0
  alpnFirst := h.extensions.flatMap HelloExtension.protocol

/-! ## Reading what was written -/

section

variable {α β : Type} {t : Str8}

@[simp] theorem bind_run (x : StateM Cursor α) (f : α → StateM Cursor β) (c : Cursor) :
    (x >>= f) c = f (x c).1 (x c).2 := rfl

@[simp] theorem pure_run (a : α) (c : Cursor) : (pure a : StateM Cursor α) c = (a, c) := rfl

@[simp] theorem map_run (f : α → β) (x : StateM Cursor α) (c : Cursor) : (f <$> x) c = (f (x c).1, (x c).2) := rfl

theorem curRead_append {w : Nat} {s : Str8} (h : s.length = w) :
    curRead w ⟨s ++ t, true⟩ = (ofBe 0 s, ⟨t, true⟩) := by
  subst h
  simp [curRead, Cursor.remaining]

theorem curRead_be {w v : Nat} (h : v < 256 ^ w) : curRead w ⟨be w v ++ t, true⟩ = (v, ⟨t, true⟩) := by
  rw [curRead_append (ByteMem.be_length w v), ByteMem.ofBe_be, Nat.zero_mul, Nat.zero_add, Nat.mod_eq_of_lt h]

theorem curU8_be {v : Nat} (h : v < 2 ^ 8) : curU8 ⟨be 1 v ++ t, true⟩ = (v, ⟨t, true⟩) := curRead_be h

theorem curU16_be {v : Nat} (h : v < 2 ^ 16) : curU16 ⟨be 2 v ++ t, true⟩ = (v, ⟨t, true⟩) := curRead_be h

theorem curSkip_append {s : Str8} (h : s.length = n) : curSkip n ⟨s ++ t, true⟩ = ((), ⟨t, true⟩) := by
  subst h
  simp [curSkip, Cursor.remaining]

theorem readLoop_turn (conv : Nat → α) (w bits max len : Nat) (whileOk : Bool) (fuel i : Nat) (vs : List α)
    (c : Cursor) :
    readLoop conv w bits max len whileOk (fuel + 1) i vs c =
      if i + w ≤ len ∧ (whileOk = true → c.ok = true) then
        readLoop conv w bits max len whileOk fuel ((i + w) % 2 ^ bits)
          (if vs.length < max then vs ++ [conv (curRead w c).1] else vs) (curRead w c).2
      else (vs, c) := rfl

theorem readLoop_wire {conv : Nat → α} {enc : α → Nat} {w bits len : Nat} (whileOk : Bool) (hw : 0 < w)
    (hconv : ∀ x, conv (enc x) = x) (henc : ∀ x, enc x < 256 ^ w) (hbits : len < 2 ^ bits) (xs : List α)
    {i fuel : Nat} {vs : List α} (hlen : i + w * xs.length = len) (hfuel : xs.length ≤ fuel)
    (hmax : vs.length + xs.length ≤ max) :
    readLoop conv w bits max len whileOk fuel i vs ⟨xs.flatMap (fun x => be w (enc x)) ++ t, true⟩ =
      (vs ++ xs, ⟨t, true⟩) := by
  induction xs generalizing i fuel vs with
  | nil =>
    cases fuel with
    | zero => simp [readLoop]
    | succ fuel =>
      have hstop : ¬ i + w ≤ len := by
        rw [List.length_nil, Nat.mul_zero] at hlen
        omega
      simp [readLoop, hstop]
  | cons x xs ih =>
    obtain ⟨fuel, rfl⟩ : ∃ f, fuel = f + 1 := ⟨fuel - 1, by simp only [List.length_cons] at hfuel; omega⟩
    rw [List.length_cons, Nat.mul_succ] at hlen
    rw [List.length_cons] at hfuel hmax
    have hle : i + w ≤ len := by omega
    have hroom : vs.length < max := by omega
    rw [readLoop_turn, if_pos ⟨hle, fun _ => rfl⟩, List.flatMap_cons, List.append_assoc, curRead_be (henc x)]
    simp only [if_pos hroom, hconv, Nat.mod_eq_of_lt (Nat.lt_of_le_of_lt hle hbits)]
    rw [ih (by omega) (by omega) (by rw [List.length_append, List.length_singleton]; omega)]
    simp

theorem wire16_length (vs : List UInt16) : (HelloExtension.wire16 vs).length = 2 * vs.length := by
  simp [HelloExtension.wire16, Nat.mul_comm]

theorem readLoop_wire16 {bits : Nat} {xs vs : List UInt16} (hbits : 2 * xs.length < 2 ^ bits)
    (hmax : vs.length + xs.length ≤ max) :
    readLoop UInt16.ofNat 2 bits max (2 * xs.length) false (2 * xs.length) 0 vs ⟨HelloExtension.wire16 xs ++ t, true⟩ =
      (vs ++ xs, ⟨t, true⟩) :=
  readLoop_wire false (by decide) (fun _ => UInt16.ofNat_toNat) (fun x => x.toNat_lt) hbits xs
    (by omega) (by omega) hmax

theorem readLoop_bytes (whileOk : Bool) {xs vs : Str8} (hbits : xs.length < 2 ^ 8)
    (hmax : vs.length + xs.length ≤ max) :
    readLoop UInt8.ofNat 1 8 max xs.length whileOk xs.length 0 vs ⟨xs ++ t, true⟩ = (vs ++ xs, ⟨t, true⟩) := by
  have hbyte : ∀ x : UInt8, be 1 x.toNat = [x] := by
    intro x
    have hlt := x.toNat_lt
    simp [be, Nat.mod_eq_of_lt hlt]
  have hloop : readLoop UInt8.ofNat 1 8 max xs.length whileOk xs.length 0 vs
      ⟨xs.flatMap (fun x => be 1 x.toNat) ++ t, true⟩ = (vs ++ xs, ⟨t, true⟩) :=
    readLoop_wire whileOk (by decide) (fun _ => UInt8.ofNat_toNat) (fun x => x.toNat_lt) hbits xs (by omega)
      (Nat.le_refl _) hmax
  simpa [hbyte] using hloop

end

/-! ## The parser inverts the encoding -/

/-- What a list of extensions adds to the parsed fields. -/
def ClientHelloInfo.add (info : ClientHelloInfo) (exts : List HelloExtension) : ClientHelloInfo :=
  { info with
    extensions := info.extensions ++ exts.map HelloExtension.type
    supportedGroups := info.supportedGroups ++ exts.flatMap HelloExtension.groups
    ecPointFormats := info.ecPointFormats ++ exts.flatMap HelloExtension.formats
    supportedVersions := info.supportedVersions ++ exts.flatMap HelloExtension.versions
    sigAlgs := info.sigAlgs ++ exts.flatMap HelloExtension.algs
    hasSni := info.hasSni || exts.any fun e => e.type == 0
    alpnFirst := info.alpnFirst ++ exts.flatMap HelloExtension.protocol }

theorem ClientHelloInfo.add_cons (info : ClientHelloInfo) (e : HelloExtension) (exts : List HelloExtension) :
    (info.add [e]).add exts = info.add (e :: exts) := by
  simp [ClientHelloInfo.add, Bool.or_assoc]

/-- The fields are within the parser's limits. -/
structure ClientHelloInfo.Within (info : ClientHelloInfo) : Prop where
  extensions : info.extensions.length ≤ ja4MaxExts
  groups : info.supportedGroups.length ≤ ja4MaxGroups
  formats : info.ecPointFormats.length ≤ ja4MaxEcpf
  versions : info.supportedVersions.length ≤ ja4MaxSv
  algs : info.sigAlgs.length ≤ ja4MaxSigalgs
  protocol : info.alpnFirst.length ≤ ja4MaxAlpn

variable {exts : List HelloExtension}

theorem ClientHelloInfo.Within.of_add {info : ClientHelloInfo} (h : (info.add exts).Within) : info.Within := by
  obtain ⟨h1, h2, h3, h4, h5, h6⟩ := h
  simp only [ClientHelloInfo.add, List.length_append] at h1 h2 h3 h4 h5 h6
  constructor <;> omega

theorem read_list16 (w bits : Nat) (xs : List UInt16) {vs : List UInt16} (hw : 2 * xs.length < 256 ^ w)
    (hbits : 2 * xs.length < 2 ^ bits) (hmax : vs.length + xs.length ≤ max) :
    let c : Cursor := ⟨be w (HelloExtension.wire16 xs).length ++ HelloExtension.wire16 xs, true⟩
    (readLoop UInt16.ofNat 2 bits max (curRead w c).1 false (curRead w c).1 0 vs (curRead w c).2).1 = vs ++ xs := by
  have hloop := readLoop_wire16 (t := []) hbits hmax
  rw [List.append_nil] at hloop
  simp only [wire16_length, curRead_be hw, hloop]

/-- A byte string behind its length, with more after it. -/
theorem read_bytes (whileOk : Bool) (xs t : Str8) {vs : Str8} (hlen : xs.length < 2 ^ 8)
    (hmax : vs.length + xs.length ≤ max) :
    let c : Cursor := ⟨HelloExtension.wire8 xs ++ t, true⟩
    (readLoop UInt8.ofNat 1 8 max (curU8 c).1 whileOk (curU8 c).1 0 vs (curU8 c).2).1 = vs ++ xs := by
  simp only [HelloExtension.wire8, List.append_assoc, curU8_be hlen, readLoop_bytes whileOk hlen hmax]

theorem parseExtension_body {info : ClientHelloInfo} {e : HelloExtension} (hfits : e.Fits)
    (hwithin : (info.add [e]).Within) :
    (parseExtension e.type.toNat { info with extensions := info.extensions ++ [e.type] } ⟨e.body, true⟩).1 =
      info.add [e] := by
  obtain ⟨-, hgroups, hformats, hversions, halgs, hprotocol⟩ := hwithin
  simp only [ClientHelloInfo.add, List.flatMap_cons, List.flatMap_nil, List.append_nil, List.length_append] at *
  cases e with
  | supportedGroups vs =>
    have hn : vs.length ≤ 64 := hfits
    have hread := read_list16 2 16 vs (by omega) (by omega) hgroups
    simp [parseExtension, curU16, hread]
  | ecPointFormats fs =>
    have hn : fs.length ≤ 32 := hfits
    have hread := read_bytes false fs [] (by omega) hformats
    rw [List.append_nil] at hread
    simp [parseExtension, hread]
  | signatureAlgorithms vs =>
    have hn : vs.length ≤ 64 := hfits
    have hread := read_list16 2 16 vs (by omega) (by omega) halgs
    simp [parseExtension, curU16, hread]
  | alpn first others =>
    have hn : first.length ≤ 32 := hfits.1
    have hread := read_bytes true first (others.flatMap HelloExtension.wire8) (by omega) hprotocol
    have hskip : ∀ n t, (curU16 ⟨be 2 n ++ t, true⟩).2 = ⟨t, true⟩ := fun n t => by
      rw [curU16, curRead_append (ByteMem.be_length 2 n)]
    simp [parseExtension, hskip, hread]
  | supportedVersions vs =>
    have hn : vs.length ≤ 32 := hfits
    have hread := read_list16 1 8 vs (by omega) (by omega) hversions
    simp [parseExtension, curU8, hread]
  | other type body =>
    have hne : ∀ k ∈ ([0x000a, 0x000b, 0x000d, 0x0010, 0x002b] : List UInt16), type.toNat ≠ k.toNat := by
      rintro k hk heq
      exact hfits (UInt16.toNat_inj.mp heq ▸ hk)
    simp only [List.forall_mem_cons, UInt16.reduceToNat] at hne
    by_cases h0 : type = 0
    · simp [parseExtension, h0]
    · have hsni : type.toNat ≠ 0 := fun heq => h0 (UInt16.toNat_inj.mp heq)
      simp [parseExtension, h0, hsni, hne]

theorem encode_length (e : HelloExtension) : e.encode.length = 4 + e.body.length := by
  simp [HelloExtension.encode]
  omega

/-- The loop over the extensions reads one after the other. -/
theorem parseExts_encode (hfits : ∀ e ∈ exts, e.Fits) {info : ClientHelloInfo}
    (hwithin : (info.add exts).Within) (htotal : (exts.flatMap HelloExtension.encode).length < 2 ^ 16)
    {fuel : Nat} (hfuel : (exts.flatMap HelloExtension.encode).length ≤ fuel) :
    parseExts fuel ⟨exts.flatMap HelloExtension.encode, true⟩ info = info.add exts := by
  induction exts generalizing info fuel with
  | nil =>
    cases fuel with
    | zero => simp [parseExts, ClientHelloInfo.add]
    | succ fuel => simp [parseExts, Cursor.remaining, ClientHelloInfo.add]
  | cons e exts ih =>
    obtain ⟨hfit, hfits⟩ := List.forall_mem_cons.mp hfits
    rw [List.flatMap_cons, List.length_append, encode_length] at htotal hfuel
    obtain ⟨fuel, rfl⟩ : ∃ f, fuel = f + 1 := ⟨fuel - 1, by omega⟩
    rw [← ClientHelloInfo.add_cons] at hwithin ⊢
    have hone := hwithin.of_add
    have hroom : info.extensions.length < ja4MaxExts := by
      have := hone.extensions
      simp [ClientHelloInfo.add] at this
      omega
    have htype : curU16 ⟨e.encode ++ exts.flatMap HelloExtension.encode, true⟩ =
        (e.type.toNat, ⟨be 2 e.body.length ++ (e.body ++ exts.flatMap HelloExtension.encode), true⟩) := by
      rw [HelloExtension.encode, List.append_assoc, List.append_assoc]
      exact curU16_be e.type.toNat_lt
    have hlen : curU16 ⟨be 2 e.body.length ++ (e.body ++ exts.flatMap HelloExtension.encode), true⟩ =
        (e.body.length, ⟨e.body ++ exts.flatMap HelloExtension.encode, true⟩) := curU16_be (by omega)
    have hmore : ¬ (Cursor.remaining ⟨e.encode ++ exts.flatMap HelloExtension.encode, true⟩ < 4) := by
      simp [Cursor.remaining, encode_length]
      omega
    rw [List.flatMap_cons, parseExts, if_neg hmore]
    simp only [htype, hlen, curSkip_append rfl, Cursor.remaining, if_true, List.length_append,
      Nat.min_eq_left (Nat.le_add_right _ _), List.take_left, if_pos hroom, UInt16.ofNat_toNat,
      parseExtension_body hfit hone]
    exact ih hfits hwithin (by omega) (by omega)

/-- What comes before the extensions is read as it was written. -/
theorem parseChHead_encode (h : HelloHead) (info : ClientHelloInfo) (hinfo : info.cipherSuites = []) (t : Str8) :
    parseChHead info ⟨h.encode ++ t, true⟩ =
      ({ info with legacyVersion := h.legacyVersion, cipherSuites := h.cipherSuites }, ⟨t, true⟩) := by
  have hciphers : 2 * h.cipherSuites.length < 2 ^ 16 := by
    have hmax : h.cipherSuites.length ≤ 128 := h.cipherSuites_length
    omega
  have hsid : h.sessionId.length < 2 ^ 8 := Nat.lt_succ_of_le h.sessionId_length
  have hcomp : h.compression.length < 2 ^ 8 := Nat.lt_succ_of_le h.compression_length
  have hroom : ([] : List UInt16).length + h.cipherSuites.length ≤ ja4MaxCiphers := by
    simpa using h.cipherSuites_length
  simp only [parseChHead, HelloHead.encode, HelloExtension.wire8, List.append_assoc, bind_run, pure_run,
    curU16_be h.legacyVersion.toNat_lt, curSkip_append h.random_length, curU8_be hsid, curSkip_append rfl,
    wire16_length, curU16_be hciphers, hinfo, readLoop_wire16 hciphers hroom, curU8_be hcomp, List.nil_append,
    UInt16.ofNat_toNat]

theorem parseHello_message {info : ClientHelloInfo} {body : Str8} (hlen : body.length < 2 ^ 24) :
    parseHello info ⟨handshakeMessage body, true⟩ = parseChBody info ⟨body, true⟩ := by
  have hread : curU24 ⟨be 3 body.length ++ body, true⟩ = (body.length, ⟨body, true⟩) := curRead_be hlen
  simp [parseHello, handshakeMessage, curU8_be, hread, Cursor.remaining]

theorem ja4ParseRecord_tlsRecord (version : UInt16) {message : Str8} (hlen : message.length < 2 ^ 16) :
    ja4ParseRecord (tlsRecord version message) = parseHello { transport := 116 } ⟨message, true⟩ := by
  simp [ja4ParseRecord, tlsRecord, curU8_be, curU16_be version.toNat_lt, curU16_be hlen, Cursor.remaining]

/-- Of a type that occurs once, the values of all extensions are those of one. -/
theorem flatMap_length_le {f : HelloExtension → List α} {type : UInt16} (hf : ∀ e, f e ≠ [] → e.type = type)
    (hn : ∀ e ∈ exts, (f e).length ≤ n) (hdistinct : (exts.map HelloExtension.type).Nodup) :
    (exts.flatMap f).length ≤ n := by
  induction exts with
  | nil => exact Nat.zero_le n
  | cons e exts ih =>
    obtain ⟨he, hrest⟩ := List.forall_mem_cons.mp hn
    obtain ⟨hnew, hdistinct⟩ := List.nodup_cons.mp hdistinct
    rw [List.flatMap_cons]
    by_cases hnil : f e = []
    · rw [hnil]
      exact ih hrest hdistinct
    · have hothers : exts.flatMap f = [] := by
        rw [List.flatMap_eq_nil_iff]
        intro e' he'
        by_contra hne
        exact hnew ((hf e hnil).trans (hf e' hne).symm ▸ List.mem_map_of_mem he')
      rw [hothers, List.append_nil]
      exact he

/-- The parsed fields before the extensions are read. -/
def HelloHead.start (h : HelloHead) (transport : UInt8) : ClientHelloInfo :=
  { transport := transport, legacyVersion := h.legacyVersion, cipherSuites := h.cipherSuites }

theorem HelloExtension.type_of_ne_nil (e : HelloExtension) :
    (e.groups ≠ [] → e.type = 0x000a) ∧ (e.formats ≠ [] → e.type = 0x000b) ∧ (e.versions ≠ [] → e.type = 0x002b) ∧
      (e.algs ≠ [] → e.type = 0x000d) ∧ (e.protocol ≠ [] → e.type = 0x0010) := by
  cases e <;> simp

theorem HelloExtension.Fits.lengths {e : HelloExtension} (h : e.Fits) :
    e.groups.length ≤ ja4MaxGroups ∧ e.formats.length ≤ ja4MaxEcpf ∧ e.versions.length ≤ ja4MaxSv ∧
      e.algs.length ≤ ja4MaxSigalgs ∧ e.protocol.length ≤ ja4MaxAlpn := by
  cases e <;> simp_all [HelloExtension.Fits]

theorem ClientHello.within (h : ClientHello) (transport : UInt8) : ((h.start transport).add h.extensions).Within where
  extensions := by simpa [HelloHead.start, ClientHelloInfo.add] using h.count
  groups := flatMap_length_le (fun e => e.type_of_ne_nil.1) (fun e he => (h.fits e he).lengths.1) h.distinct
  formats := flatMap_length_le (fun e => e.type_of_ne_nil.2.1) (fun e he => (h.fits e he).lengths.2.1) h.distinct
  versions := flatMap_length_le (fun e => e.type_of_ne_nil.2.2.1) (fun e he => (h.fits e he).lengths.2.2.1) h.distinct
  algs := flatMap_length_le (fun e => e.type_of_ne_nil.2.2.2.1) (fun e he => (h.fits e he).lengths.2.2.2.1) h.distinct
  protocol := flatMap_length_le (fun e => e.type_of_ne_nil.2.2.2.2) (fun e he => (h.fits e he).lengths.2.2.2.2)
    h.distinct

/-- Everything before the extensions takes less than a kilobyte. -/
theorem HelloHead.encode_length_lt (h : HelloHead) : h.encode.length < 1024 := by
  have hsid := h.sessionId_length
  have hciphers : h.cipherSuites.length ≤ 128 := h.cipherSuites_length
  have hcomp := h.compression_length
  simp only [HelloHead.encode, HelloExtension.wire8, wire16_length, List.length_append,
    ByteMem.be_length, h.random_length]
  omega

theorem ClientHello.encode_lt (h : ClientHello) : h.encode.length < 2 ^ 24 := by
  have hhead := h.encode_length_lt
  have htotal := h.total
  simp only [ClientHello.encode, List.length_append, ByteMem.be_length]
  omega

/-- **Parsing inverts encoding**, for a handshake message and for a message in one record. -/
theorem ja4Parse_encode (h : ClientHello) :
    ja4ParseHandshake (handshakeMessage h.encode) = h.info 113 ∧
      ∀ version, (handshakeMessage h.encode).length < 2 ^ 16 →
        ja4ParseRecord (tlsRecord version (handshakeMessage h.encode)) = h.info 116 := by
  have hbody : ∀ transport, parseChBody { transport := transport } ⟨h.encode, true⟩ = h.info transport := by
    intro transport
    have hhead := parseChHead_encode h.toHelloHead { transport := transport } rfl
      (be 2 (h.extensions.flatMap HelloExtension.encode).length ++ h.extensions.flatMap HelloExtension.encode)
    have hexts := parseExts_encode h.fits (h.within transport) h.total (Nat.le_refl _)
    have hmore : 2 ≤ Cursor.remaining
        ⟨be 2 (h.extensions.flatMap HelloExtension.encode).length ++
          h.extensions.flatMap HelloExtension.encode, true⟩ := by
      simp [Cursor.remaining]
    rw [parseChBody, ClientHello.encode, hhead]
    dsimp only
    rw [if_pos hmore, curU16_be h.total]
    simp only [Cursor.remaining, if_true, Nat.min_self, List.take_length]
    exact (congrArg (fun info : ClientHelloInfo => { info with ok := true }) hexts).trans rfl
  refine ⟨?_, fun version hfits => ?_⟩
  · rw [ja4ParseHandshake, parseHello_message h.encode_lt, hbody]
  · rw [ja4ParseRecord_tlsRecord version hfits, parseHello_message h.encode_lt, hbody]

/-- A ClientHello with one cipher, a server name and a group. -/
def smallHello : ClientHello where
  legacyVersion := 0x0303
  random := List.replicate 32 7
  sessionId := []
  cipherSuites := [0x1301]
  compression := [0]
  extensions := [.other 0 [0, 0], .supportedGroups [0x001d]]
  random_length := rfl
  sessionId_length := by decide
  cipherSuites_length := by decide
  compression_length := by decide
  fits := by simp [HelloExtension.Fits, ja4MaxGroups]
  count := by decide
  distinct := by decide
  total := by decide

theorem ja4Parse_encode_small :
    ja4ParseRecord (tlsRecord 0x0301 (handshakeMessage smallHello.encode)) = smallHello.info 116 :=
  (ja4Parse_encode smallHello).2 0x0301 (by decide)

/-! ## Messages that do not fit -/

/-- A reader that succeeds needs nothing behind what it read: on a longer input it does the same. -/
structure Steady {α : Type} (f : StateM Cursor α) : Prop where
  ok : ∀ c, (f c).2.ok = true → c.ok = true
  append : ∀ c t, (f c).2.ok = true → f ⟨c.rest ++ t, c.ok⟩ = ((f c).1, ⟨(f c).2.rest ++ t, (f c).2.ok⟩)

theorem Steady.pure (a : α) : Steady (pure a : StateM Cursor α) :=
  ⟨fun _ h => h, fun _ _ _ => rfl⟩

theorem Steady.bind {β : Type} {x : StateM Cursor α} {f : α → StateM Cursor β} (hx : Steady x)
    (hf : ∀ a, Steady (f a)) : Steady (x >>= f) where
  ok c h := hx.ok c ((hf _).ok _ h)
  append c t h := by
    have hok := (hf _).ok _ h
    rw [bind_run, hx.append c t hok]
    exact (hf _).append _ t h

/-- A read of `n` bytes, which fails when there are fewer. -/
theorem Steady.of_take {f : StateM Cursor α} (g : Str8 → α)
    (hfail : ∀ c, c.remaining < n → (f c).2.ok = false)
    (hread : ∀ c, ¬ c.remaining < n → f c = (g (c.rest.take n), ⟨c.rest.drop n, c.ok⟩)) : Steady f := by
  have hfits : ∀ c, (f c).2.ok = true → ¬ c.remaining < n := fun c h hlt => by simp [hfail c hlt] at h
  have hok : ∀ c, (f c).2.ok = true → c.ok = true := fun c h => by rwa [hread c (hfits c h)] at h
  refine ⟨hok, fun c t h => ?_⟩
  have hlen := hfits c h
  have hfit : n ≤ c.rest.length := by
    rw [Cursor.remaining, if_pos (hok c h)] at hlen
    omega
  have hlonger : ¬ Cursor.remaining ⟨c.rest ++ t, c.ok⟩ < n := by
    rw [Cursor.remaining, if_pos (hok c h), List.length_append]
    omega
  rw [hread _ hlonger, hread c hlen, List.take_append_of_le_length hfit, List.drop_append_of_le_length hfit]

theorem curRead_steady (w : Nat) : Steady (curRead w) :=
  .of_take (ofBe 0) (fun c h => by rw [curRead, if_pos h]) (fun c h => by rw [curRead, if_neg h])

theorem curSkip_steady (n : Nat) : Steady (curSkip n) :=
  .of_take (fun _ => ()) (fun c h => by rw [curSkip, if_pos h]) (fun c h => by rw [curSkip, if_neg h])

theorem readLoop_steady (conv : Nat → α) (w bits max len fuel i : Nat) (vs : List α) :
    Steady (readLoop conv w bits max len false fuel i vs) := by
  induction fuel generalizing i vs with
  | zero => exact .pure vs
  | succ fuel ih =>
    by_cases hle : i + w ≤ len
    · have hturn : readLoop conv w bits max len false (fuel + 1) i vs = curRead w >>= fun v =>
          readLoop conv w bits max len false fuel ((i + w) % 2 ^ bits)
            (if vs.length < max then vs ++ [conv v] else vs) := by
        funext c
        rw [readLoop_turn, if_pos ⟨hle, fun h => (by cases h)⟩]
        rfl
      rw [hturn]
      exact .bind (curRead_steady w) fun v => ih _ _
    · have hstop : readLoop conv w bits max len false (fuel + 1) i vs = pure vs := by
        funext c
        rw [readLoop_turn, if_neg (fun h => hle h.1)]
        rfl
      rw [hstop]
      exact .pure vs

theorem parseChHead_steady (info : ClientHelloInfo) : Steady (parseChHead info) :=
  .bind (curRead_steady 2) fun _ => .bind (curSkip_steady 32) fun _ => .bind (curRead_steady 1) fun n =>
    .bind (curSkip_steady n) fun _ => .bind (curRead_steady 2) fun _ => .bind (readLoop_steady _ _ _ _ _ _ _ _) fun _ =>
      .bind (curRead_steady 1) fun n => .bind (curSkip_steady n) fun _ => .pure _

theorem parseChBody_ok (info : ClientHelloInfo) (c : Cursor) :
    (parseChBody info c).ok = (parseChHead info c).2.ok := by
  rcases hhead : parseChHead info c with ⟨info', ch⟩
  simp only [parseChBody, hhead]
  split
  · next hmore =>
      have hfit : ¬ ch.remaining < 2 := by omega
      simp only [curU16, curRead, if_neg hfit]
  · rfl

/-- A ClientHello that is cut off is accepted once everything before the extensions is there. -/
theorem parseChBody_take (h : HelloHead) (info : ClientHelloInfo) (hinfo : info.cipherSuites = [])
    (t : Str8) (k : Nat) :
    (parseChBody info ⟨(h.encode ++ t).take k, true⟩).ok = true ↔ h.encode.length ≤ k := by
  rw [parseChBody_ok]
  constructor
  · intro hok
    -- reading the rest as well leaves `t`, and at least what was cut off
    have hlonger := (parseChHead_steady info).append _ ((h.encode ++ t).drop k) hok
    rw [List.take_append_drop, parseChHead_encode h info hinfo t] at hlonger
    have hrest : t = _ := congrArg (fun r : _ × Cursor => r.2.rest) hlonger
    have hlen := congrArg List.length hrest
    simp only [List.length_append, List.length_drop] at hlen
    omega
  · intro hk
    obtain ⟨j, rfl⟩ := Nat.exists_eq_add_of_le hk
    rw [List.take_length_add_append, parseChHead_encode h info hinfo]

theorem curRead_short {w : Nat} {c : Cursor} (h : c.remaining < w) : curRead w c = (0, { c with ok := false }) :=
  if_pos h

/-- A message that is cut off inside its header has no body. -/
theorem parseHello_take {info : ClientHelloInfo} (hinfo : info.ok = false) {body : Str8} (hlen : body.length < 2 ^ 24)
    (hnil : (parseChBody info ⟨[], true⟩).ok = false) (k : Nat) :
    (parseHello info ⟨(handshakeMessage body).take k, true⟩).ok = (parseChBody info ⟨body.take (k - 4), true⟩).ok := by
  by_cases hk : k < 4
  · rw [Nat.sub_eq_zero_of_le (Nat.le_of_lt hk), List.take_zero, hnil]
    rcases k with _ | k
    · simpa [parseHello, curU8, curRead, Cursor.remaining] using hinfo
    · have htype : curU8 ⟨(handshakeMessage body).take (k + 1), true⟩ =
        (1, ⟨(be 3 body.length ++ body).take k, true⟩) :=
        rfl
      have hshort : Cursor.remaining ⟨(be 3 body.length ++ body).take k, true⟩ < 3 := by
        simp [Cursor.remaining]
        omega
      simp [parseHello, htype, curU24, curRead_short hshort, hnil]
  · obtain ⟨j, rfl⟩ := Nat.exists_eq_add_of_le (Nat.not_lt.mp hk)
    have hcut : (handshakeMessage body).take (4 + j) = be 1 1 ++ (be 3 body.length ++ body.take j) := by
      rw [Nat.add_comm]
      rfl
    have hread : curU24 ⟨be 3 body.length ++ body.take j, true⟩ = (body.length, ⟨body.take j, true⟩) := curRead_be hlen
    rw [hcut, Nat.add_sub_cancel_left]
    have hall : (body.take j).take (min j body.length) = body.take j := List.take_of_length_le (by simp)
    simp [parseHello, curU8_be, hread, Cursor.remaining, hall]

theorem ja4ParseRecord_take (version : UInt16) {message : Str8} (hlen : message.length < 2 ^ 16) (k : Nat) :
    (ja4ParseRecord ((tlsRecord version message).take k)).ok =
      (parseHello { transport := 116 } ⟨message.take (k - 5), true⟩).ok := by
  by_cases hk : k < 5
  · have hnil : (parseHello { transport := 116 } ⟨[], true⟩).ok = false := rfl
    rw [Nat.sub_eq_zero_of_le (Nat.le_of_lt hk), List.take_zero, hnil]
    rcases k with _ | _ | _ | _ | _ | k
    · rfl
    · rfl
    · rfl
    · rfl
    · rfl
    · omega
  · obtain ⟨j, rfl⟩ := Nat.exists_eq_add_of_le (Nat.not_lt.mp hk)
    have hcut : (tlsRecord version message).take (5 + j) =
        be 1 0x16 ++ (be 2 version.toNat ++ (be 2 message.length ++ message.take j)) := by
      rw [Nat.add_comm]
      rfl
    rw [hcut, Nat.add_sub_cancel_left]
    have hall : (message.take j).take (min j message.length) = message.take j := List.take_of_length_le (by simp)
    simp [ja4ParseRecord, curU8_be, curU16_be version.toNat_lt, curU16_be hlen, Cursor.remaining, hall]

theorem readLoop_length {conv : Nat → α} {w bits len fuel i : Nat} {vs : List α} {c : Cursor}
    (hbits : len < 2 ^ bits) (hw : 0 < w) (hfuel : len ≤ i + fuel)
    (hok : (readLoop conv w bits max len false fuel i vs c).2.ok = true) :
    (readLoop conv w bits max len false fuel i vs c).2.rest.length + (len - i) ≤ c.rest.length + (w - 1) := by
  induction fuel generalizing i vs c with
  | zero =>
    simp only [readLoop, pure_run]
    omega
  | succ fuel ih =>
    rw [readLoop_turn] at hok ⊢
    split at hok
    · next hle =>
        rw [if_pos hle]
        have hwrap : (i + w) % 2 ^ bits = i + w := Nat.mod_eq_of_lt (by omega)
        rw [hwrap] at hok ⊢
        have hrest := ih (by omega) hok
        have hread := (readLoop_steady conv w bits max len fuel (i + w) _).ok _ hok
        have hfit : ¬ c.remaining < w := fun hshort => by simp [curRead_short hshort] at hread
        have hlen : w ≤ c.rest.length := by
          unfold Cursor.remaining at hfit
          split at hfit <;> omega
        simp only [curRead, if_neg hfit, List.length_drop] at hrest ⊢
        omega
    · next hstop =>
        rw [if_neg hstop]
        have hend : ¬ i + w ≤ len := fun hle => hstop ⟨hle, fun h => (by cases h)⟩
        dsimp only
        omega

/-- The lists of a ClientHello whose length may be wrong. -/
inductive HelloList
  | ciphers
  | extensions
  | groups
  | sigAlgs
  | pointFormats
  | versions
deriving DecidableEq

/-- The extension that holds a list, and the size of the list's length. -/
def HelloList.extension : HelloList → Option (Nat × Nat)
  | .ciphers | .extensions => none
  | .groups => some (0x000a, 2)
  | .sigAlgs => some (0x000d, 2)
  | .pointFormats => some (0x000b, 1)
  | .versions => some (0x002b, 1)

/-- A ClientHello in which the length of this list exceeds the bytes available to it. -/
inductive Overruns : HelloList → Str8 → Prop
  | ciphers (h : HelloHead) {n : Nat} {rest : Str8} (hn : n < 2 ^ 16) (hlong : rest.length < n) :
      Overruns .ciphers (be 2 h.legacyVersion.toNat ++ (h.random ++ (HelloExtension.wire8 h.sessionId ++
        (be 2 n ++ rest))))
  | extensions (h : HelloHead) {n : Nat} {rest : Str8} (hn : n < 2 ^ 16) (hlong : rest.length < n) :
      Overruns .extensions (h.encode ++ (be 2 n ++ rest))
  | inner (h : HelloHead) {list : HelloList} {type w total n : Nat} {before : List HelloExtension} {rest after : Str8}
      (hlist : list.extension = some (type, w)) (hn : n < 256 ^ w) (hlong : rest.length < n)
      (hdata : w + rest.length < 2 ^ 16) :
      Overruns list (h.encode ++ (be 2 total ++ (before.flatMap HelloExtension.encode ++ (be 2 type ++
        (be 2 (w + rest.length) ++ (be w n ++ rest ++ after))))))

/-- A cipher list that is too long leaves nothing for the compression methods. -/
theorem parseChHead_ciphers {h : HelloHead} {info : ClientHelloInfo} {rest : Str8} (hn : n < 2 ^ 16)
    (hlong : rest.length < n) :
    (parseChHead info ⟨be 2 h.legacyVersion.toNat ++ (h.random ++ (HelloExtension.wire8 h.sessionId ++
      (be 2 n ++ rest))), true⟩).2.ok = false := by
  have hsid : h.sessionId.length < 2 ^ 8 := Nat.lt_succ_of_le h.sessionId_length
  rw [← Bool.not_eq_true]
  intro hok
  simp only [parseChHead, HelloExtension.wire8, List.append_assoc, bind_run, pure_run,
    curU16_be h.legacyVersion.toNat_lt, curSkip_append h.random_length, curU8_be hsid, curSkip_append rfl,
    curU16_be hn] at hok
  have hcomp := (curSkip_steady _).ok _ hok
  have hloop := (curRead_steady 1).ok _ hcomp
  have hlen := readLoop_length hn (by decide) (by omega) hloop
  generalize (readLoop UInt16.ofNat 2 16 ja4MaxCiphers n false n 0 info.cipherSuites ⟨rest, true⟩).2 = c at *
  have hfit : ¬ c.remaining < 1 := fun hshort => by simp [curU8, curRead_short hshort] at hcomp
  rw [Cursor.remaining, if_pos hloop] at hfit
  dsimp only at hlen
  omega

theorem Overruns.ok_iff {list : HelloList} {body : Str8} (h : Overruns list body) {info : ClientHelloInfo}
    (hinfo : info.cipherSuites = []) : (parseChBody info ⟨body, true⟩).ok = false ↔ list = .ciphers := by
  rw [parseChBody_ok]
  cases h with
  | ciphers h hn hlong => simp [parseChHead_ciphers hn hlong]
  | extensions h hn hlong => simp [parseChHead_encode h info hinfo]
  | inner h hlist hn hlong hdata =>
    have hne : list ≠ .ciphers := by
      rintro rfl
      cases hlist
    simp [parseChHead_encode h info hinfo, hne]

theorem parseHello_cut (h : ClientHello) (transport : UInt8) (k : Nat) :
    (parseHello { transport := transport } ⟨(handshakeMessage h.encode).take k, true⟩).ok = false ↔
      k < 4 + h.toHelloHead.encode.length := by
  have hpos : 4 ≤ h.toHelloHead.encode.length := by
    simp [HelloHead.encode, h.random_length]
    omega
  have htake := parseChBody_take h.toHelloHead { transport := transport } rfl
    (be 2 (h.extensions.flatMap HelloExtension.encode).length ++ h.extensions.flatMap HelloExtension.encode)
  have hnil : (parseChBody { transport := transport } ⟨[], true⟩).ok = false := by
    have hzero := htake 0
    rw [List.take_zero] at hzero
    rw [← Bool.not_eq_true, hzero]
    omega
  rw [parseHello_take rfl h.encode_lt hnil, ← Bool.not_eq_true, ClientHello.encode, htake]
  omega

/-- **Which malformed ClientHellos are rejected**: those cut off before the extensions, and those whose cipher list is
    too long. -/
theorem malformed_hello_rejected_iff (h : ClientHello) (version : UInt16) (k : Nat) (list : HelloList) (body : Str8) :
    ((ja4ParseHandshake ((handshakeMessage h.encode).take k)).ok = false ↔ k < 4 + h.toHelloHead.encode.length) ∧
    ((handshakeMessage h.encode).length < 2 ^ 16 →
      ((ja4ParseRecord ((tlsRecord version (handshakeMessage h.encode)).take k)).ok = false ↔
        k < 9 + h.toHelloHead.encode.length)) ∧
    (Overruns list body →
      (body.length < 2 ^ 24 → ((ja4ParseHandshake (handshakeMessage body)).ok = false ↔ list = .ciphers)) ∧
      ((handshakeMessage body).length < 2 ^ 16 →
        ((ja4ParseRecord (tlsRecord version (handshakeMessage body))).ok = false ↔ list = .ciphers))) := by
  refine ⟨parseHello_cut h 113 k, fun hfits => ?_, fun hover => ⟨fun hlen => ?_, fun hfits => ?_⟩⟩
  · rw [ja4ParseRecord_take version hfits, parseHello_cut]
    omega
  · rw [ja4ParseHandshake, parseHello_message hlen]
    exact hover.ok_iff rfl
  · have hlen : body.length < 2 ^ 24 := by
      simp only [handshakeMessage, List.length_append, ByteMem.be_length] at hfits
      omega
    rw [ja4ParseRecord_tlsRecord version hfits, parseHello_message hlen]
    exact hover.ok_iff rfl

/-- Without its last byte the group list is cut off, and the message is accepted with a group 0 that was never sent. -/
theorem malformed_hello_accepted :
    (ja4ParseHandshake (handshakeMessage smallHello.encode).dropLast).ok = true ∧
      (ja4ParseHandshake (handshakeMessage smallHello.encode).dropLast).supportedGroups = [0] := by
  decide +kernel

end HolyTls

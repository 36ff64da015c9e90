import HolyTls.Base.Str8

/-!
# `Tls.Ja4` — JA3 and JA4 fingerprints (`src/tls/ja4.c`)

`ja4Compute` turns a parsed ClientHello into its fingerprints; SHA-256, MD5 and the C library's sort are
parameters. JA4 reads the ciphers and the extensions only through the sorted list of those that are not
GREASE, and the versions only through the largest one, so it sees neither their order nor GREASE
(`ja4_ignores_order`).
-/

namespace HolyTls

/-- `ClientHelloInfo`. The counted arrays are lists. -/
structure ClientHelloInfo where
  ok : Bool := false
  transport : UInt8
  legacyVersion : UInt16 := 0
  cipherSuites : List UInt16 := []
  extensions : List UInt16 := []
  supportedGroups : List UInt16 := []
  ecPointFormats : List UInt8 := []
  supportedVersions : List UInt16 := []
  sigAlgs : List UInt16 := []
  hasSni : Bool := false
  alpnFirst : Str8 := []
deriving DecidableEq, Repr

/-- `Fingerprints`. -/
structure Fingerprints where
  ja4 : Str8
  ja4R : Str8
  ja3 : Str8
  ja3Str : Str8

/-- `ja4_is_grease`. -/
def ja4IsGrease (v : UInt16) : Bool := v &&& 0x0f0f == 0x0a0a && v >>> 8 == v &&& 0xff

/-- `filter_grease_u16`. -/
def filterGrease (vs : List UInt16) : List UInt16 := vs.filter fun v => !ja4IsGrease v

/-- `join_hex`: four hex digits for each value, separated by commas. -/
def joinHex (vs : List UInt16) : Str8 :=
  (lit ",").intercalate (vs.map fun (x : UInt16) => [hexDigitLower (x >>> 12).toUInt8, hexDigitLower (x >>> 8).toUInt8,
    hexDigitLower (x >>> 4).toUInt8, hexDigitLower x.toUInt8])

/-- `join_dec_u16` and `join_dec_u8`. -/
def joinDec (fill : Nat → UInt8) (vs : List Nat) : Str8 := str8ListJoin fill (vs.map decimal) (lit "-")

/-- The version loop: the largest version that is not GREASE, at least the legacy one. -/
def ja4Version (legacy : UInt16) (versions : List UInt16) : UInt16 :=
  versions.foldl (fun ver v => if !ja4IsGrease v && v > ver then v else ver) legacy

def ja4VersionText (ver : UInt16) : Str8 :=
  if ver = 0x0304 then lit "13"
  else if ver = 0x0303 then lit "12"
  else if ver = 0x0302 then lit "11"
  else if ver = 0x0301 then lit "10"
  else if ver = 0x0300 then lit "s3"
  else lit "00"

/-- `%02llu` of a count, which is cut off at 99. -/
def ja4Count (n : Nat) : Str8 :=
  List.replicate (2 - (decimal (min n 99)).length) 48 ++ decimal (min n 99)

section

variable (sha256 md5 : Str8 → Str8) (sort : List UInt16 → List UInt16) (fill : Nat → UInt8)

/-- `ja4_sha256_hex`: the first hex digits of the digest. -/
def ja4Sha256Hex (s : Str8) (hexChars : Nat) : Str8 :=
  (List.range (min hexChars 64)).map fun i =>
    let b := (sha256 s).getD (i / 2) 0
    hexDigitLower (if i % 2 = 1 then b &&& 15 else b >>> 4)

/-- `md5_hex`. -/
def md5Hex (s : Str8) : Str8 := (md5 s).flatMap fun (b : UInt8) => [hexDigitLower (b >>> 4), hexDigitLower b]

/-- `ja4_compute`. -/
def ja4Compute (hello : ClientHelloInfo) : Fingerprints :=
  let ciphers := filterGrease hello.cipherSuites
  let extsAll := filterGrease hello.extensions
  let sigs := filterGrease hello.sigAlgs
  let groups := filterGrease hello.supportedGroups
  let vs := ja4VersionText (ja4Version hello.legacyVersion hello.supportedVersions)
  let counts := ja4Count ciphers.length ++ ja4Count extsAll.length
  let alpn2 := if hello.alpnFirst = [] then lit "00" else [hello.alpnFirst.headD 0, hello.alpnFirst.getLastD 0]
  let ja4A := hello.transport :: vs ++ lit (if hello.hasSni then "d" else "i") ++ counts ++ fmtS alpn2
  let bRaw := joinHex (sort ciphers)
  let ja4B := if ciphers = [] then lit "000000000000" else ja4Sha256Hex sha256 bRaw 12
  -- without the server name and ALPN, whose types say nothing about the client
  let extsC := extsAll.filter fun e => e != 0x0000 && e != 0x0010
  let cRaw := fmtS (joinHex (sort extsC)) ++ lit "_" ++ fmtS (joinHex sigs)
  let ja4C := ja4Sha256Hex sha256 cRaw 12
  let ja3Str := decimal hello.legacyVersion.toNat ++ lit "," ++ fmtS (joinDec fill (ciphers.map (·.toNat))) ++
    lit "," ++ fmtS (joinDec fill (extsAll.map (·.toNat))) ++ lit "," ++
    fmtS (joinDec fill (groups.map (·.toNat))) ++ lit "," ++ fmtS (joinDec fill (hello.ecPointFormats.map (·.toNat)))
  { ja4 := fmtS ja4A ++ lit "_" ++ fmtS ja4B ++ lit "_" ++ fmtS ja4C
    ja4R := fmtS ja4A ++ lit "_" ++ fmtS bRaw ++ lit "_" ++ fmtS cRaw
    ja3 := md5Hex md5 ja3Str
    ja3Str := ja3Str }

end

/-! ## Order and GREASE -/

theorem ja4Version_spec (legacy : UInt16) (versions : List UInt16) :
    ja4Version legacy versions ∈ legacy :: filterGrease versions ∧
      ∀ v ∈ legacy :: filterGrease versions, v ≤ ja4Version legacy versions := by
  induction versions generalizing legacy with
  | nil => simp [ja4Version, filterGrease]
  | cons x versions ih =>
    cases hg : ja4IsGrease x with
    | true =>
      have hfilter : filterGrease (x :: versions) = filterGrease versions := List.filter_cons_of_neg (by simp [hg])
      have hstep : ja4Version legacy (x :: versions) = ja4Version legacy versions := by simp [ja4Version, hg]
      rw [hstep, hfilter]
      exact ih legacy
    | false =>
      have hfilter : filterGrease (x :: versions) = x :: filterGrease versions := List.filter_cons_of_pos (by simp [hg])
      have hstep : ja4Version legacy (x :: versions) = ja4Version (if x > legacy then x else legacy) versions := by
        simp [ja4Version, hg]
      rw [hstep, hfilter]
      obtain ⟨hmem, hle⟩ := ih (if x > legacy then x else legacy)
      split at hmem
      · next hgt =>
          rw [if_pos hgt] at hle ⊢
          have hx := hle x List.mem_cons_self
          exact ⟨List.mem_cons_of_mem legacy hmem,
            List.forall_mem_cons.mpr ⟨UInt16.le_trans (UInt16.le_of_lt hgt) hx, hle⟩⟩
      · next hngt =>
          rw [if_neg hngt] at hle ⊢
          obtain ⟨hlegacy, hrest⟩ := List.forall_mem_cons.mp hle
          have hx := UInt16.le_trans (UInt16.not_lt.mp hngt) hlegacy
          refine ⟨?_, List.forall_mem_cons.mpr ⟨hlegacy, List.forall_mem_cons.mpr ⟨hx, hrest⟩⟩⟩
          rcases List.mem_cons.mp hmem with heq | hmem
          · rw [heq]
            exact List.mem_cons_self
          · exact List.mem_cons_of_mem _ (List.mem_cons_of_mem _ hmem)

/-- Two lists with the same members have the same largest one. -/
theorem ja4Version_congr {legacy : UInt16} {a b : List UInt16}
    (h : ∀ v, v ∈ filterGrease a ↔ v ∈ filterGrease b) : ja4Version legacy a = ja4Version legacy b := by
  obtain ⟨hamem, hale⟩ := ja4Version_spec legacy a
  obtain ⟨hbmem, hble⟩ := ja4Version_spec legacy b
  simp only [List.mem_cons, h] at hamem hale hbmem hble
  exact UInt16.le_antisymm (hble _ hamem) (hale _ hbmem)

/-- A sort gives one result for all orders of the same values. -/
theorem sort_eq_of_perm {sort : List UInt16 → List UInt16}
    (hsort : ∀ l, (sort l).Perm l ∧ (sort l).Pairwise (· ≤ ·)) {a b : List UInt16} (h : a.Perm b) :
    sort a = sort b := by
  have hperm : (sort a).Perm (sort b) := (hsort a).1.trans (h.trans (hsort b).1.symm)
  exact hperm.eq_of_pairwise (fun x y _ _ => UInt16.le_antisymm) (hsort a).2 (hsort b).2

/-- **JA4 ignores order and GREASE where it must.** -/
theorem ja4_ignores_order (sha256 md5 : Str8 → Str8) {sort : List UInt16 → List UInt16}
    (hsort : ∀ l, (sort l).Perm l ∧ (sort l).Pairwise (· ≤ ·)) (fill : Nat → UInt8) {a b : ClientHelloInfo}
    (hciphers : (filterGrease a.cipherSuites).Perm (filterGrease b.cipherSuites))
    (hexts : (filterGrease a.extensions).Perm (filterGrease b.extensions))
    (hsigs : filterGrease a.sigAlgs = filterGrease b.sigAlgs) (htransport : a.transport = b.transport)
    (hsni : a.hasSni = b.hasSni) (halpn : a.alpnFirst = b.alpnFirst) (hlegacy : a.legacyVersion = b.legacyVersion)
    (hversions : ∀ v, v ∈ filterGrease a.supportedVersions ↔ v ∈ filterGrease b.supportedVersions) :
    (ja4Compute sha256 md5 sort fill a).ja4 = (ja4Compute sha256 md5 sort fill b).ja4 ∧
      (ja4Compute sha256 md5 sort fill a).ja4R = (ja4Compute sha256 md5 sort fill b).ja4R := by
  have hempty : filterGrease a.cipherSuites = [] ↔ filterGrease b.cipherSuites = [] :=
    ⟨fun h => (h ▸ hciphers).symm.eq_nil, fun h => (h ▸ hciphers).eq_nil⟩
  simp only [ja4Compute, hciphers.length_eq, hexts.length_eq, hsigs, htransport, hsni, halpn, hlegacy, hempty,
    ja4Version_congr hversions, sort_eq_of_perm hsort hciphers, sort_eq_of_perm hsort (hexts.filter _), and_self]

def sortU16 (l : List UInt16) : List UInt16 := l.mergeSort fun a b => decide (a ≤ b)

theorem sortU16_sorts (l : List UInt16) : (sortU16 l).Perm l ∧ (sortU16 l).Pairwise (· ≤ ·) := by
  have hsorted : (sortU16 l).Pairwise fun a b => decide (a ≤ b) = true :=
    List.pairwise_mergeSort
      (fun a b c hab hbc => by simpa using UInt16.le_trans (by simpa using hab) (by simpa using hbc))
      (fun a b => by simpa using UInt16.le_total a b) l
  exact ⟨List.mergeSort_perm l _, hsorted.imp fun h => by simpa using h⟩

/-- Two hellos of one client: other GREASE values, and the ciphers and extensions in another order. -/
theorem ja4_ignores_order_greased :
    (ja4Compute id id sortU16 (fun _ => 0)
      { transport := 116, cipherSuites := [0x0a0a, 0x1301, 0x1302], extensions := [0x1a1a, 10, 0] }).ja4R =
    (ja4Compute id id sortU16 (fun _ => 0)
      { transport := 116, cipherSuites := [0x1302, 0x1301, 0xfafa], extensions := [0, 10] }).ja4R :=
  (ja4_ignores_order id id sortU16_sorts (fun _ => 0)
    (a := { transport := 116, cipherSuites := [0x0a0a, 0x1301, 0x1302], extensions := [0x1a1a, 10, 0] })
    (b := { transport := 116, cipherSuites := [0x1302, 0x1301, 0xfafa], extensions := [0, 10] })
    (by decide +kernel) (by decide +kernel) rfl rfl rfl rfl rfl (fun _ => Iff.rfl)).2

end HolyTls

import HolyTls.Base.Str8
import HolyTls.Lib.OrdMap

/-!
# `Core.AltSvc` — what a client knows of HTTP/3 (`src/core/alt_svc.c`, `src/core/client.c`)

`alt_svc_parse` looks for three texts in an `Alt-Svc` value, `client_note_alt_svc` remembers the values that
advertise h3, one entry for each origin, and `client_h3_available` asks for an entry that has not expired.

What the cache is for is said in terms of the history alone (`Known`): the latest value that an origin sent
decides. The cache holds something else, the latest value that *advertised* h3 (`Cached`), with an expiry
computed in 64 bits; `client_h3_available_iff` says when the two come to the same.
-/

namespace HolyTls

/-- `AltSvcInfo`. -/
structure AltSvcInfo where
  h3 : Bool := false
  maSeconds : Nat := 86400
deriving DecidableEq

/-- `alt_svc_parse`. -/
def altSvcParse (s : Str8) : AltSvcInfo :=
  if str8Contains s (lit "clear") then {}
  else
    let h3 := str8Contains s (lit "h3=") || str8Contains s (lit "h3-")
    match str8Find s (lit "ma=") with
    | none => { h3 := h3 }
    | some p =>
      let after := str8Skip s (p + 3)
      if after.head?.any charIsDigit then { h3 := h3, maSeconds := (str8ChopU64 after).1 }
      else { h3 := h3 }

/-- `AltSvcEntry`: what was copied into the array `origin`, up to its terminating NUL. -/
structure AltSvcEntry where
  origin : Str8
  h3 : Bool
  expiryMs : Nat
deriving DecidableEq

/-- `str8_cstring(e->origin)`. -/
def AltSvcEntry.key (e : AltSvcEntry) : Str8 := fmtS e.origin

/-- `ArrayCount(c->alt_svc)`. -/
def altSvcMax : Nat := 32

/-- The entry closest to expiry, the first of several. -/
def closestToExpiry (cache : List AltSvcEntry) : Nat :=
  (List.range cache.length).foldl
    (fun b i => if (cache[i]?.map (·.expiryMs)).getD 0 < (cache[b]?.map (·.expiryMs)).getD 0 then i else b) 0

/-- `client_note_alt_svc`, at the time `now`. -/
def clientNoteAltSvc (now : Nat) (cache : List AltSvcEntry) (origin value : Str8) : List AltSvcEntry :=
  let info := altSvcParse value
  if info.h3 = false then cache
  else
    let expiry := (now + info.maSeconds * 1000 % 2 ^ 64) % 2 ^ 64
    match cache.findIdx? (fun e => str8Match origin e.key) with
    | some i => cache.modify i (fun e => { e with h3 := true, expiryMs := expiry })
    | none   =>
      let e := { origin := origin.take 255, h3 := true, expiryMs := expiry }
      if cache.length < altSvcMax then cache ++ [e] else cache.set (closestToExpiry cache) e

/-- `client_h3_available`, at the time `now`. -/
def clientH3Available (now : Nat) (cache : List AltSvcEntry) (origin : Str8) : Bool :=
  match cache.find? (fun e => e.h3 && str8Match origin e.key) with
  | some e => now < e.expiryMs
  | none => false

/-! ## Histories -/

/-- A key `host:port` as `origin_of` prints it, so without NUL, that fits into an entry. -/
@[ext]
structure OriginKey where
  text : Str8
  short : text.length ≤ 255
  plain : fmtS text = text
deriving DecidableEq

/-- A value that was noted. -/
structure AltSvcNote where
  time : Nat
  origin : OriginKey
  value : Str8
deriving DecidableEq

/-- The cache after a history of values. -/
def altSvcRun (notes : List AltSvcNote) : List AltSvcEntry :=
  notes.foldl (fun cache n => clientNoteAltSvc n.time cache n.origin.text n.value) []

/-- The value advertises h3, or a draft of it. `clear` takes back what stands with it. -/
def Advertises (value : Str8) : Prop :=
  ¬ lit "clear" <:+: value ∧ (lit "h3=" <:+: value ∨ lit "h3-" <:+: value)

instance (value : Str8) : Decidable (Advertises value) := inferInstanceAs (Decidable (_ ∧ _))

/-- The `ma` parameter of a value: the number after the first `ma=`. -/
def maParam (value : Str8) : Nat :=
  match value.tails.find? (lit "ma=").isPrefixOf with
  | none => 86400
  | some t =>
    let digits := (t.drop 3).takeWhile charIsDigit
    if digits = [] then 86400 else digitsValue digits 0

/-- The latest value that an origin sent. -/
def latest (notes : List AltSvcNote) (o : OriginKey) : Option AltSvcNote :=
  (notes.filter (·.origin = o)).getLast?

/-- The latest value of an origin that advertised h3. -/
def lastAdvert (notes : List AltSvcNote) (o : OriginKey) : Option AltSvcNote :=
  (notes.filter (fun n => n.origin = o ∧ Advertises n.value)).getLast?

/-- HTTP/3 is known to be available: the latest value says so (`clear` does not), and has not expired. -/
def Known (notes : List AltSvcNote) (o : OriginKey) (t : Nat) : Prop :=
  ∃ n, latest notes o = some n ∧ Advertises n.value ∧ t < n.time + 1000 * maParam n.value

/-- When an entry expires, in 64-bit arithmetic. -/
def AltSvcNote.expiry (n : AltSvcNote) : Nat := (n.time + 1000 * min (maParam n.value) u64Max) % 2 ^ 64

/-! ## The text scan -/

section

variable {notes : List AltSvcNote} {cache : List AltSvcEntry} {n m : AltSvcNote} {o : OriginKey}
  {value : Str8} {t : Nat}

theorem altSvcParse_h3 (value : Str8) : (altSvcParse value).h3 = decide (Advertises value) := by
  rw [Bool.eq_iff_iff, decide_eq_true_eq]
  unfold altSvcParse Advertises
  rw [← str8Contains_iff, ← str8Contains_iff, ← str8Contains_iff]
  split
  · next hclear => exact ⟨fun h => (by cases h), fun h => absurd hclear h.1⟩
  · next hclear =>
      have hscan : (str8Contains value (lit "h3=") || str8Contains value (lit "h3-")) = true ↔
          ¬ str8Contains value (lit "clear") = true ∧
            (str8Contains value (lit "h3=") = true ∨ str8Contains value (lit "h3-") = true) := by
        rw [Bool.or_eq_true]
        exact ⟨fun h => ⟨hclear, h⟩, And.right⟩
      dsimp only
      split
      · exact hscan
      · split <;> exact hscan

/-- A search among the ends of a text is a search for the position where the end starts. -/
theorem find?_tails (p : Str8 → Bool) (s : Str8) : s.tails.find? p = (s.tails.findIdx? p).map s.drop := by
  induction s with
  | nil =>
    change [([] : Str8)].find? p = ([([] : Str8)].findIdx? p).map _
    rw [List.find?_singleton, List.findIdx?_singleton]
    split <;> rfl
  | cons a s ih =>
    rw [List.tails_cons, List.find?_cons, List.findIdx?_cons]
    cases hp : p (a :: s) with
    | true => rfl
    | false =>
      dsimp only
      rw [ih]
      cases s.tails.findIdx? p <;> rfl

theorem takeWhile_eq_nil_iff_head? (p : UInt8 → Bool) (s : Str8) : s.takeWhile p = [] ↔ ¬ s.head?.any p = true := by
  cases s with
  | nil => simp
  | cons a s => cases hp : p a <;> simp [hp]

theorem altSvcParse_ma (h : Advertises value) : (altSvcParse value).maSeconds = min (maParam value) u64Max := by
  have hclear : ¬ str8Contains value (lit "clear") = true := fun hc => h.1 (str8Contains_iff.mp hc)
  unfold altSvcParse maParam
  rw [if_neg hclear, find?_tails]
  dsimp only
  change _ = min (match (str8Find value (lit "ma=")).map value.drop with | none => 86400 | some t => _) _
  cases str8Find value (lit "ma=") with
  | none => rfl
  | some p =>
    rw [Option.map_some]
    dsimp only
    rw [List.drop_drop]
    change _ = min (if (str8Skip value (p + 3)).takeWhile charIsDigit = [] then _ else _) _
    by_cases hd : (str8Skip value (p + 3)).head?.any charIsDigit = true
    · rw [if_pos hd, if_neg (fun hnil => (takeWhile_eq_nil_iff_head? _ _).mp hnil hd), str8ChopU64_fst]
      rfl
    · rw [if_neg hd, if_pos ((takeWhile_eq_nil_iff_head? _ _).mpr hd)]
      rfl

/-! ## What the cache holds -/

/-- The entry that a value leaves. -/
def AltSvcNote.entry (n : AltSvcNote) : AltSvcEntry := { origin := n.origin.text, h3 := true, expiryMs := n.expiry }

/-- The cache holds the latest advertisement of each origin. -/
structure Cached (notes : List AltSvcNote) (cache : List AltSvcEntry) : Prop where
  nodup : (cache.map AltSvcEntry.key).Nodup
  mem : ∀ e, e ∈ cache ↔ ∃ n, lastAdvert notes n.origin = some n ∧ e = n.entry

theorem key_entry (n : AltSvcNote) : n.entry.key = n.origin.text := n.origin.plain

theorem getLast?_filter_snoc {α : Type} (p : α → Bool) (l : List α) (a : α) :
    ((l ++ [a]).filter p).getLast? = if p a = true then some a else (l.filter p).getLast? := by
  rw [List.filter_append]
  by_cases h : p a = true
  · rw [if_pos h, List.filter_cons_of_pos h, List.filter_nil, List.getLast?_concat]
  · rw [if_neg h, List.filter_cons_of_neg h, List.filter_nil, List.append_nil]

theorem lastAdvert_snoc : lastAdvert (notes ++ [n]) o =
    if n.origin = o ∧ Advertises n.value then some n else lastAdvert notes o := by
  unfold lastAdvert
  rw [getLast?_filter_snoc]
  simp only [decide_eq_true_eq]

theorem mem_of_lastAdvert (h : lastAdvert notes o = some n) : n ∈ notes ∧ n.origin = o := by
  have hmem := List.mem_filter.mp (List.mem_of_getLast? h)
  exact ⟨hmem.1, (of_decide_eq_true hmem.2).1⟩

/-- A value that advertises h3 is written under its origin. -/
theorem clientNoteAltSvc_put (hc : Cached notes cache) (hn : Advertises n.value)
    (hfew : n.origin.text ∉ cache.map AltSvcEntry.key → cache.length < altSvcMax) :
    clientNoteAltSvc n.time cache n.origin.text n.value = OrdMap.upsert AltSvcEntry.key n.entry cache := by
  have hh3 : (altSvcParse n.value).h3 = true := by rw [altSvcParse_h3, decide_eq_true hn]
  have hexp : (n.time + (altSvcParse n.value).maSeconds * 1000 % 2 ^ 64) % 2 ^ 64 = n.expiry := by
    rw [altSvcParse_ma hn, Nat.add_mod_mod, Nat.mul_comm, AltSvcNote.expiry]
  have hkey : ∀ e : AltSvcEntry, str8Match n.origin.text e.key = true ↔ e.key = n.entry.key := by
    intro e
    rw [key_entry, str8Match, beq_iff_eq, eq_comm]
  unfold clientNoteAltSvc
  rw [if_neg (by rw [hh3]; decide)]
  dsimp only
  rw [hexp]
  cases hfind : cache.findIdx? (fun e => str8Match n.origin.text e.key) with
  | none =>
    have hnot : n.entry.key ∉ cache.map AltSvcEntry.key := OrdMap.not_mem_of_findIdx?_eq_none hkey hfind
    dsimp only
    rw [if_pos (hfew (key_entry n ▸ hnot)), OrdMap.upsert_of_not_mem hnot, List.take_of_length_le n.origin.short]
    rfl
  | some i =>
    dsimp only
    rw [← OrdMap.set_eq_upsert hkey hfind]
    obtain ⟨hi, hp, -⟩ := List.findIdx?_eq_some_iff_getElem.mp hfind
    -- the entry found there is one of the same origin
    obtain ⟨m, -, heq⟩ := (hc.mem _).mp (List.getElem_mem hi)
    have horigin : m.origin.text = n.origin.text := by
      rw [← key_entry m, ← heq, (hkey _).mp hp, key_entry]
    rw [List.modify_eq_set_getElem?, List.getElem?_eq_getElem hi, heq]
    change cache.set i { origin := m.origin.text, h3 := true, expiryMs := n.expiry } = _
    rw [horigin]
    rfl

/-- **One value.** The cache goes on holding the latest advertisements. -/
theorem Cached.note (hc : Cached notes cache)
    (hfew : n.origin.text ∉ cache.map AltSvcEntry.key → cache.length < altSvcMax) :
    Cached (notes ++ [n]) (clientNoteAltSvc n.time cache n.origin.text n.value) := by
  by_cases hn : Advertises n.value
  · rw [clientNoteAltSvc_put hc hn hfew]
    refine ⟨OrdMap.nodup_upsert hc.nodup, fun e => ?_⟩
    have hput := OrdMap.mem_put (m := ⟨cache, hc.nodup⟩) (a := n.entry) (b := e)
    refine hput.trans ?_
    constructor
    · rintro (rfl | ⟨hmem, hne⟩)
      · exact ⟨n, by rw [lastAdvert_snoc, if_pos ⟨rfl, hn⟩], rfl⟩
      · obtain ⟨m, hm, rfl⟩ := (hc.mem e).mp hmem
        refine ⟨m, ?_, rfl⟩
        rw [lastAdvert_snoc, if_neg]
        · exact hm
        · rintro ⟨horigin, -⟩
          exact hne (by rw [key_entry, key_entry, horigin])
    · rintro ⟨m, hm, rfl⟩
      rw [lastAdvert_snoc] at hm
      split at hm
      · cases hm
        exact .inl rfl
      · next hne =>
          refine .inr ⟨(hc.mem _).mpr ⟨m, hm, rfl⟩, fun hkey => hne ⟨?_, hn⟩⟩
          rw [key_entry, key_entry] at hkey
          exact OriginKey.ext hkey.symm
  · have hh3 : (altSvcParse n.value).h3 = false := by rw [altSvcParse_h3, decide_eq_false hn]
    unfold clientNoteAltSvc
    rw [if_pos hh3]
    refine ⟨hc.nodup, fun e => (hc.mem e).trans ?_⟩
    have hsame : ∀ m, lastAdvert (notes ++ [n]) m = lastAdvert notes m := by
      intro m
      rw [lastAdvert_snoc, if_neg (fun h => hn h.2)]
    simp only [hsame]

/-- The number of origins in a history. -/
def originCount (notes : List AltSvcNote) : Nat := (notes.map (·.origin.text)).dedup.length

theorem le_originCount {l : List Str8} (hl : l.Nodup) (hsub : ∀ k ∈ l, ∃ n ∈ notes, n.origin.text = k) :
    l.length ≤ originCount notes := by
  refine (hl.subperm fun k hk => ?_).length_le
  obtain ⟨n, hn, rfl⟩ := hsub k hk
  exact List.mem_dedup.mpr (List.mem_map_of_mem hn)

theorem originCount_le_snoc (notes : List AltSvcNote) (n : AltSvcNote) :
    originCount notes ≤ originCount (notes ++ [n]) := by
  refine le_originCount (List.nodup_dedup _) fun k hk => ?_
  obtain ⟨m, hm, rfl⟩ := List.mem_map.mp (List.mem_dedup.mp hk)
  exact ⟨m, List.mem_append_left _ hm, rfl⟩

/-- An origin that is new finds a free entry. -/
theorem Cached.room (hc : Cached notes cache) (hfew : originCount (notes ++ [n]) ≤ altSvcMax)
    (hnew : n.origin.text ∉ cache.map AltSvcEntry.key) : cache.length < altSvcMax := by
  have hle : (n.origin.text :: cache.map AltSvcEntry.key).length ≤ originCount (notes ++ [n]) := by
    refine le_originCount (List.nodup_cons.mpr ⟨hnew, hc.nodup⟩) fun k hk => ?_
    rcases List.mem_cons.mp hk with rfl | hk
    · exact ⟨n, List.mem_append_right _ List.mem_cons_self, rfl⟩
    · obtain ⟨e, he, rfl⟩ := List.mem_map.mp hk
      obtain ⟨m, hm, rfl⟩ := (hc.mem e).mp he
      exact ⟨m, List.mem_append_left _ (mem_of_lastAdvert hm).1, (key_entry m).symm⟩
  rw [List.length_cons, List.length_map] at hle
  exact hle.trans hfew

/-- **Every history** of no more origins than the cache has entries. -/
theorem cached_altSvcRun (hfew : originCount notes ≤ altSvcMax) : Cached notes (altSvcRun notes) := by
  induction notes using List.reverseRecOn with
  | nil => exact ⟨List.nodup_nil, fun e => ⟨fun h => (by cases h), fun ⟨n, h, _⟩ => (by cases h)⟩⟩
  | append_singleton notes n ih =>
    have hc := ih ((originCount_le_snoc notes n).trans hfew)
    rw [altSvcRun, List.foldl_append]
    exact hc.note (hc.room hfew)

/-! ## What is known -/

/-- The cache tells the latest advertisement, until it expires. -/
theorem clientH3Available_iff (hc : Cached notes cache) (t : Nat) (o : OriginKey) :
    clientH3Available t cache o.text = true ↔ ∃ n, lastAdvert notes o = some n ∧ t < n.expiry := by
  have hmatch : ∀ m : AltSvcNote, (m.entry.h3 && str8Match o.text m.entry.key) = true ↔ m.origin = o := by
    intro m
    rw [key_entry, str8Match, Bool.and_eq_true, beq_iff_eq]
    constructor
    · rintro ⟨-, htext⟩
      exact OriginKey.ext htext.symm
    · rintro rfl
      exact ⟨rfl, rfl⟩
  unfold clientH3Available
  cases hfind : cache.find? (fun e => e.h3 && str8Match o.text e.key) with
  | none =>
    constructor
    · intro h
      cases h
    rintro ⟨n, hn, -⟩
    have horigin := (mem_of_lastAdvert hn).2
    have hmem : n.entry ∈ cache := (hc.mem _).mpr ⟨n, by rw [horigin]; exact hn, rfl⟩
    exact absurd ((hmatch n).mpr horigin) (List.find?_eq_none.mp hfind _ hmem)
  | some e =>
    obtain ⟨m, hm, rfl⟩ := (hc.mem e).mp (List.mem_of_find?_eq_some hfind)
    have hfound := List.find?_some hfind
    have horigin := (hmatch m).mp hfound
    rw [horigin] at hm
    dsimp only
    rw [decide_eq_true_eq]
    constructor
    · exact fun h => ⟨m, hm, h⟩
    · rintro ⟨n, hn, h⟩
      rw [hm] at hn
      cases hn
      exact h

theorem lastAdvert_of_latest (h : latest notes o = some n) (hn : Advertises n.value) : lastAdvert notes o = some n := by
  induction notes using List.reverseRecOn with
  | nil => cases h
  | append_singleton notes m ih =>
    unfold latest at h
    rw [getLast?_filter_snoc] at h
    rw [lastAdvert_snoc]
    split at h
    · next hm =>
        cases h
        rw [if_pos ⟨of_decide_eq_true hm, hn⟩]
    · next hm =>
        rw [if_neg (fun hboth => hm (decide_eq_true hboth.1))]
        exact ih h

theorem latest_of_lastAdvert (h : lastAdvert notes o = some m) : ∃ n, latest notes o = some n := by
  obtain ⟨hmem, horigin⟩ := mem_of_lastAdvert h
  have hin : m ∈ notes.filter (·.origin = o) := List.mem_filter.mpr ⟨hmem, decide_eq_true horigin⟩
  exact ⟨_, List.getLast?_eq_getLast_of_ne_nil (List.ne_nil_of_mem hin)⟩

/-- An advertisement that fits into 64 bits expires when it says. -/
theorem expiry_of_lt (h : n.time + 1000 * maParam n.value < 2 ^ 64) : n.expiry = n.time + 1000 * maParam n.value := by
  have hma : min (maParam n.value) u64Max = maParam n.value := by
    unfold u64Max
    omega
  rw [AltSvcNote.expiry, hma, Nat.mod_eq_of_lt h]

/-- The cache keeps up with an origin: its latest value advertises h3, for a time that fits into 64 bits, or
    it does not, and the advertisement before it had expired already. -/
structure KeepsUp (notes : List AltSvcNote) (o : OriginKey) : Prop where
  fits : ∀ n, latest notes o = some n → Advertises n.value → n.time + 1000 * maParam n.value < 2 ^ 64
  expired : ∀ n m, latest notes o = some n → ¬ Advertises n.value → lastAdvert notes o = some m →
    ∃ k ∈ notes, m.expiry ≤ k.time

/-- **`client_h3_available` reflects the latest value of an origin**, at all times after the history, exactly
    when the cache keeps up with it. -/
theorem client_h3_available_iff (notes : List AltSvcNote) (o : OriginKey) (hfew : originCount notes ≤ altSvcMax)
    (htime : ∀ n ∈ notes, n.time < 2 ^ 64) :
    (∀ t, (∀ n ∈ notes, n.time ≤ t) → t < 2 ^ 64 →
      (clientH3Available t (altSvcRun notes) o.text = true ↔ Known notes o t)) ↔ KeepsUp notes o := by
  have hc := cached_altSvcRun hfew
  constructor
  · intro hall
    refine ⟨fun n hn hadv => ?_, fun n m hn hadv hm => ?_⟩
    · -- at the end of time, what the value says and what the entry says differ
      by_contra hlong
      have hlast : ∀ k ∈ notes, k.time ≤ 2 ^ 64 - 1 := fun k hk => Nat.le_sub_one_of_lt (htime k hk)
      have hknown : Known notes o (2 ^ 64 - 1) := ⟨n, hn, hadv, by omega⟩
      obtain ⟨m, -, hlt⟩ := (clientH3Available_iff hc _ o).mp ((hall _ hlast (by omega)).mpr hknown)
      have hmod : m.expiry < 2 ^ 64 := Nat.mod_lt _ (by decide)
      omega
    · -- the latest time of the history
      have hne : notes.map (·.time) ≠ [] := by
        intro hnil
        rw [List.map_eq_nil_iff.mp hnil] at hn
        cases hn
      obtain ⟨k, hk, hmax⟩ := List.mem_map.mp (List.max_mem hne)
      have hlast : ∀ j ∈ notes, j.time ≤ k.time := by
        intro j hj
        rw [hmax]
        exact List.le_max_of_mem (List.mem_map_of_mem hj)
      refine ⟨k, hk, Nat.le_of_not_lt fun hlt => ?_⟩
      obtain ⟨n', hn', hadv', -⟩ := (hall _ hlast (htime k hk)).mp ((clientH3Available_iff hc _ o).mpr ⟨m, hm, hlt⟩)
      rw [hn] at hn'
      cases hn'
      exact hadv hadv'
  · rintro ⟨hfits, hexpired⟩ t hlast -
    rw [clientH3Available_iff hc]
    constructor
    · rintro ⟨m, hm, hlt⟩
      obtain ⟨n, hn⟩ := latest_of_lastAdvert hm
      by_cases hadv : Advertises n.value
      · have heq : n = m := Option.some_inj.mp ((lastAdvert_of_latest hn hadv).symm.trans hm)
        subst heq
        rw [expiry_of_lt (hfits n hn hadv)] at hlt
        exact ⟨n, hn, hadv, hlt⟩
      · obtain ⟨k, hk, hle⟩ := hexpired n m hn hadv hm
        exact absurd (hle.trans (hlast k hk)) (Nat.not_le_of_lt hlt)
    · rintro ⟨n, hn, hadv, hlt⟩
      refine ⟨n, lastAdvert_of_latest hn hadv, ?_⟩
      rw [expiry_of_lt (hfits n hn hadv)]
      exact hlt

end

/-- The key of a site. -/
def siteKey : OriginKey := ⟨lit "a:443", by decide, by decide⟩

/-- h3 is advertised for five seconds, taken back, and advertised again. -/
def renewedNotes : List AltSvcNote :=
  [⟨1000, siteKey, lit "h3=\":443\"; ma=5"⟩, ⟨7000, siteKey, lit "clear"⟩, ⟨8000, siteKey, lit "h3-29=\":443\""⟩]

theorem client_h3_available_renewed :
    originCount renewedNotes ≤ altSvcMax ∧ (∀ n ∈ renewedNotes, n.time < 2 ^ 64) ∧
      clientH3Available 9000 (altSvcRun renewedNotes) siteKey.text = true ∧
      ∀ t, (∀ n ∈ renewedNotes, n.time ≤ t) → t < 2 ^ 64 →
        (clientH3Available t (altSvcRun renewedNotes) siteKey.text = true ↔ Known renewedNotes siteKey t) := by
  have hfew : originCount renewedNotes ≤ altSvcMax := by decide
  have htime : ∀ n ∈ renewedNotes, n.time < 2 ^ 64 := by decide
  refine ⟨hfew, htime, by decide +kernel, (client_h3_available_iff renewedNotes siteKey hfew htime).mpr ⟨?_, ?_⟩⟩
  · intro n hn _
    cases hn
    decide +kernel
  · intro n m hn hadv _
    cases hn
    exact absurd (by decide +kernel) hadv

/-- h3 is advertised for a day, and taken back a second later. -/
def revokedNotes : List AltSvcNote := [⟨1000, siteKey, lit "h3=\":443\""⟩, ⟨2000, siteKey, lit "clear"⟩]

theorem clear_does_not_revoke :
    originCount revokedNotes ≤ altSvcMax ∧ (∀ n ∈ revokedNotes, n.time ≤ 3000) ∧
      ¬ (clientH3Available 3000 (altSvcRun revokedNotes) siteKey.text = true ↔ Known revokedNotes siteKey 3000) := by
  refine ⟨by decide, by decide, ?_⟩
  have hcode : clientH3Available 3000 (altSvcRun revokedNotes) siteKey.text = true := by decide +kernel
  intro h
  obtain ⟨n, hn, hadv, -⟩ := h.mp hcode
  cases hn
  exact hadv.1 List.infix_rfl

end HolyTls

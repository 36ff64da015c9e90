import HolyTls.Core.Redirect
import HolyTls.Lib.Uri

/-!
# `Core.UrlResolve` — where a resolved reference points

`url_resolve` writes a URL out of pieces of the base and the reference, and `url_parse` reads it back. The
first half describes an accepted URL by its text (`urlParse_text`, `urlParse_of_text`): scheme, raw
authority, and what follows. The second parse of a resolved reference cuts at the same places, so the
origin of the base is kept.

The second half compares the target of a redirect with the one RFC 3986 gives. Both put the base's scheme
and authority in front of a path; they differ in the authority when the base carries userinfo, and in the
path when the reference is only a query or a fragment.
-/

namespace HolyTls

variable {https : Bool} {auth base ref s z : Str8}

/-! ## The text of an accepted URL -/

theorem splitScheme_some {u t : Str8} (h : splitScheme u = some (s, t)) : u = s ++ 58 :: 47 :: 47 :: t := by
  induction u using splitScheme.induct generalizing s t with
  | case1 rest =>
    obtain ⟨rfl, rfl⟩ : [] = s ∧ rest = t := by simpa [splitScheme] using h
    rfl
  | case2 c rest hsep ih =>
    rw [splitScheme] at h
    · obtain ⟨p, hp, heq⟩ := Option.map_eq_some_iff.mp h
      cases heq
      rw [ih hp]
      rfl
    · exact hsep
  | case3 => simp [splitScheme] at h

theorem schemeHttps_alpha (h : schemeHttps s = some https) : s ≠ [] ∧ ∀ b ∈ s, charIsAlpha b = true := by
  have hlower : lower s = lit "https" ∨ lower s = lit "http" := by
    unfold schemeHttps at h
    split at h
    · next hs => exact .inl (str8MatchCi_iff.mp hs)
    · split at h
      · next hs => exact .inr (str8MatchCi_iff.mp hs)
      · cases h
  constructor
  · rintro rfl
    rcases hlower with h | h <;> exact absurd h (by decide)
  · intro b hb
    have hmem : charToLower b ∈ lower s := List.mem_map_of_mem hb
    rw [← charIsAlpha_charToLower]
    rcases hlower with h | h <;> rw [h] at hmem
    · exact List.all_eq_true.mp (by decide : (lit "https").all charIsAlpha = true) _ hmem
    · exact List.all_eq_true.mp (by decide : (lit "http").all charIsAlpha = true) _ hmem

/-- An accepted URL by its text: `tail` is the path with its query, `frag` the fragment. -/
structure AcceptedUrl where
  https : Bool
  scheme : Str8
  rawAuth : Str8
  tail : Str8
  frag : Str8
  host : Str8
  port : Nat
  schemed : schemeHttps scheme = some https
  authBytes : ∀ b ∈ rawAuth, authorityByte b = true
  tailHead : ∀ b ∈ tail.head?, inAuthority b = false
  tailBytes : ∀ b ∈ tail, b ≠ 35 ∧ badPathByte b = false
  fragHead : ∀ b ∈ frag.head?, b = 35
  splits : splitHostPort (stripUserinfo rawAuth) (if https then 443 else 80) = some (host, port)
  hosted : host ≠ []

namespace AcceptedUrl

/-- The URL. -/
def text (t : AcceptedUrl) : Str8 := t.scheme ++ 58 :: 47 :: 47 :: (t.rawAuth ++ (t.tail ++ t.frag))

/-- What `url_parse` returns for it. -/
def parsed (t : AcceptedUrl) : ParsedUrl :=
  { ok := true, https := t.https, scheme := t.scheme, host := t.host, authority := stripUserinfo t.rawAuth
    path := if t.tail.isEmpty then lit "/" else t.tail, port := t.port }

end AcceptedUrl

/-- The cuts that `url_parse` makes after the scheme. -/
theorem cuts_of_bytes {tail frag : Str8} (hauth : ∀ b ∈ auth, authorityByte b = true)
    (htail : ∀ b ∈ tail.head?, inAuthority b = false) (hbytes : ∀ b ∈ tail, b ≠ 35)
    (hfrag : ∀ b ∈ frag.head?, b = 35) :
    ((auth ++ (tail ++ frag)).takeWhile (· != 35)).takeWhile inAuthority = auth ∧
      ((auth ++ (tail ++ frag)).takeWhile (· != 35)).dropWhile inAuthority = tail := by
  have hbefore : ∀ b ∈ auth ++ tail, (b != 35) = true := by
    intro b hb
    rcases List.mem_append.mp hb with h | h
    · have hbyte := hauth b h
      simp only [authorityByte, Bool.and_eq_true] at hbyte
      exact hbyte.1.2
    · exact bne_iff_ne.mpr (hbytes b h)
  have hcut := (takeWhile_append_stop hbefore (t := frag) (fun b hb => by simp [hfrag b hb])).1
  rw [← List.append_assoc, hcut]
  refine takeWhile_append_stop (fun b hb => ?_) htail
  have hbyte := hauth b hb
  simp only [authorityByte, Bool.and_eq_true] at hbyte
  exact hbyte.1.1

/-- The record after the scheme test, for a URL cut into authority, path and fragment. -/
theorem urlParseAuthority_cut {r : ParsedUrl} {tail frag : Str8} (hauth : ∀ b ∈ auth, authorityByte b = true)
    (htail : ∀ b ∈ tail.head?, inAuthority b = false) (hbytes : ∀ b ∈ tail, b ≠ 35 ∧ badPathByte b = false)
    (hfrag : ∀ b ∈ frag.head?, b = 35) {host : Str8} {port : Nat} (hhost : host ≠ [])
    (hsplit : splitHostPort (stripUserinfo auth) (if r.https then 443 else 80) = some (host, port)) :
    urlParseAuthority r (auth ++ (tail ++ frag)) =
      { r with authority := stripUserinfo auth, host := host, port := port, ok := true
               path := if tail.isEmpty then lit "/" else tail } := by
  obtain ⟨hcutAuth, hcutTail⟩ := cuts_of_bytes hauth htail (fun b hb => (hbytes b hb).1) hfrag
  have hgoodAuth : auth.any badAuthorityByte = false := by
    rw [List.any_eq_false]
    intro b hb
    have hbyte := hauth b hb
    simp only [authorityByte, Bool.and_eq_true, Bool.not_eq_true'] at hbyte
    simp [hbyte.2]
  have hgoodTail : tail.any badPathByte = false := by
    rw [List.any_eq_false]
    intro b hb
    simp [(hbytes b hb).2]
  have hne : host.isEmpty = false := by simpa using hhost
  simp only [urlParseAuthority, hcutAuth, hcutTail, hgoodAuth, hgoodTail, hsplit, hne, Bool.false_eq_true, if_false]

theorem not_colon_mem_scheme (h : schemeHttps s = some https) : 58 ∉ s := by
  intro hmem
  exact absurd ((schemeHttps_alpha h).2 58 hmem) (by decide)

theorem urlParse_of_scheme (h : schemeHttps s = some https) (rest : Str8) :
    urlParse (s ++ 58 :: 47 :: 47 :: rest) = urlParseAuthority { scheme := s, https := https } rest := by
  have hsplit : splitScheme (s ++ 58 :: 47 :: 47 :: rest) = some (s, rest) := by
    rw [← @splitScheme_append s rest (not_colon_mem_scheme h), List.append_assoc]
    rfl
  simp only [urlParse, hsplit, h]

theorem AcceptedUrl.urlParse_text (t : AcceptedUrl) : urlParse t.text = t.parsed := by
  rw [AcceptedUrl.text, urlParse_of_scheme t.schemed,
    urlParseAuthority_cut t.authBytes t.tailHead t.tailBytes t.fragHead t.hosted t.splits]
  rfl

/-- The cuts of an accepted URL, with what the source tested about them. -/
theorem urlParseAuthority_inv {r : ParsedUrl} {rest : Str8} (hr : r.ok = false)
    (h : (urlParseAuthority r rest).ok = true) :
    ((rest.takeWhile (· != 35)).takeWhile inAuthority).any badAuthorityByte = false ∧
      ((rest.takeWhile (· != 35)).dropWhile inAuthority).any badPathByte = false ∧
      ∃ host port, host ≠ [] ∧
        splitHostPort (stripUserinfo ((rest.takeWhile (· != 35)).takeWhile inAuthority))
          (if r.https then 443 else 80) = some (host, port) := by
  simp only [urlParseAuthority] at h
  split at h
  · rw [hr] at h; cases h
  · next hauth =>
      split at h
      · rw [hr] at h; cases h
      · next htail =>
          split at h
          · rw [hr] at h; cases h
          · next host port hsplit =>
              split at h
              · rw [hr] at h; cases h
              · next hhost => exact ⟨by simpa using hauth, by simpa using htail,
                  host, port, by simpa using hhost, hsplit⟩

theorem head_dropWhile_imp {p : UInt8 → Bool} : ∀ b ∈ (s.dropWhile p).head?, p b = false := by
  intro b hb
  have hstop := List.head?_dropWhile_not p s
  rwa [Option.mem_def.mp hb] at hstop

/-- Every URL that `url_parse` accepts is such a text. -/
theorem urlParse_inv {u : Str8} (h : (urlParse u).ok = true) : ∃ t : AcceptedUrl, t.text = u := by
  cases hs : splitScheme u with
  | none => simp [urlParse, hs] at h
  | some p =>
    obtain ⟨scheme, rest⟩ := p
    cases hh : schemeHttps scheme with
    | none => simp [urlParse, hs, hh] at h
    | some https =>
      simp only [urlParse, hs, hh] at h
      obtain ⟨hauth, htail, host, port, hhost, hsplit⟩ := urlParseAuthority_inv rfl h
      rw [List.any_eq_false] at hauth htail
      let before := rest.takeWhile (· != 35)
      have hfrag : ∀ b ∈ before, b ≠ 35 := fun b hb =>
        bne_iff_ne.mp (List.mem_takeWhile_imp (p := (· != 35)) hb)
      refine ⟨{ https := https, scheme := scheme, rawAuth := before.takeWhile inAuthority
                tail := before.dropWhile inAuthority, frag := rest.dropWhile (· != 35)
                host := host, port := port, schemed := hh, hosted := hhost, splits := hsplit
                authBytes := ?_, tailHead := head_dropWhile_imp, tailBytes := ?_, fragHead := ?_ }, ?_⟩
      · intro b hb
        have hmem : b ∈ before := (List.takeWhile_sublist _).subset hb
        have hgood : badAuthorityByte b = false := by simpa using hauth b hb
        simp [authorityByte, List.mem_takeWhile_imp hb, hgood, hfrag b hmem]
      · intro b hb
        exact ⟨hfrag b ((List.dropWhile_sublist _).subset hb), by simpa using htail b hb⟩
      · intro b hb
        simpa using head_dropWhile_imp b hb
      · rw [AcceptedUrl.text, ← List.append_assoc (before.takeWhile inAuthority), List.takeWhile_append_dropWhile,
          List.takeWhile_append_dropWhile]
        exact (splitScheme_some hs).symm

/-! ## A reference never leaves the origin of its base -/

theorem stripUserinfo_eq_self_iff : stripUserinfo auth = auth ↔ 64 ∉ auth := by
  constructor
  · intro h
    rw [← h]
    exact at_not_mem_stripUserinfo auth
  · exact stripUserinfo_eq_self

theorem stripUserinfo_idem (auth : Str8) : stripUserinfo (stripUserinfo auth) = stripUserinfo auth :=
  stripUserinfo_eq_self (at_not_mem_stripUserinfo auth)

theorem stripUserinfo_bytes (h : ∀ b ∈ auth, authorityByte b = true) :
    ∀ b ∈ stripUserinfo auth, authorityByte b = true :=
  fun b hb => h b (mem_of_mem_stripUserinfo hb)

/-- The part of a path before its query, as `url_resolve` cuts it. -/
def basePath (path : Str8) : Str8 :=
  match str8IndexOf path 63 with
  | some q => str8Prefix path q
  | none => path

/-- The directory that a relative reference is appended to, without its last slash. -/
def baseDir (path : Str8) : Str8 := str8ChopLastSlash (basePath path)

/-- What `url_resolve` writes after the authority for a reference that stays with the base. -/
def resolvedTail (path ref : Str8) : Str8 :=
  if str8StartsWith ref (lit "/") then fmtS ref else fmtS (baseDir path) ++ lit "/" ++ fmtS ref

theorem urlResolve_same (hbase : (urlParse base).ok = true) (href : (urlParse ref).ok = false)
    (hnet : str8StartsWith ref (lit "//") = false) :
    urlResolve base ref = fmtS (urlParse base).scheme ++ lit "://" ++
      (fmtS (urlParse base).authority ++ resolvedTail (urlParse base).path ref) := by
  simp only [urlResolve, href, hbase, hnet, resolvedTail, baseDir, basePath,
    Bool.false_eq_true, if_false, Bool.not_true]
  cases str8IndexOf (urlParse base).path 63 <;> split <;> simp only [List.append_assoc]

theorem basePath_eq (path : Str8) : basePath path = path.takeWhile (· != 63) := by
  unfold basePath
  split
  · next q hq => exact (str8IndexOf_cut hq).2.2.1.symm
  · next hnone => exact (takeWhile_of_not_mem (str8IndexOf_eq_none.mp hnone)).symm

theorem str8ChopLastSlash_isPrefix (s : Str8) : str8ChopLastSlash s <+: s := by
  unfold str8ChopLastSlash
  split
  · exact List.take_prefix _ _
  · exact List.prefix_rfl

theorem head_of_isPrefix {t : Str8} (h : s <+: t) : ∀ b ∈ s.head?, b ∈ t.head? := by
  obtain ⟨r, rfl⟩ := h
  intro b hb
  cases s with
  | nil => simp at hb
  | cons c s => exact hb

theorem AcceptedUrl.path_head (t : AcceptedUrl) : ∀ b ∈ t.parsed.path.head?, b = 47 ∨ b = 63 := by
  intro b hb
  cases htail : t.tail with
  | nil =>
    have hpath : t.parsed.path = [47] := by simp only [AcceptedUrl.parsed, htail]; rfl
    rw [hpath] at hb
    exact .inl (Option.some.inj hb).symm
  | cons c tail =>
    have hpath : t.parsed.path = t.tail := by simp [AcceptedUrl.parsed, htail]
    rw [hpath] at hb
    have hstop := t.tailHead b hb
    simp only [inAuthority, Bool.and_eq_false_iff, bne_eq_false_iff_eq] at hstop
    exact hstop

theorem AcceptedUrl.baseDir_head (t : AcceptedUrl) : ∀ b ∈ (baseDir t.parsed.path).head?, b = 47 := by
  intro b hb
  have hmem := head_of_isPrefix (str8ChopLastSlash_isPrefix _) b hb
  rw [basePath_eq] at hmem
  have hne : b ≠ 63 := bne_iff_ne.mp (List.mem_takeWhile_imp (p := (· != 63)) (List.mem_of_head? hmem))
  rcases t.path_head b (head_of_isPrefix (List.takeWhile_prefix _) b hmem) with h | h
  · exact h
  · exact absurd h hne

theorem fmtS_cons {c : UInt8} (h : c ≠ 0) (s : Str8) : fmtS (c :: s) = c :: fmtS s := by
  simp [fmtS, h]

/-- What follows the authority starts with `/`, whatever the reference is. -/
theorem AcceptedUrl.resolvedTail_head (t : AcceptedUrl) (ref : Str8) :
    (resolvedTail t.parsed.path ref).head? = some 47 := by
  unfold resolvedTail
  split
  · next hslash =>
      obtain ⟨rest, rfl⟩ := List.isPrefixOf_iff_prefix.mp hslash
      rfl
  · cases hdir : baseDir t.parsed.path with
    | nil => rfl
    | cons c dir =>
      obtain rfl : c = 47 := t.baseDir_head c (by rw [hdir]; rfl)
      rw [fmtS_cons (by decide)]
      rfl

theorem AcceptedUrl.fmtS_scheme (t : AcceptedUrl) : fmtS t.scheme = t.scheme := by
  apply fmtS_eq_self
  rintro b hb rfl
  exact absurd ((schemeHttps_alpha t.schemed).2 0 hb) (by decide)

theorem AcceptedUrl.fmtS_authority (t : AcceptedUrl) : fmtS (stripUserinfo t.rawAuth) = stripUserinfo t.rawAuth := by
  apply fmtS_eq_self
  rintro b hb rfl
  exact absurd (stripUserinfo_bytes t.authBytes 0 hb) (by decide)

/-- The URL that a reference which stays with the base resolves to. -/
theorem AcceptedUrl.urlResolve_text (t : AcceptedUrl) (href : (urlParse ref).ok = false)
    (hnet : str8StartsWith ref (lit "//") = false) :
    urlResolve t.text ref =
      t.scheme ++ 58 :: 47 :: 47 :: (stripUserinfo t.rawAuth ++ resolvedTail t.parsed.path ref) := by
  have hok : (urlParse t.text).ok = true := by rw [t.urlParse_text]; rfl
  rw [urlResolve_same hok href hnet, t.urlParse_text, AcceptedUrl.parsed, t.fmtS_scheme, t.fmtS_authority,
    List.append_assoc]
  rfl

theorem tail_cut (hz : z.head? = some 47) :
    (∀ b ∈ (z.takeWhile (· != 35)).head?, inAuthority b = false) ∧ (∀ b ∈ z.takeWhile (· != 35), b ≠ 35) ∧
      ∀ b ∈ (z.dropWhile (· != 35)).head?, b = 35 := by
  refine ⟨?_, fun b hb => bne_iff_ne.mp (List.mem_takeWhile_imp (p := (· != 35)) hb), ?_⟩
  · intro b hb
    have hmem := head_of_isPrefix (List.takeWhile_prefix _) b hb
    obtain rfl : 47 = b := Option.some.inj (hz.symm.trans hmem)
    rfl
  · intro b hb
    simpa using head_dropWhile_imp b hb

/-- The URL with the base's scheme, host and port and with `z` after the authority. -/
def AcceptedUrl.withTail (t : AcceptedUrl) (z : Str8) (hz : z.head? = some 47)
    (hgood : ∀ b ∈ z.takeWhile (· != 35), badPathByte b = false) : AcceptedUrl :=
  { t with rawAuth := stripUserinfo t.rawAuth, tail := z.takeWhile (· != 35), frag := z.dropWhile (· != 35)
           authBytes := stripUserinfo_bytes t.authBytes, tailHead := (tail_cut hz).1
           tailBytes := fun b hb => ⟨(tail_cut hz).2.1 b hb, hgood b hb⟩, fragHead := (tail_cut hz).2.2
           splits := by rw [stripUserinfo_idem]; exact t.splits }

theorem AcceptedUrl.withTail_text (t : AcceptedUrl) (hz : z.head? = some 47)
    (hgood : ∀ b ∈ z.takeWhile (· != 35), badPathByte b = false) :
    (t.withTail z hz hgood).text = t.scheme ++ 58 :: 47 :: 47 :: (stripUserinfo t.rawAuth ++ z) := by
  simp only [AcceptedUrl.text, AcceptedUrl.withTail, List.takeWhile_append_dropWhile]

/-- A URL with `z` after the authority of the base is accepted only if `z` is clean. -/
theorem AcceptedUrl.clean_of_ok (t : AcceptedUrl) (hz : z.head? = some 47)
    (hok : (urlParse (t.scheme ++ 58 :: 47 :: 47 :: (stripUserinfo t.rawAuth ++ z))).ok = true) :
    ∀ b ∈ z.takeWhile (· != 35), badPathByte b = false := by
  obtain ⟨htail, hbytes, hfrag⟩ := tail_cut hz
  have hcut := (cuts_of_bytes (stripUserinfo_bytes t.authBytes) htail hbytes hfrag).2
  rw [List.takeWhile_append_dropWhile] at hcut
  rw [urlParse_of_scheme t.schemed] at hok
  obtain ⟨-, hgood, -⟩ := urlParseAuthority_inv rfl hok
  rw [hcut, List.any_eq_false] at hgood
  intro b hb
  simpa using hgood b hb

/-- **A reference that is not a URL of its own keeps the origin of the base**, unless it names a host with
    `//`. The bounds are the ones within which `%.*s` prints a whole view. -/
theorem resolve_same_origin {base ref : Str8} (hbase : (urlParse base).ok = true)
    (_hbaseSize : base.length < 2 ^ 30) (_hrefSize : ref.length < 2 ^ 30) (href : (urlParse ref).ok = false)
    (hnet : str8StartsWith ref (lit "//") = false) (hok : (urlParse (urlResolve base ref)).ok = true) :
    (urlParse (urlResolve base ref)).https = (urlParse base).https ∧
      (urlParse (urlResolve base ref)).host = (urlParse base).host ∧
      (urlParse (urlResolve base ref)).port = (urlParse base).port := by
  obtain ⟨t, rfl⟩ := urlParse_inv hbase
  rw [t.urlResolve_text href hnet] at hok ⊢
  have hclean := t.clean_of_ok (t.resolvedTail_head ref) hok
  rw [← t.withTail_text (t.resolvedTail_head ref) hclean, AcceptedUrl.urlParse_text, t.urlParse_text]
  exact ⟨rfl, rfl, rfl⟩

/-- A reference that looks like userinfo and another host stays a path. -/
theorem resolve_same_origin_at :
    (urlParse (urlResolve (lit "https://a.test:8443/x?y") (lit "@evil.test://z"))).host = lit "a.test" ∧
      (urlParse (urlResolve (lit "https://a.test:8443/x?y") (lit "@evil.test://z"))).port = 8443 := by
  have horigin := @resolve_same_origin (lit "https://a.test:8443/x?y") (lit "@evil.test://z")
    (by decide) (by decide) (by decide) (by decide) (by decide) (by decide)
  exact ⟨horigin.2.1, horigin.2.2⟩

/-! ## The target after RFC 3986 -/

theorem isSchemeChar_of_alpha {b : UInt8} (h : charIsAlpha b = true) : Uri.isSchemeChar b = true := by
  have halpha : Uri.isAlpha b = true := h
  simp [Uri.isSchemeChar, halpha]

theorem schemeHttps_head (h : schemeHttps s = some https) : s.head?.any Uri.isAlpha = true := by
  obtain ⟨hne, halpha⟩ := schemeHttps_alpha h
  cases s with
  | nil => exact absurd rfl hne
  | cons c s => exact halpha c List.mem_cons_self

theorem authorityByte_ne {b : UInt8} (h : authorityByte b = true) : b ≠ 35 ∧ b ≠ 47 ∧ b ≠ 63 := by
  refine ⟨?_, ?_, ?_⟩ <;> rintro rfl <;> exact absurd h (by decide)

theorem AcceptedUrl.dropFragment_tail (t : AcceptedUrl) : Uri.dropFragment (t.tail ++ t.frag) = t.tail := by
  have hall : ∀ b ∈ t.tail, (b != 35) = true := fun b hb => bne_iff_ne.mpr (t.tailBytes b hb).1
  exact (takeWhile_append_stop hall (fun b hb => by simp [t.fragHead b hb])).1

theorem AcceptedUrl.ref_parse (t : AcceptedUrl) :
    Uri.Ref.parse t.text =
      { scheme := some t.scheme, authority := some t.rawAuth
        path := (Uri.cutQuery t.tail).1, query := (Uri.cutQuery t.tail).2 } := by
  have hhead : ∀ b ∈ (t.tail ++ t.frag).head?, b = 35 ∨ b = 47 ∨ b = 63 := by
    intro b hb
    cases htail : t.tail with
    | nil =>
      rw [htail] at hb
      exact .inl (t.fragHead b hb)
    | cons c tail =>
      rw [htail] at hb
      have hstop := t.tailHead b (by rw [htail]; exact hb)
      simp only [inAuthority, Bool.and_eq_false_iff, bne_eq_false_iff_eq] at hstop
      exact .inr hstop
  rw [AcceptedUrl.text, Uri.Ref.parse_absolute (fun b hb => isSchemeChar_of_alpha
        ((schemeHttps_alpha t.schemed).2 b hb))
    (schemeHttps_head t.schemed) (fun b hb => authorityByte_ne (t.authBytes b hb)) hhead, t.dropFragment_tail]

theorem str8ChopLastSlash_slash (h : 47 ∈ s) : str8ChopLastSlash s ++ [47] = s.rdropWhile (· != 47) := by
  obtain ⟨post, pre, hrev, hpost⟩ := List.eq_append_cons_of_mem (List.mem_reverse.mpr h)
  have hs : s = pre.reverse ++ 47 :: post.reverse := by
    rw [← List.reverse_reverse s, hrev]
    simp
  have hstop : (post ++ 47 :: pre).dropWhile (· != 47) = 47 :: pre :=
    (takeWhile_append_stop (p := (· != 47)) (s := post) (t := 47 :: pre)
      (fun b hb => bne_iff_ne.mpr fun hc => hpost (hc ▸ hb)) (by simp)).2
  have hchop : str8ChopLastSlash s = pre.reverse := by
    rw [hs, str8ChopLastSlash, str8RindexOf_append (by simpa using hpost)]
    simp [str8Prefix]
  rw [hchop, List.rdropWhile, hrev, hstop, List.reverse_cons]

/-- The directory of the base is the one that RFC 3986 merges a relative path with. -/
theorem AcceptedUrl.baseDir_merge (t : AcceptedUrl) (x : Str8) :
    baseDir t.parsed.path ++ 47 :: x = Uri.merge (Uri.Ref.parse t.text) x := by
  rw [t.ref_parse, Uri.merge]
  cases htail : t.tail with
  | nil =>
    have hpath : t.parsed.path = [47] := by simp only [AcceptedUrl.parsed, htail]; rfl
    rw [hpath]
    rfl
  | cons c tail =>
    have hpath : t.parsed.path = c :: tail := by simp [AcceptedUrl.parsed, htail]
    have hc : c = 47 ∨ c = 63 := t.path_head c (by rw [hpath]; rfl)
    rw [hpath, baseDir, basePath_eq]
    rcases hc with rfl | rfl
    · have hchop := str8ChopLastSlash_slash (s := (47 :: tail).takeWhile (· != 63)) (by simp)
      rw [if_neg (by simp [Uri.cutQuery]), List.append_cons _ 47 x, hchop]
      rfl
    · rfl

/-- `redirect_prepare_hop` was asked to follow `ref` from `base`, and went to `next`: what RFC 3986 asks of
    it, up to fragments. -/
def FollowsRfc (base ref next : Str8) : Prop :=
  Uri.dropFragment next = Uri.target base ref ∧
    ∀ scheme, (Uri.Ref.parse ref).scheme = some scheme → lower scheme = lit "https" ∧ (urlParse ref).ok = true

/-- The references for which writing them after the base's directory is right. -/
def Appendable (base ref : Str8) : Prop :=
  (Uri.Ref.parse ref).scheme = none ∧ (∀ auth ∈ (Uri.Ref.parse base).authority, 64 ∉ auth) ∧
    (ref.head? = some 63 ∨ ref.head? = some 35 → (Uri.Ref.parse base).path.getLast? = some 47) ∧
    (ref.head? = some 35 → (Uri.Ref.parse base).query = none)

/-- A URL of its own is used as it is. -/
theorem followsRfc_absolute (hok : (urlParse ref).ok = true) (hhttps : (urlParse ref).https = true) :
    FollowsRfc base ref ref := by
  obtain ⟨t, rfl⟩ := urlParse_inv hok
  have htarget : Uri.target base t.text = Uri.dropFragment t.text := by
    rw [Uri.target, Uri.resolve, if_pos (by rw [t.ref_parse]; rfl), Uri.Ref.text_parse]
  refine ⟨htarget.symm, ?_⟩
  intro scheme hscheme
  rw [t.ref_parse] at hscheme
  obtain rfl : t.scheme = scheme := Option.some.inj hscheme
  rw [t.urlParse_text] at hhttps
  have hsch : schemeHttps t.scheme = some true := by rw [t.schemed]; exact congrArg some hhttps
  refine ⟨?_, hok⟩
  unfold schemeHttps at hsch
  split at hsch
  · next hs => exact str8MatchCi_iff.mp hs
  · split at hsch <;> cases hsch

/-- A reference that names a host with `//` takes the scheme of the base. -/
theorem AcceptedUrl.followsRfc_network (t : AcceptedUrl) (hnul : ∀ b ∈ ref, b ≠ 0)
    (hok : (urlParse ref).ok = false) (hnet : str8StartsWith ref (lit "//") = true) :
    FollowsRfc t.text ref (urlResolve t.text ref) := by
  have hbase : (urlParse t.text).ok = true := by rw [t.urlParse_text]; rfl
  have hnext : urlResolve t.text ref = (t.scheme ++ [58]) ++ ref := by
    simp only [urlResolve, hok, hbase, hnet, Bool.false_eq_true, Bool.not_true, if_false, if_true]
    rw [t.urlParse_text, AcceptedUrl.parsed, t.fmtS_scheme, fmtS_eq_self hnul]
    rfl
  obtain ⟨rest, rfl⟩ := List.isPrefixOf_iff_prefix.mp hnet
  have hcut : (Uri.cutScheme (Uri.cutQuery (Uri.dropFragment (lit "//" ++ rest))).1).1 = none := rfl
  have hscheme : (Uri.Ref.parse (lit "//" ++ rest)).scheme = none := hcut
  have hauth : (Uri.Ref.parse (lit "//" ++ rest)).authority.isSome = true := rfl
  have htext := Uri.Ref.text_parse (lit "//" ++ rest)
  have htarget : Uri.target t.text (lit "//" ++ rest) = (t.scheme ++ [58]) ++ Uri.dropFragment (lit "//" ++ rest) := by
    rw [Uri.target, Uri.resolve, if_neg (by simp [hscheme]), if_pos hauth, ← htext, t.ref_parse]
    simp only [Uri.Ref.text, hscheme, Uri.schemeText, List.nil_append, List.append_assoc]
  have hhash : 35 ∉ t.scheme ++ [58] := by
    intro hmem
    rcases List.mem_append.mp hmem with h | h
    · exact absurd ((schemeHttps_alpha t.schemed).2 35 h) (by decide)
    · exact absurd h (by decide)
  refine ⟨?_, ?_⟩
  · rw [hnext, htarget, Uri.dropFragment_append hhash]
  · intro scheme hsome
    rw [hscheme] at hsome
    cases hsome

/-- What RFC 3986 puts after the authority of the base for a reference without scheme and authority. -/
def rfcTail (base ref : Str8) : Str8 :=
  if (Uri.cutQuery (Uri.dropFragment ref)).1 = [] then
    (Uri.Ref.parse base).path ++
      (if (Uri.cutQuery (Uri.dropFragment ref)).2.isSome then Uri.dropFragment ref
       else Uri.queryText (Uri.Ref.parse base).query)
  else if ref.head? = some 47 then Uri.dropFragment ref
  else Uri.merge (Uri.Ref.parse base) (Uri.dropFragment ref)

theorem head_of_path (h : (Uri.cutQuery (Uri.dropFragment ref)).1 ≠ []) :
    (Uri.cutQuery (Uri.dropFragment ref)).1.head? = ref.head? := by
  cases hp : (Uri.cutQuery (Uri.dropFragment ref)).1 with
  | nil => exact absurd hp h
  | cons c p =>
    have hpre : (Uri.cutQuery (Uri.dropFragment ref)).1 <+: ref :=
      (List.takeWhile_prefix _).trans (List.takeWhile_prefix _)
    exact (head_of_isPrefix hpre c (by rw [hp]; rfl)).symm

theorem AcceptedUrl.target_relative (t : AcceptedUrl) (hscheme : (Uri.Ref.parse ref).scheme = none)
    (hnet : str8StartsWith ref (lit "//") = false) :
    Uri.target t.text ref = t.scheme ++ 58 :: 47 :: 47 :: (t.rawAuth ++ rfcTail t.text ref) := by
  have hslash : ¬ [47, 47] <+: ref := by
    rw [← List.isPrefixOf_iff_prefix]
    exact Bool.eq_false_iff.mp hnet
  have hparse := Uri.Ref.parse_relative hscheme hslash
  have htext := Uri.cutQuery_text (Uri.dropFragment ref)
  unfold Uri.target Uri.resolve rfcTail
  rw [hparse]
  by_cases hp : (Uri.cutQuery (Uri.dropFragment ref)).1 = []
  · cases hq : (Uri.cutQuery (Uri.dropFragment ref)).2 with
    | none => simp [hp, t.ref_parse, Uri.Ref.text, Uri.schemeText, Uri.authorityText]
    | some q =>
      have hquery : Uri.queryText (some q) = Uri.dropFragment ref := by rw [← htext, hp, hq, List.nil_append]
      simp [hp, t.ref_parse, Uri.Ref.text, Uri.schemeText, Uri.authorityText, hquery]
  · by_cases hhead : ref.head? = some 47
    · simp [hp, hhead, head_of_path hp, t.ref_parse, Uri.Ref.text, Uri.schemeText, Uri.authorityText, htext]
    · have hmerge : ∀ x : Str8, Uri.merge (Uri.Ref.parse t.text) x = baseDir t.parsed.path ++ 47 :: x :=
        fun x => (t.baseDir_merge x).symm
      simp only [hp, hhead, head_of_path hp, hmerge, if_false, Option.isSome_none, Bool.false_eq_true]
      rw [t.ref_parse]
      simp [Uri.Ref.text, Uri.schemeText, Uri.authorityText, htext]

/-- Two authorities and what follows them are cut at the same place. -/
theorem authority_cancel {a a' z' : Str8} (ha : ∀ b ∈ a, authorityByte b = true)
    (ha' : ∀ b ∈ a', authorityByte b = true) (hz : ∀ b ∈ z.head?, inAuthority b = false)
    (hz' : ∀ b ∈ z'.head?, inAuthority b = false) : a ++ z = a' ++ z' ↔ a = a' ∧ z = z' := by
  have hbyte : ∀ b, authorityByte b = true → inAuthority b = true := by
    intro b hb
    simp only [authorityByte, Bool.and_eq_true] at hb
    exact hb.1.1
  have hcut := takeWhile_append_stop (fun b hb => hbyte b (ha b hb)) hz
  have hcut' := takeWhile_append_stop (fun b hb => hbyte b (ha' b hb)) hz'
  constructor
  · intro h
    rw [h] at hcut
    exact ⟨hcut.1.symm.trans hcut'.1, hcut.2.symm.trans hcut'.2⟩
  · rintro ⟨rfl, rfl⟩
    rfl

theorem AcceptedUrl.not_mem_baseDir (t : AcceptedUrl) {c : UInt8} (hc : c = 35 ∨ c = 63 ∨ badPathByte c = true) :
    c ∉ baseDir t.parsed.path := by
  intro hmem
  have hbase := (str8ChopLastSlash_isPrefix _).subset hmem
  rw [basePath_eq] at hbase
  have hpath : c ∈ t.parsed.path := (List.takeWhile_prefix _).subset hbase
  have hne : c ≠ 63 := bne_iff_ne.mp (List.mem_takeWhile_imp (p := (· != 63)) hbase)
  have hgood : c ≠ 35 ∧ badPathByte c = false := by
    cases htail : t.tail with
    | nil =>
      have hslash : t.parsed.path = [47] := by simp only [AcceptedUrl.parsed, htail]; rfl
      rw [hslash, List.mem_singleton] at hpath
      subst hpath
      decide
    | cons b tail =>
      have htext : t.parsed.path = t.tail := by simp [AcceptedUrl.parsed, htail]
      rw [htext] at hpath
      exact t.tailBytes c hpath
  rcases hc with h | h | h
  · exact hgood.1 h
  · exact hne h
  · rw [hgood.2] at h
    cases h

/-- Without a NUL in sight `%.*s` prints everything. -/
theorem AcceptedUrl.resolvedTail_eq (t : AcceptedUrl) (hnul : ∀ b ∈ ref, b ≠ 0) :
    resolvedTail t.parsed.path ref =
      if ref.head? = some 47 then ref else baseDir t.parsed.path ++ 47 :: ref := by
  have hdir : fmtS (baseDir t.parsed.path) = baseDir t.parsed.path := by
    apply fmtS_eq_self
    rintro b hb rfl
    exact t.not_mem_baseDir (.inr (.inr rfl)) hb
  have hslash : str8StartsWith ref (lit "/") = true ↔ ref.head? = some 47 := by
    rw [str8StartsWith, List.isPrefixOf_iff_prefix]
    cases ref with
    | nil => simp [lit]
    | cons c ref => simpa [lit] using eq_comm
  unfold resolvedTail
  rw [hdir, fmtS_eq_self hnul]
  by_cases hhead : ref.head? = some 47
  · rw [if_pos (hslash.mpr hhead), if_pos hhead]
  · rw [if_neg (fun h => hhead (hslash.mp h)), if_neg hhead, List.append_assoc]
    rfl

/-- Merging nothing into a path leaves it when it ends with a slash. -/
theorem merge_nil_eq_iff {b : Uri.Ref} (hauth : b.authority.isSome = true) :
    Uri.merge b [] = b.path ↔ b.path.getLast? = some 47 := by
  unfold Uri.merge
  by_cases hp : b.path = []
  · simp [hauth, hp]
  · rw [if_neg (fun h => hp h.2), List.append_nil, List.rdropWhile_eq_self_iff, List.getLast?_eq_some_getLast hp]
    constructor
    · intro h
      simpa using h hp
    · intro h _
      simpa using h

/-- What the code writes after the authority is what RFC 3986 puts there, for all references but those that
    are only a query or a fragment. -/
theorem AcceptedUrl.tails_agree (t : AcceptedUrl) (hne : ref ≠ []) (hnul : ∀ b ∈ ref, b ≠ 0) :
    Uri.dropFragment (resolvedTail t.parsed.path ref) = rfcTail t.text ref ↔
      (ref.head? = some 63 ∨ ref.head? = some 35 → (Uri.Ref.parse t.text).path.getLast? = some 47) ∧
      (ref.head? = some 35 → (Uri.Ref.parse t.text).query = none) := by
  have hauth : (Uri.Ref.parse t.text).authority.isSome = true := by rw [t.ref_parse]; rfl
  have hdir : Uri.dropFragment (baseDir t.parsed.path ++ 47 :: ref) =
      baseDir t.parsed.path ++ 47 :: Uri.dropFragment ref := by
    rw [Uri.dropFragment_append (t.not_mem_baseDir (.inl rfl))]
    rfl
  have hdirNil : baseDir t.parsed.path ++ [47] = Uri.merge (Uri.Ref.parse t.text) [] := t.baseDir_merge []
  rw [t.resolvedTail_eq hnul]
  obtain ⟨c, rest, rfl⟩ := List.exists_cons_of_ne_nil hne
  unfold rfcTail
  by_cases hslash : c = 47
  · subst hslash
    simp [Uri.dropFragment, Uri.cutQuery]
  · by_cases hquery : c = 63
    · -- only a query: the path of the base has to be its directory
      subst hquery
      have hpath : (Uri.cutQuery (Uri.dropFragment (63 :: rest))).1 = [] := rfl
      have hsome : (Uri.cutQuery (Uri.dropFragment (63 :: rest))).2.isSome = true := rfl
      rw [if_neg (by simp), hdir, if_pos hpath, if_pos hsome, List.append_cons, List.append_left_inj, hdirNil,
        merge_nil_eq_iff hauth]
      simp
    · by_cases hfrag : c = 35
      · -- only a fragment: the base has to be its directory
        subst hfrag
        have hempty : Uri.dropFragment (35 :: rest) = [] := rfl
        have hpath : (Uri.cutQuery []).1 = [] := rfl
        rw [if_neg (by simp), hdir, hempty, if_pos hpath, if_neg (by simp [Uri.cutQuery]), hdirNil]
        cases hq : (Uri.Ref.parse t.text).query with
        | none =>
          rw [Uri.queryText, List.append_nil, merge_nil_eq_iff hauth]
          simp
        | some q =>
          have hmark : 63 ∉ Uri.merge (Uri.Ref.parse t.text) [] := by
            rw [← hdirNil]
            simp [t.not_mem_baseDir (c := 63) (.inr (.inl rfl))]
          constructor
          · intro h
            exact absurd (h ▸ (by simp [Uri.queryText] : (63 : UInt8) ∈ _ ++ Uri.queryText (some q))) hmark
          · intro h
            exact absurd (h.2 rfl) (by simp)
      · have hpath : (Uri.cutQuery (Uri.dropFragment (c :: rest))).1 ≠ [] := by
          simp [Uri.dropFragment, Uri.cutQuery, hquery, hfrag]
        rw [if_neg (by simpa using hslash), hdir, if_neg hpath, if_neg (by simpa using hslash), t.baseDir_merge]
        simp [hquery, hfrag]

theorem head_cutQuery_fst (hs : ∀ b ∈ s.head?, inAuthority b = false) :
    ∀ b ∈ (Uri.cutQuery s).1.head?, inAuthority b = false :=
  fun b hb => hs b (head_of_isPrefix (List.takeWhile_prefix _) b hb)

theorem head_queryText (q : Option Str8) : ∀ b ∈ (Uri.queryText q).head?, inAuthority b = false := by
  intro b hb
  cases q with
  | none => simp [Uri.queryText] at hb
  | some q =>
    obtain rfl : 63 = b := Option.some.inj hb
    rfl

theorem AcceptedUrl.rfcTail_head (t : AcceptedUrl) (ref : Str8) :
    ∀ b ∈ (rfcTail t.text ref).head?, inAuthority b = false := by
  intro b hb
  have htext := Uri.cutQuery_text (Uri.dropFragment ref)
  unfold rfcTail at hb
  split at hb
  · next hpath =>
      rw [List.head?_append, t.ref_parse] at hb
      cases hhead : (Uri.cutQuery t.tail).1.head? with
      | some c =>
        obtain rfl : c = b := by simpa [hhead] using hb
        exact head_cutQuery_fst t.tailHead c hhead
      | none =>
        rw [hhead, Option.none_or] at hb
        split at hb
        · rw [← htext, hpath, List.nil_append] at hb
          exact head_queryText _ b hb
        · exact head_queryText _ b hb
  · split at hb
    · next hslash =>
        obtain rfl : 47 = b := Option.some.inj
          (hslash.symm.trans (head_of_isPrefix (List.takeWhile_prefix _) b hb))
        rfl
    · rw [← t.baseDir_merge] at hb
      cases hdir : baseDir t.parsed.path with
      | nil =>
        obtain rfl : 47 = b := by simpa [hdir] using hb
        rfl
      | cons c dir =>
        obtain rfl : c = b := by simpa [hdir] using hb
        obtain rfl : c = 47 := t.baseDir_head c (by rw [hdir]; rfl)
        rfl

/-- A reference that is written after the base's directory goes where RFC 3986 says exactly if it is
    appendable. -/
theorem AcceptedUrl.followsRfc_relative (t : AcceptedUrl) (hne : ref ≠ []) (hnul : ∀ b ∈ ref, b ≠ 0)
    (hok : (urlParse ref).ok = false) (hnet : str8StartsWith ref (lit "//") = false) :
    FollowsRfc t.text ref (urlResolve t.text ref) ↔ Appendable t.text ref := by
  have hat : (∀ auth ∈ (Uri.Ref.parse t.text).authority, 64 ∉ auth) ↔ stripUserinfo t.rawAuth = t.rawAuth := by
    rw [t.ref_parse, stripUserinfo_eq_self_iff]
    simp
  have hhash : 35 ∉ t.scheme ++ 58 :: 47 :: 47 :: stripUserinfo t.rawAuth := by
    intro hmem
    rcases List.mem_append.mp hmem with h | h
    · exact absurd ((schemeHttps_alpha t.schemed).2 35 h) (by decide)
    · have hbyte := fun hm => (authorityByte_ne (stripUserinfo_bytes t.authBytes 35 hm)).1 rfl
      simp_all
  have hnext : Uri.dropFragment (urlResolve t.text ref)
      = t.scheme ++ 58 :: 47 :: 47 ::
          (stripUserinfo t.rawAuth ++ Uri.dropFragment (resolvedTail t.parsed.path ref)) := by
    have hdrop := Uri.dropFragment_append hhash (resolvedTail t.parsed.path ref)
    rw [t.urlResolve_text hok hnet]
    simpa using hdrop
  cases hscheme : (Uri.Ref.parse ref).scheme with
  | some scheme =>
    -- a foreign or malformed absolute reference is not `url_parse`able, and still it is followed
    constructor
    · intro h
      rw [(h.2 scheme hscheme).2] at hok
      cases hok
    · intro h
      rw [h.1] at hscheme
      cases hscheme
  | none =>
    have hz : ∀ b ∈ (Uri.dropFragment (resolvedTail t.parsed.path ref)).head?, inAuthority b = false :=
      (tail_cut (t.resolvedTail_head ref)).1
    have hsplit := authority_cancel (stripUserinfo_bytes t.authBytes) t.authBytes hz (t.rfcTail_head ref)
    unfold FollowsRfc Appendable
    rw [hnext, t.target_relative hscheme hnet, hat, hscheme, ← t.tails_agree hne hnul]
    simp [hsplit]

/-- A clean reference that stays with the base resolves to a URL of the base's scheme. -/
theorem AcceptedUrl.urlResolve_ok (t : AcceptedUrl) (hclean : ∀ b ∈ ref, badPathByte b = false)
    (hok : (urlParse ref).ok = false) (hnet : str8StartsWith ref (lit "//") = false) :
    (urlParse (urlResolve t.text ref)).ok = true ∧ (urlParse (urlResolve t.text ref)).https = t.https := by
  have hnul : ∀ b ∈ ref, b ≠ 0 := by
    rintro b hb rfl
    exact absurd (hclean 0 hb) (by decide)
  have hgood : ∀ b ∈ (resolvedTail t.parsed.path ref).takeWhile (· != 35), badPathByte b = false := by
    intro b hb
    have hmem := (List.takeWhile_prefix _).subset hb
    rw [t.resolvedTail_eq hnul] at hmem
    split at hmem
    · exact hclean b hmem
    · rcases List.mem_append.mp hmem with h | h
      · by_contra hbad
        exact t.not_mem_baseDir (.inr (.inr (by simpa using hbad))) h
      · rcases List.mem_cons.mp h with rfl | h
        · rfl
        · exact hclean b h
  rw [t.urlResolve_text hok hnet, ← t.withTail_text (t.resolvedTail_head ref) hgood, AcceptedUrl.urlParse_text]
  exact ⟨rfl, rfl⟩

/-- What is true of the URL of every hop is what is true of the resolved URL when it is followed. -/
theorem redirectPrepareHop_forall {m : Method} {carried : HeaderList} {r : Response} {P : Str8 → Prop} :
    (∀ hop, redirectPrepareHop base m carried r = some hop → P hop.nextUrl) ↔
      (r.ok = true → isRedirectStatus r.status = true → location r ≠ [] →
        (urlParse (urlResolve base (location r))).ok = true →
        (urlParse (urlResolve base (location r))).https = true → P (urlResolve base (location r))) := by
  unfold redirectPrepareHop
  cases hok : r.ok <;> cases hstatus : isRedirectStatus r.status <;>
    cases hloc : (location r).isEmpty <;>
    cases hnext : (urlParse (urlResolve base (location r))).ok <;>
    cases hhttps : (urlParse (urlResolve base (location r))).https <;> simp_all

/-- **Where redirects lead.** A hop goes to the RFC 3986 target, and a `Location` with a scheme of its own
    is followed only when it is a valid https URL — if and only if the reference is such a URL, names its
    host with `//`, or may be appended to the directory of the base (or the response is not one that an
    https base follows). -/
theorem redirect_follows_rfc {base : Str8} {r : Response} (hbase : (urlParse base).ok = true)
    (hne : location r ≠ []) (hbytes : ∀ b ∈ location r, b ≠ 13 ∧ b ≠ 10 ∧ b ≠ 0 ∧ b ≠ 32) (m : Method)
    (carried : HeaderList) :
    (∀ hop, redirectPrepareHop base m carried r = some hop → FollowsRfc base (location r) hop.nextUrl) ↔
      (r.ok = true → isRedirectStatus r.status = true → (urlParse base).https = true →
        (urlParse (location r)).ok = true ∨ str8StartsWith (location r) (lit "//") = true ∨
          Appendable base (location r)) := by
  obtain ⟨t, rfl⟩ := urlParse_inv hbase
  have hclean : ∀ b ∈ location r, badPathByte b = false := by
    intro b hb
    simp [badPathByte, hbytes b hb]
  have hnul : ∀ b ∈ location r, b ≠ 0 := fun b hb => (hbytes b hb).2.2.1
  rw [redirectPrepareHop_forall]
  cases hok : (urlParse (location r)).ok with
  | true =>
    have hnext : urlResolve t.text (location r) = location r := by simp only [urlResolve, hok, if_true]
    rw [hnext]
    exact ⟨fun _ _ _ _ => .inl rfl, fun _ _ _ _ hok' hhttps => followsRfc_absolute hok' hhttps⟩
  | false =>
    cases hnet : str8StartsWith (location r) (lit "//") with
    | true =>
      exact ⟨fun _ _ _ _ => .inr (.inl rfl), fun _ _ _ _ _ _ => t.followsRfc_network hnul hok hnet⟩
    | false =>
      obtain ⟨hnextOk, hnextHttps⟩ := t.urlResolve_ok hclean hok hnet
      rw [t.followsRfc_relative hne hnul hok hnet, hnextHttps, t.urlParse_text]
      simp [hne, hnextOk, AcceptedUrl.parsed]

/-- A relative `Location` with a query is followed to its target. -/
theorem redirect_follows_rfc_relative :
    ∃ hop, redirectPrepareHop (lit "https://a.test/x/y?k") .get [] (movedTo "z?w") = some hop ∧
      FollowsRfc (lit "https://a.test/x/y?k") (lit "z?w") hop.nextUrl := by
  refine ⟨_, rfl, (@redirect_follows_rfc (lit "https://a.test/x/y?k") (movedTo "z?w") (by decide +kernel)
    (by decide) (by decide +kernel) .get []).mpr ?_ _ rfl⟩
  intro _ _ _
  refine .inr (.inr ⟨by decide, by decide, ?_, by decide⟩)
  decide

/-- A `Location` that is not a web address is followed as if it were a path. -/
theorem redirect_follows_mailto :
    ∃ hop, redirectPrepareHop (lit "https://a.test/x") .get [] (movedTo "mailto:b@c.test") = some hop ∧
      hop.nextUrl = lit "https://a.test/mailto:b@c.test" ∧
      ¬ FollowsRfc (lit "https://a.test/x") (lit "mailto:b@c.test") hop.nextUrl := by
  refine ⟨_, rfl, by decide, ?_⟩
  rintro ⟨-, hscheme⟩
  exact absurd (hscheme (lit "mailto") (by decide)).2 (by decide)

end HolyTls

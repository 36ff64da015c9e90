import HolyTls.Net.Proxy

/-!
# `Net.ProxyUrl` — proxy URLs (`src/net/proxy.c`)

`proxy_parse` reads `scheme://[user:pass@]host[:port]` into the fixed fields of a `ProxyConfig`, and
`proxy_to_url` writes such a URL back. What `proxy_parse` can leave in the fields is `ProxyConfig.Parsed`: no
field holds the bytes at which the text is cut. Reading back what was written gives the same configuration
for those of them that are `Writable`; the others are lost on the way, because a host is written without
its brackets unless it holds a colon, and a password is only written after a user.
-/

namespace HolyTls

variable {text url : Str8}

/-- `proxy_copy_field`: what fits the field, as the C string it is read as. -/
def proxyCopyField (cap : Nat) (s : Str8) : Str8 := fmtS (s.take (cap - 1))

/-- The schemes of `proxy_parse` with their default ports. -/
def proxyScheme (scheme : Str8) : Option (ProxyType × Nat) :=
  if str8Match scheme (lit "http") then some (.http, 80)
  else if str8Match scheme (lit "https") then some (.https, 443)
  else if str8Match scheme (lit "socks5") || str8Match scheme (lit "socks5h") then some (.socks5, 1080)
  else none

/-- Anything from the first `/` on is ignored. -/
def proxyStripPath (rest : Str8) : Str8 :=
  match str8IndexOf rest 47 with
  | some slash => str8Prefix rest slash
  | none => rest

/-- `[user:pass@]`, split at the last `@`: the user, the password and what follows. -/
def proxyUserinfo (rest : Str8) : Str8 × Str8 × Str8 :=
  match str8RindexOf rest 64 with
  | none => ([], [], rest)
  | some i =>
    let userinfo := str8Prefix rest i
    match str8IndexOf userinfo 58 with
    | some colon => (proxyCopyField 128 (str8Prefix userinfo colon),
        proxyCopyField 128 (str8Skip userinfo (colon + 1)), str8Skip rest (i + 1))
    | none => (proxyCopyField 128 userinfo, [], str8Skip rest (i + 1))

/-- `host[:port]`, with an IPv6 literal in brackets; `none` when the bracket is not closed. -/
def proxyHostPort (rest : Str8) (defaultPort : Nat) : Option (Str8 × Nat) :=
  if rest.head? = some 91 then
    (str8IndexOf rest 93).map (fun rb =>
      let after := str8Skip rest (rb + 1)
      ((rest.take rb).drop 1, if after.head? = some 58 then str8ToU64 (str8Skip after 1) % 2 ^ 16 else defaultPort))
  else
    match str8IndexOf rest 58 with
    | some colon => some (str8Prefix rest colon, str8ToU64 (str8Skip rest (colon + 1)) % 2 ^ 16)
    | none => some (rest, defaultPort)

/-- What `proxy_parse` makes of the text behind the scheme. -/
def proxyAuthority (type : ProxyType) (defaultPort : Nat) (text : Str8) : Option ProxyConfig :=
  let (user, pass, rest) := proxyUserinfo (proxyStripPath text)
  (proxyHostPort rest defaultPort).bind (fun (host, port) =>
    if host.isEmpty || port == 0 then none
    else some { type := type, host := proxyCopyField 256 host, port := port, user := user, pass := pass })

/-- `proxy_parse`: `none` where the source returns 0. -/
def proxyParse (url : Str8) : Option ProxyConfig :=
  (str8Find url (lit "://")).bind (fun sep =>
    (proxyScheme (str8Prefix url sep)).bind (fun (type, defaultPort) =>
      proxyAuthority type defaultPort (str8Skip url (sep + 3))))

/-- The scheme `proxy_to_url` writes. -/
def ProxyType.scheme? : ProxyType → Option Str8
  | .http => some (lit "http")
  | .https => some (lit "https")
  | .socks5 => some (lit "socks5")
  | .none => Option.none

/-- The host as `proxy_to_url` writes it: in brackets when it holds a colon. -/
def proxyBracketed (host : Str8) : Str8 :=
  if host.any (· == 58) then lit "[" ++ host ++ lit "]" else host

/-- `proxy_to_url`, empty for a direct connection. -/
def proxyToUrl (p : ProxyConfig) : Str8 :=
  match p.type.scheme? with
  | none => []
  | some scheme =>
    if p.user ≠ [] then
      scheme ++ lit "://" ++ p.user ++ lit ":" ++ p.pass ++ lit "@" ++ proxyBracketed p.host ++ lit ":" ++
        decimal p.port
    else scheme ++ lit "://" ++ proxyBracketed p.host ++ lit ":" ++ decimal p.port

/-! ## What parsing leaves in the fields -/

/-- What the fields of a parsed configuration hold. -/
structure ProxyConfig.Parsed (p : ProxyConfig) : Prop where
  type : p.type ≠ .none
  user : ∀ b ∈ p.user, b ≠ 58 ∧ b ≠ 47 ∧ b ≠ 0
  pass : ∀ b ∈ p.pass, b ≠ 47 ∧ b ≠ 0
  host : ∀ b ∈ p.host, b ≠ 47 ∧ b ≠ 64 ∧ b ≠ 0
  /-- a colon comes from a literal in brackets -/
  literal : 58 ∈ p.host → 93 ∉ p.host
  port : 0 < p.port ∧ p.port < 2 ^ 16
  lengths : p.user.length < 128 ∧ p.pass.length < 128 ∧ p.host.length < 256

/-- What `proxy_to_url` can write so that it is read again: a host that is not cut away or taken for an
    open bracket, and a password only with a user. -/
structure ProxyConfig.Writable (p : ProxyConfig) : Prop where
  host : p.host ≠ []
  bracket : p.host.head? = some 91 → 58 ∈ p.host
  password : p.user = [] → p.pass = []

section

variable {s rest host user pass : Str8} {b : UInt8} {cap port d : Nat} {p : ProxyConfig}

theorem mem_proxyCopyField (h : b ∈ proxyCopyField cap s) : b ∈ s ∧ b ≠ 0 := by
  have hne : (b != 0) = true := List.mem_takeWhile_imp (p := (· != 0)) h
  exact ⟨List.mem_of_mem_take (List.takeWhile_subset _ h), by simpa using hne⟩

theorem length_proxyCopyField (hcap : 0 < cap) : (proxyCopyField cap s).length < cap := by
  have hle : (proxyCopyField cap s).length ≤ (s.take (cap - 1)).length := (List.takeWhile_prefix _).length_le
  rw [List.length_take] at hle
  omega

theorem proxyCopyField_eq_self (hlen : s.length < cap) (hnul : ∀ b ∈ s, b ≠ 0) : proxyCopyField cap s = s := by
  rw [proxyCopyField, List.take_of_length_le (by omega), fmtS_eq_self hnul]

theorem not_mem_proxyStripPath : 47 ∉ proxyStripPath s := by
  unfold proxyStripPath
  split
  · next slash h => exact not_mem_take_of_str8IndexOf h
  · next h => exact str8IndexOf_eq_none.mp h

theorem proxyStripPath_eq_self (h : 47 ∉ s) : proxyStripPath s = s := by
  rw [proxyStripPath, str8IndexOf_eq_none.mpr h]

/-- The user info ends at the first `:` and at the last `@`. -/
theorem proxyUserinfo_spec (hslash : 47 ∉ s) (h : proxyUserinfo s = (user, pass, rest)) :
    (∀ b ∈ user, b ≠ 58 ∧ b ≠ 47 ∧ b ≠ 0) ∧ (∀ b ∈ pass, b ≠ 47 ∧ b ≠ 0) ∧ (∀ b ∈ rest, b ≠ 47 ∧ b ≠ 64) ∧
      user.length < 128 ∧ pass.length < 128 := by
  have hno : ∀ b ∈ s, b ≠ 47 := fun b hb hc => hslash (hc ▸ hb)
  unfold proxyUserinfo at h
  split at h
  · next hat =>
      cases h
      refine ⟨by simp, by simp, fun b hb => ⟨hno b hb, ?_⟩, by simp, by simp⟩
      rintro rfl
      exact str8RindexOf_eq_none.mp hat hb
  · next i hat =>
      have hrest : ∀ b ∈ str8Skip s (i + 1), b ≠ 47 ∧ b ≠ 64 := by
        intro b hb
        refine ⟨hno b (List.mem_of_mem_drop hb), ?_⟩
        rintro rfl
        exact not_mem_drop_of_str8RindexOf hat hb
      have hinfo : ∀ b ∈ str8Prefix s i, b ≠ 47 := fun b hb => hno b (List.mem_of_mem_take hb)
      dsimp only at h
      split at h
      · next colon hcolon =>
          cases h
          refine ⟨fun b hb => ?_, fun b hb => ?_, hrest, length_proxyCopyField (by decide),
            length_proxyCopyField (by decide)⟩
          · obtain ⟨hmem, hnul⟩ := mem_proxyCopyField hb
            refine ⟨?_, hinfo b (List.mem_of_mem_take hmem), hnul⟩
            rintro rfl
            exact not_mem_take_of_str8IndexOf hcolon hmem
          · obtain ⟨hmem, hnul⟩ := mem_proxyCopyField hb
            exact ⟨hinfo b (List.mem_of_mem_drop hmem), hnul⟩
      · next hcolon =>
          cases h
          refine ⟨fun b hb => ?_, by simp, hrest, length_proxyCopyField (by decide), by simp⟩
          obtain ⟨hmem, hnul⟩ := mem_proxyCopyField hb
          refine ⟨?_, hinfo b hmem, hnul⟩
          rintro rfl
          exact str8IndexOf_eq_none.mp hcolon hmem

/-- The host ends at its bracket or at the first `:`. -/
theorem proxyHostPort_spec (hd : d < 2 ^ 16) (h : proxyHostPort s d = some (host, port)) :
    (∀ b ∈ host, b ∈ s) ∧ (58 ∈ host → 93 ∉ host) ∧ port < 2 ^ 16 := by
  unfold proxyHostPort at h
  split at h
  · obtain ⟨rb, hrb, heq⟩ := Option.map_eq_some_iff.mp h
    cases heq
    refine ⟨fun b hb => List.mem_of_mem_take (List.mem_of_mem_drop hb), fun _ hc => ?_, ?_⟩
    · exact not_mem_take_of_str8IndexOf hrb (List.mem_of_mem_drop hc)
    · split
      · exact Nat.mod_lt _ (by decide)
      · exact hd
  · split at h
    · next colon hcolon =>
        cases h
        refine ⟨fun b hb => List.mem_of_mem_take hb, fun hc => ?_, Nat.mod_lt _ (by decide)⟩
        exact absurd hc (not_mem_take_of_str8IndexOf hcolon)
    · next hcolon =>
        cases h
        exact ⟨fun b hb => hb, fun hc => absurd hc (str8IndexOf_eq_none.mp hcolon), hd⟩

theorem proxyScheme_spec {t : ProxyType} (h : proxyScheme s = some (t, d)) : t ≠ .none ∧ d < 2 ^ 16 := by
  unfold proxyScheme at h
  split at h
  · cases h
    decide
  · split at h
    · cases h
      decide
    · split at h
      · cases h
        decide
      · cases h

theorem proxyParse_parsed (h : proxyParse url = some p) : p.Parsed := by
  obtain ⟨sep, -, h⟩ := Option.bind_eq_some_iff.mp h
  obtain ⟨⟨t, d⟩, hscheme, h⟩ := Option.bind_eq_some_iff.mp h
  obtain ⟨ht, hd⟩ := proxyScheme_spec hscheme
  dsimp only at h
  unfold proxyAuthority at h
  rcases hinfo : proxyUserinfo (proxyStripPath (str8Skip url (sep + 3))) with ⟨user, pass, rest⟩
  obtain ⟨huser, hpass, hrest, hulen, hplen⟩ := proxyUserinfo_spec not_mem_proxyStripPath hinfo
  rw [hinfo] at h
  obtain ⟨⟨host, port⟩, hhost, h⟩ := Option.bind_eq_some_iff.mp h
  obtain ⟨hsub, hlit, hport⟩ := proxyHostPort_spec hd hhost
  dsimp only at h
  split at h
  · cases h
  · next hok =>
      cases h
      simp only [Bool.or_eq_true, List.isEmpty_iff, beq_iff_eq, not_or] at hok
      refine ⟨ht, huser, hpass, fun b hb => ?_, fun hc hb => ?_, ⟨Nat.pos_of_ne_zero hok.2, hport⟩,
        hulen, hplen, length_proxyCopyField (by decide)⟩
      · obtain ⟨hmem, hnul⟩ := mem_proxyCopyField hb
        exact ⟨(hrest b (hsub b hmem)).1, (hrest b (hsub b hmem)).2, hnul⟩
      · exact hlit (mem_proxyCopyField hc).1 (mem_proxyCopyField hb).1

/-! ## Reading back what was written -/

/-- The schemes that are written are read again. -/
theorem proxyParse_scheme {t : ProxyType} {scheme : Str8} (hs : t.scheme? = some scheme) (text : Str8) :
    ∃ d, proxyParse (scheme ++ lit "://" ++ text) = proxyAuthority t d text := by
  cases t with
  | none => cases hs
  | http =>
    cases hs
    exact ⟨80, rfl⟩
  | https =>
    cases hs
    exact ⟨443, rfl⟩
  | socks5 =>
    cases hs
    exact ⟨1080, rfl⟩

theorem skip_past (s t : Str8) (c : UInt8) : (s ++ c :: t).drop (s.length + 1) = t := by simp

theorem proxyUserinfo_written (hu : ∀ b ∈ user, b ≠ 58 ∧ b ≠ 47 ∧ b ≠ 0) (hp : ∀ b ∈ pass, b ≠ 47 ∧ b ≠ 0)
    (hulen : user.length < 128) (hplen : pass.length < 128) (hrest : 64 ∉ rest) :
    proxyUserinfo (user ++ lit ":" ++ pass ++ lit "@" ++ rest) = (user, pass, rest) := by
  have htext : user ++ lit ":" ++ pass ++ lit "@" ++ rest = (user ++ 58 :: pass) ++ 64 :: rest := by simp [lit]
  have hat := str8RindexOf_append hrest (user ++ 58 :: pass)
  have hcolon := str8IndexOf_append (fun hc => (hu 58 hc).1 rfl) pass
  have huser : proxyCopyField 128 user = user := proxyCopyField_eq_self hulen (fun b hb => (hu b hb).2.2)
  have hpass : proxyCopyField 128 pass = pass := proxyCopyField_eq_self hplen (fun b hb => (hp b hb).2)
  rw [htext]
  unfold proxyUserinfo
  rw [hat]
  dsimp only [str8Prefix, str8Skip]
  rw [List.take_left, hcolon, skip_past]
  dsimp only [str8Prefix, str8Skip]
  rw [List.take_left, skip_past, huser, hpass]

/-- The port is read back, with the brackets or without. -/
theorem proxyHostPort_written (hp : p.Parsed) (hw : p.Writable) :
    proxyHostPort (proxyBracketed p.host ++ lit ":" ++ decimal p.port) d = some (p.host, p.port) := by
  have hport : str8ToU64 (decimal p.port) % 2 ^ 16 = p.port := by
    have hle : p.port ≤ u64Max := by
      have := hp.port.2
      unfold u64Max
      omega
    rw [str8ToU64_decimal hle, Nat.mod_eq_of_lt hp.port.2]
  unfold proxyBracketed
  split
  · next hany =>
      have hcolon : 58 ∈ p.host := by simpa using hany
      have hclose : 93 ∉ (91 :: p.host) := by simpa using hp.literal hcolon
      have htext : lit "[" ++ p.host ++ lit "]" ++ lit ":" ++ decimal p.port =
          (91 :: p.host) ++ 93 :: 58 :: decimal p.port := by simp [lit]
      have hopen : ((91 :: p.host) ++ 93 :: 58 :: decimal p.port).head? = some 91 := rfl
      rw [htext]
      unfold proxyHostPort
      rw [if_pos hopen, str8IndexOf_append hclose, Option.map_some]
      dsimp only [str8Skip]
      rw [List.take_left, skip_past, List.drop_one, List.tail_cons, List.head?_cons, if_pos rfl, List.drop_one,
        List.tail_cons, hport]
  · next hany =>
      have hcolon : 58 ∉ p.host := by simpa using hany
      have htext : p.host ++ lit ":" ++ decimal p.port = p.host ++ 58 :: decimal p.port := by simp [lit]
      have hopen : (p.host ++ 58 :: decimal p.port).head? ≠ some 91 := by
        rw [List.head?_append_of_ne_nil _ hw.host]
        exact fun h => hcolon (hw.bracket h)
      rw [htext]
      unfold proxyHostPort
      rw [if_neg hopen, str8IndexOf_append hcolon]
      dsimp only [str8Prefix, str8Skip]
      rw [List.take_left, skip_past, hport]

theorem mem_written_host (hp : p.Parsed) (h : b ∈ proxyBracketed p.host ++ lit ":" ++ decimal p.port) :
    b ≠ 47 ∧ b ≠ 64 := by
  have hdigit : b ∈ decimal p.port → b ≠ 47 ∧ b ≠ 64 := by
    intro hb
    have hd := charIsDigit_of_mem_decimal hb
    constructor <;>
    · rintro rfl
      cases hd
  have hmem : b = 91 ∨ b ∈ p.host ∨ b = 93 ∨ b = 58 ∨ b ∈ decimal p.port := by
    unfold proxyBracketed at h
    split at h <;> simp [lit] at h <;> tauto
  rcases hmem with rfl | hb | rfl | rfl | hb
  · decide
  · exact ⟨(hp.host b hb).1, (hp.host b hb).2.1⟩
  · decide
  · decide
  · exact hdigit hb

/-- A `Parsed` configuration from the text behind its scheme. -/
theorem proxyAuthority_written (hp : p.Parsed) (hw : p.Writable) (hslash : 47 ∉ text)
    (hinfo : proxyUserinfo text = (p.user, p.pass, proxyBracketed p.host ++ lit ":" ++ decimal p.port)) :
    proxyAuthority p.type d text = some p := by
  have hhost : proxyCopyField 256 p.host = p.host :=
    proxyCopyField_eq_self hp.lengths.2.2 (fun b hb => (hp.host b hb).2.2)
  have hok : (p.host.isEmpty || p.port == 0) = false := by
    simp [hw.host, Nat.ne_of_gt hp.port.1]
  unfold proxyAuthority
  rw [proxyStripPath_eq_self hslash, hinfo]
  dsimp only
  rw [proxyHostPort_written hp hw, Option.bind_some]
  dsimp only
  rw [hok, hhost]
  rfl

/-- **What was parsed is read back from what is written**, when it can be written. -/
theorem proxyParse_proxyToUrl (hp : p.Parsed) (hw : p.Writable) : proxyParse (proxyToUrl p) = some p := by
  obtain ⟨scheme, hscheme⟩ : ∃ scheme, p.type.scheme? = some scheme := by
    have htype := hp.type
    cases ht : p.type with
    | none => exact absurd ht htype
    | http | https | socks5 => exact ⟨_, rfl⟩
  have hat : 64 ∉ proxyBracketed p.host ++ lit ":" ++ decimal p.port := fun hb => (mem_written_host hp hb).2 rfl
  have hslash : 47 ∉ proxyBracketed p.host ++ lit ":" ++ decimal p.port := fun hb => (mem_written_host hp hb).1 rfl
  unfold proxyToUrl
  rw [hscheme]
  dsimp only
  split
  · obtain ⟨d, hd⟩ := proxyParse_scheme hscheme
      (p.user ++ lit ":" ++ p.pass ++ lit "@" ++ (proxyBracketed p.host ++ lit ":" ++ decimal p.port))
    have hno : 47 ∉ p.user ++ lit ":" ++ p.pass ++ lit "@" ++ (proxyBracketed p.host ++ lit ":" ++ decimal p.port) := by
      intro hb
      simp only [List.mem_append] at hb hslash
      rcases hb with (((hb | hb) | hb) | hb) | hb
      · exact (hp.user _ hb).2.1 rfl
      · revert hb
        decide
      · exact (hp.pass _ hb).1 rfl
      · revert hb
        decide
      · exact hslash hb
    have hparse := proxyAuthority_written (d := d) hp hw hno
      (proxyUserinfo_written hp.user hp.pass hp.lengths.1 hp.lengths.2.1 hat)
    simp only [← List.append_assoc] at hd hparse ⊢
    rw [hd, hparse]
  · next huser =>
      have hnone : p.user = [] := by simpa using huser
      obtain ⟨d, hd⟩ := proxyParse_scheme hscheme (proxyBracketed p.host ++ lit ":" ++ decimal p.port)
      have hinfo : proxyUserinfo (proxyBracketed p.host ++ lit ":" ++ decimal p.port) =
          (p.user, p.pass, proxyBracketed p.host ++ lit ":" ++ decimal p.port) := by
        rw [proxyUserinfo, str8RindexOf_eq_none.mpr hat, hnone, hw.password hnone]
      have hparse := proxyAuthority_written (d := d) hp hw hslash hinfo
      simp only [← List.append_assoc] at hd hparse ⊢
      rw [hd, hparse]

/-! ## The parts of a proxy URL -/

/-- `host[:port]` as it stands in the URL, after the scheme and the user info and without the path. -/
def proxyUrlText (url : Str8) : Option Str8 :=
  (str8Find url (lit "://")).map (fun sep => (proxyUserinfo (proxyStripPath (str8Skip url (sep + 3)))).2.2)

/-- The host part, with its brackets if it has them. -/
def proxyHostPart (rest : Str8) : Str8 :=
  if rest.head? = some 91 then rest.takeWhile (· != 93) ++ (rest.dropWhile (· != 93)).take 1
  else rest.takeWhile (· != 58)

/-- The explicit port: what follows a colon right after the host part. -/
def proxyPortPart (rest : Str8) : Option Str8 :=
  let after := rest.drop (proxyHostPart rest).length
  if after.head? = some 58 then some (after.drop 1) else none

/-- The host without its brackets; `none` when the bracket is not closed. -/
def proxyHost (rest : Str8) : Option Str8 :=
  if rest.head? = some 91 then
    if 93 ∈ rest then some ((rest.takeWhile (· != 93)).drop 1) else none
  else some (rest.takeWhile (· != 58))

theorem proxyHostPort_parts (rest : Str8) (d : Nat) :
    proxyHostPort rest d =
      (proxyHost rest).map (fun host => (host, (proxyPortPart rest).elim d (fun t => str8ToU64 t % 2 ^ 16))) := by
  unfold proxyHostPort proxyHost proxyPortPart proxyHostPart
  by_cases hopen : rest.head? = some 91
  · simp only [hopen, if_true]
    cases hrb : str8IndexOf rest 93 with
    | none => simp [str8IndexOf_eq_none.mp hrb]
    | some rb =>
      obtain ⟨hlt, hdrop, htakeW, hdropW⟩ := str8IndexOf_cut hrb
      have hmem : 93 ∈ rest := List.mem_of_mem_drop (hdrop ▸ List.mem_cons_self)
      have hlen : (rest.take rb ++ [93]).length = rb + 1 := by
        rw [List.length_append, List.length_take, Nat.min_eq_left (Nat.le_of_lt hlt)]
        rfl
      simp only [hmem, if_true, htakeW, hdropW, hdrop, List.take_succ_cons, List.take_zero, hlen, Option.map_some,
        str8Skip]
      by_cases hcolon : (rest.drop (rb + 1)).head? = some 58
      · simp only [hcolon, if_true, Option.elim_some]
      · simp only [hcolon, if_false, Option.elim_none]
  · simp only [hopen, if_false]
    cases hcolon : str8IndexOf rest 58 with
    | none => simp [takeWhile_of_not_mem (str8IndexOf_eq_none.mp hcolon)]
    | some colon =>
      obtain ⟨hlt, hdrop, htakeW, -⟩ := str8IndexOf_cut hcolon
      simp only [htakeW, List.length_take, Nat.min_eq_left (Nat.le_of_lt hlt), hdrop, str8Skip, str8Prefix]
      rfl

theorem proxyParse_eq_some (h : proxyParse url = some p) :
    ∃ rest host d, proxyUrlText url = some rest ∧ proxyHost rest = some host ∧ host ≠ [] ∧ p.port ≠ 0 ∧
      p.host = proxyCopyField 256 host ∧
      p.port = (proxyPortPart rest).elim d (fun t => str8ToU64 t % 2 ^ 16) := by
  obtain ⟨sep, hsep, h⟩ := Option.bind_eq_some_iff.mp h
  obtain ⟨⟨t, d⟩, -, h⟩ := Option.bind_eq_some_iff.mp h
  dsimp only at h
  unfold proxyAuthority at h
  rcases hinfo : proxyUserinfo (proxyStripPath (str8Skip url (sep + 3))) with ⟨user, pass, rest⟩
  rw [hinfo] at h
  obtain ⟨⟨host, port⟩, hhost, h⟩ := Option.bind_eq_some_iff.mp h
  rw [proxyHostPort_parts] at hhost
  obtain ⟨host', hhost', heq⟩ := Option.map_eq_some_iff.mp hhost
  cases heq
  dsimp only at h
  split at h
  · cases h
  · next hok =>
      cases h
      simp only [Bool.or_eq_true, List.isEmpty_iff, beq_iff_eq, not_or] at hok
      exact ⟨rest, host, d, by rw [proxyUrlText, hsep, Option.map_some, hinfo], hhost', hok.1, hok.2, rfl, rfl⟩

/-- Brackets stand in the host part at most as one pair around it. -/
def Enclosed (part : Str8) : Prop :=
  (91 ∉ part ∧ 93 ∉ part) ∨ ∃ inner, part = 91 :: inner ++ [93] ∧ 91 ∉ inner ∧ 93 ∉ inner

theorem proxyHost_of_enclosed (hpart : Enclosed (proxyHostPart rest)) (h : proxyHost rest = some host) :
    91 ∉ host ∧ 93 ∉ host := by
  unfold proxyHost at h
  unfold proxyHostPart at hpart
  split at h
  · next hopen =>
      rw [if_pos hopen] at hpart
      split at h
      · cases h
        obtain ⟨tail, rfl⟩ : ∃ tail, rest = 91 :: tail := by
          cases rest with
          | nil => cases hopen
          | cons c tail => exact ⟨tail, by rw [Option.some.inj hopen]⟩
        have hhead : (91 :: tail).takeWhile (· != 93) = 91 :: tail.takeWhile (· != 93) := rfl
        rw [hhead, List.drop_one, List.tail_cons]
        refine ⟨fun hmem => ?_, fun hmem => ?_⟩
        · rw [hhead] at hpart
          rcases hpart with ⟨hnot, -⟩ | ⟨inner, heq, hnot, -⟩
          · exact hnot (by simp)
          · have htail : tail.takeWhile (· != 93) ++ _ = inner ++ [93] := (List.cons.inj heq).2
            have hin : 91 ∈ inner ++ [93] := htail ▸ List.mem_append_left _ hmem
            simp [hnot] at hin
        · exact absurd (List.mem_takeWhile_imp hmem) (by decide)
      · cases h
  · next hopen =>
      cases h
      rw [if_neg hopen] at hpart
      rcases hpart with hnot | ⟨inner, heq, -⟩
      · exact hnot
      · -- a plain host part starts as the text does, not with a bracket
        exfalso
        cases rest with
        | nil => cases heq
        | cons c tail =>
          by_cases hc : c = 58
          · subst hc
            cases heq
          · rw [List.takeWhile_cons_of_pos (by simpa using hc)] at heq
            exact hopen (by rw [(List.cons.inj heq).1]; rfl)

/-- The same proxy: the credentials count only with a user. -/
def SameProxy (p q : ProxyConfig) : Prop :=
  q.type = p.type ∧ q.host = p.host ∧ q.port = p.port ∧ (p.user ≠ [] → q.user = p.user ∧ q.pass = p.pass)

theorem proxyToUrl_nil_user (huser : p.user = []) : proxyToUrl p = proxyToUrl { p with pass := [] } := by
  simp only [proxyToUrl, huser, ne_eq, not_true_eq_false, if_false]

/-- A parsed configuration whose host can be written is read back, but for a password without a user. -/
theorem proxyParse_same (hp : p.Parsed) (hhost : p.host ≠ []) (hopen : p.host.head? = some 91 → 58 ∈ p.host) :
    ∃ q, proxyParse (proxyToUrl p) = some q ∧ SameProxy p q := by
  by_cases huser : p.user = []
  · have hp' : ProxyConfig.Parsed { p with pass := [] } :=
      ⟨hp.type, hp.user, by simp, hp.host, hp.literal, hp.port, hp.lengths.1, by simp, hp.lengths.2.2⟩
    refine ⟨{ p with pass := [] }, ?_, rfl, rfl, rfl, fun h => absurd huser h⟩
    rw [proxyToUrl_nil_user huser]
    exact proxyParse_proxyToUrl hp' ⟨hhost, hopen, fun _ => rfl⟩
  · exact ⟨p, proxyParse_proxyToUrl hp ⟨hhost, hopen, fun h => absurd h huser⟩, rfl, rfl, rfl, fun _ => ⟨rfl, rfl⟩⟩

theorem proxyUrlText_subset (h : proxyUrlText url = some rest) : ∀ b ∈ rest, b ∈ url := by
  obtain ⟨sep, -, rfl⟩ := Option.map_eq_some_iff.mp h
  intro b hb
  have hstrip : b ∈ proxyStripPath (str8Skip url (sep + 3)) := by
    unfold proxyUserinfo at hb
    split at hb
    · exact hb
    · dsimp only at hb
      split at hb <;> exact List.mem_of_mem_drop hb
  unfold proxyStripPath at hstrip
  split at hstrip
  · exact List.mem_of_mem_drop (List.mem_of_mem_take hstrip)
  · exact List.mem_of_mem_drop hstrip

theorem proxyHost_subset (h : proxyHost rest = some host) : ∀ b ∈ host, b ∈ rest := by
  unfold proxyHost at h
  intro b hb
  split at h
  · split at h
    · cases h
      exact List.takeWhile_subset _ (List.mem_of_mem_drop hb)
    · cases h
  · cases h
    exact List.takeWhile_subset _ hb

/-- A URL whose proxy can be written and read again: no NUL, and no brackets but around the host. -/
structure PlainProxyUrl (url : Str8) : Prop where
  nul : 0 ∉ url
  host : ∀ rest ∈ proxyUrlText url, Enclosed (proxyHostPart rest)

/-- **A proxy that was parsed is read back from the URL that is written for it.** -/
theorem proxyParse_back (hurl : PlainProxyUrl url) (h : proxyParse url = some p) :
    ∃ q, proxyParse (proxyToUrl p) = some q ∧ SameProxy p q := by
  obtain ⟨rest, host, d, hrest, hhost, hne, -, hcopy, -⟩ := proxyParse_eq_some h
  obtain ⟨hopen, -⟩ := proxyHost_of_enclosed (hurl.host rest hrest) hhost
  have hnul : ∀ b ∈ host.take (256 - 1), b ≠ 0 := by
    rintro b hb rfl
    exact hurl.nul (proxyUrlText_subset hrest 0 (proxyHost_subset hhost 0 (List.mem_of_mem_take hb)))
  rw [proxyCopyField, fmtS_eq_self hnul] at hcopy
  refine proxyParse_same (proxyParse_parsed h) ?_ ?_
  · rw [hcopy]
    intro hnil
    rcases List.take_eq_nil_iff.mp hnil with h | h
    · cases h
    · exact hne h
  · intro hhead
    rw [hcopy] at hhead
    exact absurd (List.mem_of_mem_take (List.mem_of_head? hhead)) hopen

end

/-! ## The port -/

/-- The explicit port of a proxy URL, as it is written. -/
def proxyUrlPort (url : Str8) : Option Str8 := (proxyUrlText url).bind proxyPortPart

/-- A URL that `proxy_parse` has nothing against but perhaps its port: a known scheme and a host. -/
def NamesProxy (url : Str8) : Prop :=
  (∀ sep ∈ str8Find url (lit "://"), (proxyScheme (str8Prefix url sep)).isSome = true) ∧
    ∃ rest ∈ proxyUrlText url, ∃ host ∈ proxyHost rest, host ≠ []

/-- A decimal numeral from 1 to 65535. -/
def IsPort (text : Str8) : Prop :=
  text ≠ [] ∧ text.all charIsDigit = true ∧ 1 ≤ digitsValue text 0 ∧ digitsValue text 0 ≤ 65535

/-- The port that was written is the one that is used, and a text that is no port is refused. -/
def PortKept (url : Str8) : Prop :=
  ∀ text ∈ proxyUrlPort url,
    (∀ p, proxyParse url = some p → IsPort text ∧ p.port = digitsValue text 0) ∧
    ((∃ b ∈ text, charIsDigit b = false) ∨ (text.all charIsDigit = true ∧ 65535 < digitsValue text 0) →
      proxyParse url = none)

/-- The number that is left of a port: its leading digits, capped at 64 bits and cut to 16. -/
def portLeft (text : Str8) : Nat := min (digitsValue (text.takeWhile charIsDigit) 0) u64Max % 2 ^ 16

theorem portLeft_eq (text : Str8) : str8ToU64 text % 2 ^ 16 = portLeft text := by
  rw [portLeft, str8ToU64_eq]

theorem portLeft_of_digits (hdigits : text.all charIsDigit = true) (hle : digitsValue text 0 ≤ 65535) :
    portLeft text = digitsValue text 0 := by
  have htake : text.takeWhile charIsDigit = text :=
    List.takeWhile_eq_self_iff.mpr (List.all_eq_true.mp hdigits)
  have hmin : min (digitsValue text 0) u64Max = digitsValue text 0 := by
    apply Nat.min_eq_left
    unfold u64Max
    omega
  rw [portLeft, htake, hmin, Nat.mod_eq_of_lt (by omega)]

theorem proxyParse_of_port (hport : proxyUrlPort url = some text) (hname : NamesProxy url)
    (hleft : portLeft text ≠ 0) : ∃ p, proxyParse url = some p := by
  obtain ⟨hscheme, rest, hrest, host, hhost, hne⟩ := hname
  obtain ⟨sep, hsep, rfl⟩ := Option.map_eq_some_iff.mp hrest
  obtain ⟨⟨t, d⟩, htype⟩ := Option.isSome_iff_exists.mp (hscheme sep hsep)
  rw [proxyUrlPort, hrest, Option.bind_some] at hport
  rcases hinfo : proxyUserinfo (proxyStripPath (str8Skip url (sep + 3))) with ⟨user, pass, rest⟩
  rw [hinfo] at hport hhost
  have hok : (host.isEmpty || portLeft text == 0) = false := by simp [hne, hleft]
  refine ⟨{ type := t, host := proxyCopyField 256 host, port := portLeft text, user := user, pass := pass }, ?_⟩
  rw [proxyParse, hsep, Option.bind_some, htype, Option.bind_some]
  dsimp only
  unfold proxyAuthority
  rw [hinfo]
  dsimp only
  rw [proxyHostPort_parts, Option.mem_def.mp hhost, Option.map_some, hport, Option.elim_some, portLeft_eq,
    Option.bind_some]
  dsimp only
  rw [hok]
  rfl

theorem namesProxy_of_some {p : ProxyConfig} (h : proxyParse url = some p) : NamesProxy url := by
  obtain ⟨rest, host, d, hrest, hhost, hne, -⟩ := proxyParse_eq_some h
  refine ⟨?_, rest, hrest, host, hhost, hne⟩
  intro sep hsep
  rw [proxyParse, Option.mem_def.mp hsep, Option.bind_some] at h
  obtain ⟨_, htype, -⟩ := Option.bind_eq_some_iff.mp h
  rw [htype]
  rfl

theorem port_of_some {p : ProxyConfig} (hport : proxyUrlPort url = some text) (h : proxyParse url = some p) :
    p.port = portLeft text ∧ portLeft text ≠ 0 := by
  obtain ⟨rest, host, d, hrest, -, -, hne, -, heq⟩ := proxyParse_eq_some h
  rw [proxyUrlPort, hrest, Option.bind_some] at hport
  rw [hport, Option.elim_some, portLeft_eq] at heq
  exact ⟨heq, heq ▸ hne⟩

/-- **The port of a proxy URL is kept** exactly when an explicit port is a numeral up to 65535, unless the URL
    is refused anyway: it names no proxy, or what is left of the port is zero. -/
theorem proxy_port_kept (url : Str8) :
    PortKept url ↔
      (∀ text ∈ proxyUrlPort url, NamesProxy url → portLeft text ≠ 0 →
        text.all charIsDigit = true ∧ digitsValue text 0 ≤ 65535) := by
  constructor
  · intro h text htext hname hleft
    obtain ⟨p, hp⟩ := proxyParse_of_port htext hname hleft
    obtain ⟨⟨-, hdigits, -, hle⟩, -⟩ := (h text htext).1 p hp
    exact ⟨hdigits, hle⟩
  · intro h text htext
    have hkept : ∀ p, proxyParse url = some p → IsPort text ∧ p.port = digitsValue text 0 := by
      intro p hp
      obtain ⟨hport, hleft⟩ := port_of_some htext hp
      obtain ⟨hdigits, hle⟩ := h text htext (namesProxy_of_some hp) hleft
      rw [portLeft_of_digits hdigits hle] at hport hleft
      refine ⟨⟨?_, hdigits, Nat.pos_of_ne_zero hleft, hle⟩, hport⟩
      rintro rfl
      exact hleft rfl
    refine ⟨hkept, fun hbad => ?_⟩
    by_contra hsome
    obtain ⟨p, hp⟩ := Option.ne_none_iff_exists'.mp hsome
    obtain ⟨-, hdigits, -, hle⟩ := (hkept p hp).1
    rcases hbad with ⟨b, hb, hnot⟩ | ⟨-, hbig⟩
    · rw [List.all_eq_true.mp hdigits b hb] at hnot
      cases hnot
    · omega

/-- A port above 65535 is not refused: another port is used. -/
theorem proxy_port_wraps :
    proxyUrlPort (lit "http://h:65616") = some (lit "65616") ∧
      proxyParse (lit "http://h:65616") = some { type := .http, host := lit "h", port := 80, user := [], pass := [] } ∧
      ¬ PortKept (lit "http://h:65616") := by
  have hparse : proxyParse (lit "http://h:65616") =
      some { type := .http, host := lit "h", port := 80, user := [], pass := [] } := rfl
  refine ⟨by decide +kernel, hparse, fun h => ?_⟩
  have hport := ((h (lit "65616") (by decide +kernel)).1 _ hparse).2
  exact absurd hport (by decide +kernel)

end HolyTls

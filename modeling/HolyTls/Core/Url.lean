import HolyTls.Base.Str8

/-!
# `Core.Url` — `url_parse` and `url_resolve` (`src/core/url.c`)

`urlParse` returns the record the source returns, `ok` flag and partially filled fields included: a
rejected URL keeps whatever was set before the rejecting test. The pointer scans of the source are
`takeWhile`, `dropWhile` and the index functions of `Base.Str8`.

The fields of an accepted URL are described by the lemmas at the end: the host is not empty, and neither
the host nor the authority holds a control byte or a space.
-/

namespace HolyTls

/-- The loop of `url_parse_port`: `port` is the value of the digits read so far. `none` is the `-1` of the
    source, for a non-digit or a value above 65535. -/
def urlParsePortLoop : Str8 → Nat → Option Nat
  | [], port => some port
  | c :: rest, port =>
    if charIsDigit c then
      let port' := port * 10 + (c.toNat - 48)
      if port' > 65535 then none else urlParsePortLoop rest port'
    else none

/-- `url_parse_port`: an empty range is the scheme's default port. -/
def urlParsePort (s : Str8) (dflt : Nat) : Option Nat :=
  if s.isEmpty then some dflt else urlParsePortLoop s 0

/-- `ParsedUrl`. -/
structure ParsedUrl where
  ok : Bool := false
  https : Bool := false
  scheme : Str8 := []
  host : Str8 := []
  authority : Str8 := []
  path : Str8 := []
  port : Nat := 0
deriving DecidableEq, Repr

/-- The scan for `://`: what stands before its first occurrence and what follows it. -/
def splitScheme : Str8 → Option (Str8 × Str8)
  | 58 :: 47 :: 47 :: rest => some ([], rest)
  | c :: rest => (splitScheme rest).map (fun p => (c :: p.1, p.2))
  | [] => none

/-- The scheme test: `some true` for https, `some false` for http. -/
def schemeHttps (scheme : Str8) : Option Bool :=
  if str8MatchCi scheme (lit "https") then some true
  else if str8MatchCi scheme (lit "http") then some false
  else none

/-- The authority ends at the first `/` or `?`. -/
def inAuthority (c : UInt8) : Bool := c != 47 && c != 63

/-- A byte that must not stand in an authority: a control byte, a space or DEL. -/
def badAuthorityByte (c : UInt8) : Bool := c ≤ 32 || c == 127

/-- A byte that must not stand in the path: CR, LF or NUL. -/
def badPathByte (c : UInt8) : Bool := c == 13 || c == 10 || c == 0

/-- Userinfo is cut at the last `@`. -/
def stripUserinfo (auth : Str8) : Str8 :=
  match str8RindexOf auth 64 with
  | some i => str8Skip auth (i + 1)
  | none => auth

/-- `host[:port]`, with the bracketed form of IPv6 literals. `none` where the source returns early: an
    unterminated bracket, garbage after it, or a bad port. -/
def splitHostPort (authority : Str8) (dflt : Nat) : Option (Str8 × Nat) :=
  match authority with
  | 91 :: inner =>
    match str8IndexOf inner 93 with
    | none => none
    | some rb =>
      match inner.drop (rb + 1) with
      | [] => some (inner.take rb, dflt)
      | 58 :: digits => (urlParsePort digits dflt).map (fun p => (inner.take rb, p))
      | _ :: _ => none
  | _ =>
    match str8RindexOf authority 58 with
    | none => some (authority, dflt)
    | some colon =>
      (urlParsePort (authority.drop (colon + 1)) dflt).map (fun p => (authority.take colon, p))

/-- What `url_parse` does once the scheme is known to be http or https; `r` holds the scheme and flag, and
    `afterSep` follows the `://`. -/
def urlParseAuthority (r : ParsedUrl) (afterSep : Str8) : ParsedUrl :=
  let rest := afterSep.takeWhile (· != 35)  -- a fragment never reaches the wire
  let auth := rest.takeWhile inAuthority
  let tail := rest.dropWhile inAuthority
  if auth.any badAuthorityByte then r
  else if tail.any badPathByte then r
  else
    let authority := stripUserinfo auth
    let r := { r with authority := authority }
    match splitHostPort authority (if r.https then 443 else 80) with
    | none => r
    | some (host, port) =>
      if host.isEmpty then r
      else { r with host := host, port := port, ok := true
                    path := if tail.isEmpty then lit "/" else tail }

/-- `url_parse`. -/
def urlParse (u : Str8) : ParsedUrl :=
  match splitScheme u with
  | none => {}
  | some (scheme, afterSep) =>
    match schemeHttps scheme with
    | none => { scheme := scheme }
    | some https => urlParseAuthority { scheme := scheme, https := https } afterSep

/-- `url_resolve`: an absolute reference is used as it is, the other three kinds are completed from the
    base. -/
def urlResolve (base ref : Str8) : Str8 :=
  if (urlParse ref).ok then ref
  else
    let b := urlParse base
    if !b.ok then ref
    else if str8StartsWith ref (lit "//") then fmtS b.scheme ++ lit ":" ++ fmtS ref
    else if str8StartsWith ref (lit "/") then
      fmtS b.scheme ++ lit "://" ++ fmtS b.authority ++ fmtS ref
    else
      let basepath := match str8IndexOf b.path 63 with
        | some q => str8Prefix b.path q
        | none => b.path
      let dir := str8ChopLastSlash basepath
      fmtS b.scheme ++ lit "://" ++ fmtS b.authority ++ fmtS dir ++ lit "/" ++ fmtS ref

/-! ## Accepted URLs -/

/-- What an accepted authority looks like: it passed the byte test and split into host and port. -/
theorem urlParseAuthority_ok {r : ParsedUrl} {rest : Str8} (hr : r.ok = false)
    (h : (urlParseAuthority r rest).ok = true) :
    ∃ auth : Str8, auth.any badAuthorityByte = false ∧
      (urlParseAuthority r rest).authority = stripUserinfo auth ∧
      (urlParseAuthority r rest).host ≠ [] ∧ (urlParseAuthority r rest).https = r.https ∧
      splitHostPort (stripUserinfo auth) (if r.https then 443 else 80)
        = some ((urlParseAuthority r rest).host, (urlParseAuthority r rest).port) := by
  refine ⟨(rest.takeWhile (· != 35)).takeWhile inAuthority, ?_⟩
  simp only [urlParseAuthority] at h ⊢
  -- every early return of the source leaves `ok` unset
  split at h
  · rw [hr] at h; cases h
  · next hauth =>
      split at h
      · rw [hr] at h; cases h
      · next htail =>
          split at h
          · next => rw [hr] at h; cases h
          · next host port hsplit =>
              split at h
              · rw [hr] at h; cases h
              · next hhost =>
                  have hne : host ≠ [] := by simpa using hhost
                  simp [hauth, htail, hsplit, hhost, hne]

theorem urlParse_ok {u : Str8} (h : (urlParse u).ok = true) :
    ∃ auth : Str8, auth.any badAuthorityByte = false ∧
      (urlParse u).authority = stripUserinfo auth ∧ (urlParse u).host ≠ [] ∧
      splitHostPort (stripUserinfo auth) (if (urlParse u).https then 443 else 80)
        = some ((urlParse u).host, (urlParse u).port) := by
  unfold urlParse at h ⊢
  cases hs : splitScheme u with
  | none => simp [hs] at h
  | some p =>
    obtain ⟨scheme, afterSep⟩ := p
    cases hh : schemeHttps scheme with
    | none => simp [hs, hh] at h
    | some https =>
      simp only [hs, hh] at h ⊢
      obtain ⟨auth, hbytes, hauth, hhost, hhttps, hsplit⟩ := urlParseAuthority_ok rfl h
      refine ⟨auth, hbytes, hauth, hhost, ?_⟩
      rw [hhttps]
      exact hsplit

theorem urlParse_host_ne_nil {u : Str8} (h : (urlParse u).ok = true) : (urlParse u).host ≠ [] := by
  obtain ⟨_, _, _, hne, _⟩ := urlParse_ok h
  exact hne

theorem mem_of_mem_stripUserinfo {auth : Str8} {b : UInt8} (h : b ∈ stripUserinfo auth) : b ∈ auth := by
  unfold stripUserinfo at h
  split at h
  · exact List.mem_of_mem_drop h
  · exact h

theorem splitHostPort_host_subset {auth host : Str8} {dflt port : Nat}
    (h : splitHostPort auth dflt = some (host, port)) : ∀ b ∈ host, b ∈ auth := by
  unfold splitHostPort at h
  intro b hb
  split at h
  · -- a bracketed literal
    next inner =>
      apply List.mem_cons_of_mem
      split at h
      · cases h
      · split at h
        · cases h
          exact List.mem_of_mem_take hb
        · obtain ⟨_, _, heq⟩ := Option.map_eq_some_iff.mp h
          cases heq
          exact List.mem_of_mem_take hb
        · cases h
  · split at h
    · cases h
      exact hb
    · obtain ⟨_, _, heq⟩ := Option.map_eq_some_iff.mp h
      cases heq
      exact List.mem_of_mem_take hb

theorem urlParse_host_bytes {u : Str8} (h : (urlParse u).ok = true) :
    ∀ b ∈ (urlParse u).host, badAuthorityByte b = false := by
  obtain ⟨auth, hbytes, _, _, hsplit⟩ := urlParse_ok h
  intro b hb
  have hmem := mem_of_mem_stripUserinfo (splitHostPort_host_subset hsplit b hb)
  simpa using List.any_eq_false.mp hbytes b hmem

theorem fmtS_host {u : Str8} (h : (urlParse u).ok = true) : fmtS (urlParse u).host = (urlParse u).host := by
  apply fmtS_eq_self
  rintro b hb rfl
  exact absurd (urlParse_host_bytes h 0 hb) (by decide)

/-! ## Cutting a URL -/

/-- A byte that may stand in an authority: none that ends it, no space and no control byte. -/
def authorityByte (b : UInt8) : Bool := inAuthority b && b != 35 && !badAuthorityByte b

theorem splitScheme_append {s rest : Str8} (hs : 58 ∉ s) : splitScheme (s ++ lit "://" ++ rest) = some (s, rest) := by
  rw [List.append_assoc, show lit "://" ++ rest = 58 :: 47 :: 47 :: rest from rfl]
  induction s with
  | nil => rfl
  | cons c s ih =>
    obtain ⟨hc, hs⟩ := not_or.mp (fun h => hs (List.mem_cons.mpr h))
    rw [List.cons_append, splitScheme.eq_2 _ _ (fun _ h => absurd h.symm hc), ih hs]
    rfl

/-- There is no `@` left once the user info is cut off. -/
theorem at_not_mem_stripUserinfo (auth : Str8) : 64 ∉ stripUserinfo auth := by
  unfold stripUserinfo
  split
  · next i hi => exact not_mem_drop_of_str8RindexOf hi
  · next hnone => exact str8RindexOf_eq_none.mp hnone

theorem stripUserinfo_eq_self {rest : Str8} (hs : 64 ∉ rest) : stripUserinfo rest = rest := by
  rw [stripUserinfo, str8RindexOf_eq_none.mpr hs]

end HolyTls

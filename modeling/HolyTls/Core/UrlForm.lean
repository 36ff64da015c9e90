import HolyTls.Core.Url
import HolyTls.H1.Request

/-!
# `Core.UrlForm` — what `url_parse` accepts, and what it gives back (`src/core/url.c`)

Two views of the parser. Read forwards, an accepted URL gives a request target: the host and the authority
are clean, and the request line and the Host header that HTTP/1.1 writes from them are read back as they
were (`urlParse_target_iff`). That needs the path to begin with a slash and to hold no space, which the
parser does not see to: a URL with a query but no path gives a path that begins with the question mark.

Read backwards, a URL that is written from its parts gives these parts (`urlParse_render_iff`), unless the port
text behind a host name holds a colon: what stands before the last one becomes part of the host.
-/

namespace HolyTls

/-! ## The pieces of an accepted URL -/

/-- What follows the authority, up to the fragment. -/
def urlTail (u : Str8) : Str8 :=
  match splitScheme u with
  | none => []
  | some p => (p.2.takeWhile (· != 35)).dropWhile inAuthority

section

variable {u : Str8}

/-- The authority of an accepted URL is what stands before the tail, without the user info. -/
theorem urlParse_ok_pieces (h : (urlParse u).ok = true) :
    ∃ auth : Str8, (∀ b ∈ auth, badAuthorityByte b = false ∧ b ≠ 47 ∧ b ≠ 63 ∧ b ≠ 35) ∧
      (urlParse u).authority = stripUserinfo auth ∧
      (∀ b ∈ urlTail u, badPathByte b = false ∧ b ≠ 35) ∧
      (urlParse u).path = if urlTail u = [] then lit "/" else urlTail u := by
  unfold urlParse urlTail at *
  cases hs : splitScheme u with
  | none =>
    rw [hs] at h
    cases h
  | some p =>
    rw [hs] at h
    dsimp only at h ⊢
    cases hh : schemeHttps p.1 with
    | none =>
      rw [hh] at h
      cases h
    | some https =>
      rw [hh] at h
      dsimp only at h ⊢
      have hfrag : ∀ b ∈ p.2.takeWhile (· != 35), b ≠ 35 := by
        intro b hb
        simpa using List.mem_takeWhile_imp hb
      unfold urlParseAuthority at h ⊢
      dsimp only at h ⊢
      -- every early return leaves `ok` unset
      split at h
      · cases h
      · next hauth =>
          split at h
          · cases h
          · next htail =>
              split at h
              · cases h
              · next host port hsplit =>
                  split at h
                  · cases h
                  · next hhost =>
                      rw [if_neg hauth, if_neg htail, if_neg hhost]
                      refine ⟨_, ?_, rfl, ?_, ?_⟩
                      · intro b hb
                        have hin := List.mem_takeWhile_imp hb
                        have hbad : badAuthorityByte b = false := by
                          by_contra hne
                          rw [Bool.not_eq_false] at hne
                          exact hauth (List.any_eq_true.mpr ⟨b, hb, hne⟩)
                        rw [inAuthority, Bool.and_eq_true, bne_iff_ne, bne_iff_ne] at hin
                        exact ⟨hbad, hin.1, hin.2, hfrag b (List.takeWhile_subset _ hb)⟩
                      · intro b hb
                        have hbad : badPathByte b = false := by
                          by_contra hne
                          rw [Bool.not_eq_false] at hne
                          exact htail (List.any_eq_true.mpr ⟨b, hb, hne⟩)
                        exact ⟨hbad, hfrag b ((List.dropWhile_suffix _).subset hb)⟩
                      · simp only [List.isEmpty_iff]

end

/-! ## Request targets -/

/-- What an accepted URL should give: a path and an authority that cannot be mistaken for anything else, so
    that a request head written from them is read back. -/
structure TargetWellFormed (u : Str8) : Prop where
  slash : (urlParse u).path.head? = some 47
  path : ∀ b ∈ (urlParse u).path, b ≠ 35 ∧ b ≠ 32 ∧ b ≠ 13 ∧ b ≠ 10 ∧ b ≠ 0
  authority : ∀ b ∈ (urlParse u).authority,
    b ≠ 47 ∧ b ≠ 63 ∧ b ≠ 35 ∧ b ≠ 64 ∧ badAuthorityByte b = false
  host : (urlParse u).host ≠ []
  /-- for a method without blanks and line ends and headers without line ends -/
  head : ∀ (method : Str8) (headers : HeaderList) (body : Str8), (∀ b ∈ method, b ≠ 32 ∧ b ≠ 13 ∧ b ≠ 10) →
    (∀ h ∈ headers, (∀ b ∈ h.name, b ≠ 13 ∧ b ≠ 10) ∧ ∀ b ∈ h.value, b ≠ 13 ∧ b ≠ 10) →
    ∃ requestLine, h1ReadHead (h1SessionSubmitRequest method (urlParse u).authority (urlParse u).path headers body) =
        some (requestLine :: (lit "Host: " ++ (urlParse u).authority) ::
          (h1KeptHeaders headers).map h1HeaderLine, body) ∧
      h1Words requestLine = [method, (urlParse u).path, lit "HTTP/1.1"] ∧
      ∀ h ∈ h1KeptHeaders headers, 58 ∉ h.name → h1SplitHeader (h1HeaderLine h) = (h.name, h.value)

/-- What the parser does not check: that what follows the authority is a path, and that it has no space. -/
def PathInTail (u : Str8) : Prop := (urlTail u = [] ∨ (urlTail u).head? = some 47) ∧ 32 ∉ urlTail u

instance (u : Str8) : Decidable (PathInTail u) := inferInstanceAs (Decidable (_ ∧ _))

theorem h1Head_readBack {method authority path : Str8} {headers : HeaderList} (body : Str8)
    (hm : ∀ b ∈ method, b ≠ 32 ∧ b ≠ 13 ∧ b ≠ 10) (ha : 13 ∉ authority) (hp : 32 ∉ path ∧ 13 ∉ path)
    (hh : ∀ h ∈ headers, (∀ b ∈ h.name, b ≠ 13 ∧ b ≠ 10) ∧ ∀ b ∈ h.value, b ≠ 13 ∧ b ≠ 10) :
    ∃ requestLine, h1ReadHead (h1SessionSubmitRequest method authority path headers body) =
        some (requestLine :: (lit "Host: " ++ authority) :: (h1KeptHeaders headers).map h1HeaderLine, body) ∧
      h1Words requestLine = [method, path, lit "HTTP/1.1"] ∧
      ∀ h ∈ h1KeptHeaders headers, 58 ∉ h.name → h1SplitHeader (h1HeaderLine h) = (h.name, h.value) := by
  refine ⟨method ++ lit " " ++ path ++ lit " HTTP/1.1", ?_, ?_, fun h _ hname => h1SplitHeader_line hname⟩
  · apply h1ReadHead_submitted (fun hc => (hm 13 hc).2.1 rfl) ha hp.2
    intro h hmem
    obtain ⟨hn, hv⟩ := hh h hmem
    exact ⟨fun hc => (hn 13 hc).1 rfl, fun hc => (hv 13 hc).1 rfl⟩
  · exact h1Words_requestLine (fun hc => (hm 32 hc).1 rfl) hp.1

/-- **An accepted URL gives a well-formed request target** exactly when what follows its authority is empty
    or begins with a slash, and holds no space. -/
theorem urlParse_target_iff (u : Str8) (hok : (urlParse u).ok = true) : TargetWellFormed u ↔ PathInTail u := by
  obtain ⟨auth, hauth, hauthority, htail, hpath⟩ := urlParse_ok_pieces hok
  constructor
  · intro h
    by_cases hempty : urlTail u = []
    · rw [PathInTail, hempty]
      simp
    · rw [if_neg hempty] at hpath
      refine ⟨.inr (hpath ▸ h.slash), fun hspace => ?_⟩
      exact (h.path 32 (hpath ▸ hspace)).2.1 rfl
  · rintro ⟨hslash, hspace⟩
    have hclean : ∀ b ∈ (urlParse u).path, b ≠ 35 ∧ b ≠ 32 ∧ b ≠ 13 ∧ b ≠ 10 ∧ b ≠ 0 := by
      intro b hb
      rw [hpath] at hb
      split at hb
      · rw [show lit "/" = [47] from rfl, List.mem_singleton] at hb
        subst hb
        decide
      · obtain ⟨hbad, hfrag⟩ := htail b hb
        refine ⟨hfrag, fun hc => hspace (hc ▸ hb), ?_⟩
        simpa [badPathByte, and_assoc] using hbad
    have hclean' : ∀ b ∈ (urlParse u).authority, b ≠ 47 ∧ b ≠ 63 ∧ b ≠ 35 ∧ b ≠ 64 ∧ badAuthorityByte b = false := by
      intro b hb
      rw [hauthority] at hb
      obtain ⟨hbad, h47, h63, h35⟩ := hauth b (mem_of_mem_stripUserinfo hb)
      exact ⟨h47, h63, h35, fun hc => at_not_mem_stripUserinfo auth (hc ▸ hb), hbad⟩
    have hcr : 13 ∉ (urlParse u).authority := fun hc => absurd (hclean' 13 hc).2.2.2.2 (by decide)
    refine ⟨?_, hclean, hclean', urlParse_host_ne_nil hok, fun method headers body hm hh => ?_⟩
    · rw [hpath]
      rcases hslash with hnil | hs
      · rw [if_pos hnil]
        rfl
      · rw [if_neg (fun hnil => by rw [hnil] at hs; cases hs)]
        exact hs
    · exact h1Head_readBack body hm hcr ⟨fun hc => (hclean 32 hc).2.1 rfl, fun hc => (hclean 13 hc).2.2.1 rfl⟩ hh

theorem urlParse_target_query :
    (urlParse (lit "https://x.com:8443/a?b=c#d")).ok = true ∧ TargetWellFormed (lit "https://x.com:8443/a?b=c#d") :=
  ⟨by decide +kernel, (urlParse_target_iff _ (by decide +kernel)).mpr (by decide +kernel)⟩

theorem urlParse_target_broken :
    (urlParse (lit "https://x.com?q")).ok = true ∧ (urlParse (lit "https://x.com?q")).path = lit "?q" ∧
      h1SessionSubmitRequest (lit "GET") (urlParse (lit "https://x.com?q")).authority
        (urlParse (lit "https://x.com?q")).path [] [] = lit "GET ?q HTTP/1.1\r\nHost: x.com\r\n\r\n" ∧
    (urlParse (lit "https://x.com/ HTTP/1.0")).ok = true ∧
      h1Words (lit "GET " ++ (urlParse (lit "https://x.com/ HTTP/1.0")).path ++ lit " HTTP/1.1") =
        [lit "GET", lit "/", lit "HTTP/1.0", lit "HTTP/1.1"] := by
  decide +kernel

/-! ## Rendered URLs -/

/-- A host as it is written. -/
inductive HostText
  | name (s : Str8)
  | ipv6 (s : Str8)

/-- The host without brackets. -/
def HostText.bare : HostText → Str8
  | .name s => s
  | .ipv6 s => s

def HostText.text : HostText → Str8
  | .name s => s
  | .ipv6 s => 91 :: s ++ [93]

/-- A name holds no colon and no bracket, a literal no closing bracket, and neither an `@`. -/
def HostText.Ok : HostText → Prop
  | .name s => s ≠ [] ∧ ∀ b ∈ s, authorityByte b = true ∧ b ≠ 64 ∧ b ≠ 58 ∧ b ≠ 91 ∧ b ≠ 93
  | .ipv6 s => s ≠ [] ∧ ∀ b ∈ s, authorityByte b = true ∧ b ≠ 64 ∧ b ≠ 93

/-- The parts of a URL. `path` includes the query. -/
structure UrlText where
  https : Bool
  scheme : Str8
  scheme_ok : lower scheme = if https then lit "https" else lit "http"
  userinfo : Option Str8
  userinfo_ok : ∀ ui ∈ userinfo, ∀ b ∈ ui, authorityByte b = true
  host : HostText
  host_ok : host.Ok
  port : Option Str8
  port_ok : ∀ p ∈ port, ∀ b ∈ p, inAuthority b = true ∧ b ≠ 35 ∧ b ≠ 64
  path : Option Str8
  path_ok : ∀ p ∈ path, p.head? = some 47 ∧ ∀ b ∈ p, b ≠ 35 ∧ badPathByte b = false
  fragment : Option Str8

namespace UrlText

variable (t : UrlText)

def userText : Str8 := (t.userinfo.map (· ++ [64])).getD []

def portText : Str8 := (t.port.map (58 :: ·)).getD []

def fragmentText : Str8 := (t.fragment.map (35 :: ·)).getD []

/-- The text of the URL. -/
def render : Str8 :=
  t.scheme ++ lit "://" ++ (t.userText ++ t.host.text ++ t.portText) ++ t.path.getD [] ++ t.fragmentText

def defaultPort : Nat := if t.https then 443 else 80

end UrlText

/-- The port a text denotes: digits with a value up to 65535, or the default when there are none. -/
def portNumber (s : Str8) (dflt : Nat) : Option Nat :=
  if s = [] then some dflt
  else if s.all charIsDigit = true ∧ digitsValue s 0 ≤ 65535 then some (digitsValue s 0)
  else none

/-- The port of a URL: the default when none is written. -/
def UrlText.portValue (t : UrlText) : Option Nat := (t.port.map (portNumber · t.defaultPort)).getD (some t.defaultPort)

/-- `url_parse` gives the parts back, or rejects the URL for its port. -/
def UrlText.RendersBack (t : UrlText) : Prop :=
  match t.portValue with
  | some port => urlParse t.render =
      { ok := true, https := t.https, scheme := t.scheme, host := t.host.bare
        authority := t.host.text ++ t.portText, path := t.path.getD (lit "/"), port := port }
  | none => (urlParse t.render).ok = false

/-- A port text behind a host name whose part after the last colon would do as a port by itself. -/
def UrlText.ColonInPort (t : UrlText) : Prop :=
  ∃ name p a c, t.host = .name name ∧ t.port = some p ∧ p = a ++ 58 :: c ∧ 58 ∉ c ∧
    (∀ b ∈ p, badAuthorityByte b = false) ∧ (portNumber c t.defaultPort).isSome = true

section

variable {s rest host : Str8} {dflt : Nat}

theorem urlParsePortLoop_eq {r : Nat} (hr : r ≤ 65535) : urlParsePortLoop s r =
    if s.all charIsDigit = true ∧ digitsValue s r ≤ 65535 then some (digitsValue s r) else none := by
  induction s generalizing r with
  | nil => simp [urlParsePortLoop, digitsValue, hr]
  | cons c rest ih =>
    have hvalue : digitsValue (c :: rest) r = digitsValue rest (r * 10 + (c.toNat - 48)) := rfl
    rw [urlParsePortLoop, List.all_cons]
    by_cases hc : charIsDigit c = true
    · rw [if_pos hc, hc, Bool.true_and, hvalue]
      dsimp only
      by_cases hbig : r * 10 + (c.toNat - 48) > 65535
      · have hle := le_digitsValue rest (r * 10 + (c.toNat - 48))
        rw [if_pos hbig, if_neg (fun h => by omega)]
      · rw [if_neg hbig, ih (by omega)]
    · rw [if_neg hc, if_neg (fun h => by simp [hc] at h)]

theorem urlParsePort_eq : urlParsePort s dflt = portNumber s dflt := by
  unfold urlParsePort portNumber
  rw [urlParsePortLoop_eq (by omega)]
  simp only [List.isEmpty_iff]

/-- A port that is read is made of digits. -/
theorem colon_not_mem_of_portNumber (h : (portNumber s dflt).isSome = true) : 58 ∉ s := by
  intro hmem
  unfold portNumber at h
  split at h
  · next hnil => rw [hnil] at hmem; cases hmem
  · split at h
    · next hdigits => exact absurd (List.all_eq_true.mp hdigits.1 58 hmem) (by decide)
    · cases h

theorem stripUserinfo_append (hs : 64 ∉ rest) (ui : Str8) : stripUserinfo (ui ++ 64 :: rest) = rest := by
  rw [stripUserinfo, str8RindexOf_append hs]
  show (ui ++ 64 :: rest).drop (ui.length + 1) = rest
  rw [List.append_cons]
  exact List.drop_left' (by simp)

/-- A literal in brackets ends at its bracket, and only a port may follow. -/
theorem splitHostPort_ipv6 (hs : 93 ∉ s) : splitHostPort (91 :: s ++ [93]) dflt = some (s, dflt) ∧
    ∀ p, splitHostPort (91 :: s ++ [93] ++ 58 :: p) dflt = (portNumber p dflt).map (fun port => (s, port)) := by
  have hskip : ∀ t : Str8, (s ++ 93 :: t).drop (s.length + 1) = t := by
    intro t
    rw [List.append_cons]
    exact List.drop_left' (by simp)
  constructor
  · rw [List.cons_append, splitHostPort, str8IndexOf_append hs]
    dsimp only
    rw [hskip, List.take_left]
  · intro p
    rw [List.cons_append, List.cons_append, List.append_assoc, List.singleton_append, splitHostPort,
      str8IndexOf_append hs]
    dsimp only
    rw [hskip, List.take_left, ← urlParsePort_eq]
    rfl

theorem splitHostPort_lastColon {c : Str8} (hhead : (s ++ 58 :: c).head? ≠ some 91) (hc : 58 ∉ c) :
    splitHostPort (s ++ 58 :: c) dflt = (portNumber c dflt).map (fun port => (s, port)) := by
  have hskip : (s ++ 58 :: c).drop (s.length + 1) = c := by
    rw [List.append_cons]
    exact List.drop_left' (by simp)
  unfold splitHostPort
  split
  · next inner heq => rw [heq] at hhead; exact absurd rfl hhead
  · rw [str8RindexOf_append hc]
    dsimp only
    rw [hskip, List.take_left, urlParsePort_eq]

theorem splitHostPort_noColon (hhead : s.head? ≠ some 91) (hs : 58 ∉ s) : splitHostPort s dflt = some (s, dflt) := by
  unfold splitHostPort
  split
  · next inner => exact absurd rfl hhead
  · rw [str8RindexOf_eq_none.mpr hs]

theorem exists_last_colon (h : 58 ∈ s) : ∃ a c, s = a ++ 58 :: c ∧ 58 ∉ c := by
  induction s with
  | nil => cases h
  | cons b s ih =>
    by_cases hs : 58 ∈ s
    · obtain ⟨a, c, rfl, hc⟩ := ih hs
      exact ⟨b :: a, c, rfl, hc⟩
    · rcases List.mem_cons.mp h with rfl | h
      · exact ⟨[], s, rfl, hs⟩
      · exact absurd h hs

end

/-! ## The parts of a rendered URL -/

namespace UrlText

variable (t : UrlText)

/-- The authority of the text, with the user info. -/
def authText : Str8 := t.userText ++ t.host.text ++ t.portText

theorem host_bytes : ∀ b ∈ t.host.text, authorityByte b = true ∧ b ≠ 64 := by
  have hok := t.host_ok
  intro b hb
  cases hh : t.host with
  | name s =>
    rw [hh] at hok hb
    exact ⟨(hok.2 b hb).1, (hok.2 b hb).2.1⟩
  | ipv6 s =>
    rw [hh] at hok hb
    simp only [HostText.text, List.mem_append, List.mem_cons, List.not_mem_nil, or_false] at hb
    rcases hb with (rfl | hb) | rfl
    · decide
    · exact ⟨(hok.2 b hb).1, (hok.2 b hb).2.1⟩
    · decide

theorem portText_bytes : ∀ b ∈ t.portText, inAuthority b = true ∧ b ≠ 35 ∧ b ≠ 64 := by
  intro b hb
  unfold portText at hb
  cases hp : t.port with
  | none => rw [hp] at hb; cases hb
  | some p =>
    rw [hp] at hb
    rcases List.mem_cons.mp hb with rfl | hb
    · decide
    · exact t.port_ok p hp b hb

theorem authText_bytes : ∀ b ∈ t.authText, inAuthority b = true ∧ b ≠ 35 := by
  have hsplit : ∀ b, authorityByte b = true → inAuthority b = true ∧ b ≠ 35 := by
    intro b h
    rw [authorityByte, Bool.and_eq_true, Bool.and_eq_true, bne_iff_ne] at h
    exact h.1
  intro b hb
  simp only [authText, List.mem_append] at hb
  rcases hb with (hb | hb) | hb
  · unfold userText at hb
    cases hu : t.userinfo with
    | none => rw [hu] at hb; cases hb
    | some ui =>
      rw [hu] at hb
      rcases List.mem_append.mp hb with hb | hb
      · exact hsplit b (t.userinfo_ok ui hu b hb)
      · rw [List.mem_singleton.mp hb]
        decide
  · exact hsplit b (t.host_bytes b hb).1
  · exact ⟨(t.portText_bytes b hb).1, (t.portText_bytes b hb).2.1⟩

theorem authText_any_bad : t.authText.any badAuthorityByte = t.portText.any badAuthorityByte := by
  have hclean : ∀ b, authorityByte b = true → badAuthorityByte b = false := by
    intro b h
    rw [authorityByte, Bool.and_eq_true, Bool.not_eq_true'] at h
    exact h.2
  have huser : t.userText.any badAuthorityByte = false := by
    rw [List.any_eq_false]
    intro b hb
    rw [Bool.not_eq_true]
    unfold userText at hb
    cases hu : t.userinfo with
    | none => rw [hu] at hb; cases hb
    | some ui =>
      rw [hu] at hb
      rcases List.mem_append.mp hb with hb | hb
      · exact hclean b (t.userinfo_ok ui hu b hb)
      · rw [List.mem_singleton.mp hb]
        decide
  have hhost : t.host.text.any badAuthorityByte = false := by
    rw [List.any_eq_false]
    intro b hb
    rw [Bool.not_eq_true]
    exact hclean b (t.host_bytes b hb).1
  rw [authText, List.any_append, List.any_append, huser, hhost, Bool.false_or, Bool.false_or]

theorem stripUserinfo_authText : stripUserinfo t.authText = t.host.text ++ t.portText := by
  have hno : 64 ∉ t.host.text ++ t.portText := by
    intro h
    rcases List.mem_append.mp h with h | h
    · exact (t.host_bytes 64 h).2 rfl
    · exact (t.portText_bytes 64 h).2.2 rfl
  unfold authText userText
  cases t.userinfo with
  | none => exact stripUserinfo_eq_self hno
  | some ui =>
    rw [List.append_assoc]
    show stripUserinfo (ui ++ [64] ++ (t.host.text ++ t.portText)) = _
    rw [List.append_assoc, List.singleton_append]
    exact stripUserinfo_append hno ui

theorem host_bare_ne_nil : t.host.bare ≠ [] := by
  have hok := t.host_ok
  cases hh : t.host with
  | name s | ipv6 s => rw [hh] at hok; exact hok.1

theorem schemeHttps_scheme : schemeHttps t.scheme = some t.https := by
  have hs := t.scheme_ok
  unfold schemeHttps
  cases hh : t.https with
  | true =>
    rw [hh] at hs
    rw [if_pos (str8MatchCi_iff.mpr (by rw [hs]; rfl))]
  | false =>
    rw [hh] at hs
    rw [if_neg (fun h => by rw [str8MatchCi_iff, hs] at h; exact absurd h (by decide)),
      if_pos (str8MatchCi_iff.mpr (by rw [hs]; rfl))]

theorem colon_not_mem_scheme : 58 ∉ t.scheme := by
  intro h
  have hlow : (58 : UInt8) ∈ lower t.scheme := List.mem_map.mpr ⟨58, h, by decide⟩
  rw [t.scheme_ok] at hlow
  cases hh : t.https with
  | true | false => rw [hh] at hlow; exact absurd hlow (by decide)

theorem urlParse_render : urlParse t.render =
    if t.portText.any badAuthorityByte then { scheme := t.scheme, https := t.https }
    else
      match splitHostPort (t.host.text ++ t.portText) t.defaultPort with
      | none => { scheme := t.scheme, https := t.https, authority := t.host.text ++ t.portText }
      | some (host, port) =>
        if host.isEmpty then { scheme := t.scheme, https := t.https, authority := t.host.text ++ t.portText }
        else { scheme := t.scheme, https := t.https, authority := t.host.text ++ t.portText, host := host
               port := port, ok := true, path := t.path.getD (lit "/") } := by
  have hrender : t.render = t.scheme ++ lit "://" ++ (t.authText ++ t.path.getD [] ++ t.fragmentText) := by
    simp only [render, authText, List.append_assoc]
  -- the pieces that the scans of the parser cut out
  have hpath : ∀ b ∈ t.path.getD [], b ≠ 35 ∧ badPathByte b = false := by
    cases hp : t.path with
    | none => intro b hb; cases hb
    | some p => exact (t.path_ok p hp).2
  have hrest : (t.authText ++ t.path.getD [] ++ t.fragmentText).takeWhile (· != 35) = t.authText ++ t.path.getD [] := by
    apply (takeWhile_append_stop _ _).1
    · intro b hb
      rw [bne_iff_ne]
      rcases List.mem_append.mp hb with hb | hb
      · exact (t.authText_bytes b hb).2
      · exact (hpath b hb).1
    · intro b hb
      unfold fragmentText at hb
      cases hf : t.fragment with
      | none => rw [hf] at hb; cases hb
      | some f => rw [hf] at hb; cases hb; rfl
  obtain ⟨hauth, htail⟩ : (t.authText ++ t.path.getD []).takeWhile inAuthority = t.authText ∧
      (t.authText ++ t.path.getD []).dropWhile inAuthority = t.path.getD [] := by
    apply takeWhile_append_stop
    · exact fun b hb => (t.authText_bytes b hb).1
    · intro b hb
      cases hp : t.path with
      | none => rw [hp] at hb; cases hb
      | some p =>
        rw [hp] at hb
        have hslash : p.head? = some 47 := (t.path_ok p hp).1
        rw [Option.getD_some, hslash] at hb
        cases hb
        rfl
  have hclean : (t.path.getD []).any badPathByte = false := by
    rw [List.any_eq_false]
    intro b hb
    rw [Bool.not_eq_true]
    exact (hpath b hb).2
  have hwhole : (if (t.path.getD []).isEmpty then lit "/" else t.path.getD []) = t.path.getD (lit "/") := by
    cases hp : t.path with
    | none => rfl
    | some p =>
      have hne : p ≠ [] := by
        rintro rfl
        exact absurd (t.path_ok [] hp).1 (by simp)
      simp [hne]
  unfold urlParse
  rw [hrender, splitScheme_append t.colon_not_mem_scheme]
  dsimp only
  rw [t.schemeHttps_scheme]
  dsimp only
  unfold urlParseAuthority
  dsimp only
  rw [hrest, hauth, htail, t.authText_any_bad, hclean, t.stripUserinfo_authText, hwhole]
  rfl

end UrlText

theorem rendersBack_of_split {t : UrlText}
    (h : splitHostPort (t.host.text ++ t.portText) t.defaultPort = t.portValue.map (fun port => (t.host.bare, port)))
    (hclean : t.portValue.isSome = true → t.portText.any badAuthorityByte = false) : t.RendersBack := by
  unfold UrlText.RendersBack
  rw [t.urlParse_render, h]
  cases hv : t.portValue with
  | none =>
    dsimp only [Option.map_none]
    split <;> rfl
  | some port =>
    rw [hv] at hclean
    dsimp only [Option.map_some]
    rw [if_neg (by rw [hclean rfl]; simp), if_neg (by simpa using t.host_bare_ne_nil)]

/-- A port that is read has no byte that the test of the authority refuses. -/
theorem portText_clean {t : UrlText} (h : t.portValue.isSome = true) : t.portText.any badAuthorityByte = false := by
  unfold UrlText.portValue at h
  unfold UrlText.portText
  cases hp : t.port with
  | none => rfl
  | some p =>
    rw [hp] at h
    have hdigits : ∀ b ∈ p, badAuthorityByte b = false := by
      intro b hb
      unfold portNumber at h
      simp only [Option.map_some, Option.getD_some] at h
      split at h
      · next hnil => rw [hnil] at hb; cases hb
      · split at h
        · next hall =>
            have hdigit := List.all_eq_true.mp hall.1 b hb
            simp only [charIsDigit, Bool.and_eq_true, decide_eq_true_eq, UInt8.le_iff_toNat_le] at hdigit
            simp only [badAuthorityByte, Bool.or_eq_false_iff, decide_eq_false_iff_not, UInt8.le_iff_toNat_le,
              beq_eq_false_iff_ne]
            refine ⟨?_, ?_⟩
            · have : (32 : UInt8).toNat = 32 := rfl
              have : (48 : UInt8).toNat = 48 := rfl
              omega
            · rintro rfl
              exact absurd hdigit.2 (by decide)
        · cases h
    show (58 :: p).any badAuthorityByte = false
    rw [List.any_cons, show badAuthorityByte 58 = false from by decide, Bool.false_or, List.any_eq_false]
    intro b hb
    rw [hdigits b hb]
    simp

/-- **`url_parse` inverts the rendering of URLs**, and rejects a bad port, exactly when no port text behind
    a host name hides a second colon. -/
theorem urlParse_render_iff (t : UrlText) : t.RendersBack ↔ ¬ t.ColonInPort := by
  have hok := t.host_ok
  cases hh : t.host with
  | ipv6 s =>
    rw [hh] at hok
    have hbracket : 93 ∉ s := fun h => (hok.2 93 h).2.2 rfl
    have hno : ¬ t.ColonInPort := by
      rintro ⟨name, _, _, _, hname, -⟩
      rw [hh] at hname
      cases hname
    refine iff_of_true (rendersBack_of_split ?_ portText_clean) hno
    rw [hh]
    unfold UrlText.portText UrlText.portValue
    cases t.port with
    | none =>
      show splitHostPort (91 :: s ++ [93] ++ []) t.defaultPort = some (s, t.defaultPort)
      rw [List.append_nil]
      exact (splitHostPort_ipv6 hbracket).1
    | some p => exact (splitHostPort_ipv6 hbracket).2 p
  | name s =>
    rw [hh] at hok
    have hcolon : 58 ∉ s := fun h => (hok.2 58 h).2.2.1 rfl
    have hhead : ∀ rest : Str8, (s ++ rest).head? ≠ some 91 := by
      intro rest h
      obtain ⟨b, s', rfl⟩ := List.exists_cons_of_ne_nil hok.1
      cases h
      exact (hok.2 91 List.mem_cons_self).2.2.2.1 rfl
    cases hp : t.port with
    | none =>
      have hno : ¬ t.ColonInPort := by
        rintro ⟨_, p, _, _, -, hport, -⟩
        rw [hp] at hport
        cases hport
      refine iff_of_true (rendersBack_of_split ?_ portText_clean) hno
      rw [hh, UrlText.portText, UrlText.portValue, hp]
      show splitHostPort (s ++ []) t.defaultPort = some (s, t.defaultPort)
      rw [List.append_nil]
      exact splitHostPort_noColon (by simpa using hhead []) hcolon
    | some p =>
      have hport : t.portText = 58 :: p := by rw [UrlText.portText, hp]; rfl
      have hvalue : t.portValue = portNumber p t.defaultPort := by rw [UrlText.portValue, hp]; rfl
      by_cases hpc : 58 ∈ p
      · -- the port text cannot be a number, and what the parser reads is the part after its last colon
        obtain ⟨a, c, rfl, hc⟩ := exists_last_colon hpc
        have hnone : t.portValue = none := by
          rw [hvalue, ← Option.not_isSome_iff_eq_none]
          intro h
          exact colon_not_mem_of_portNumber h hpc
        have hsplit : splitHostPort (t.host.text ++ t.portText) t.defaultPort =
            (portNumber c t.defaultPort).map (fun port => (s ++ 58 :: a, port)) := by
          have hassoc : s ++ 58 :: (a ++ 58 :: c) = (s ++ 58 :: a) ++ 58 :: c := by simp
          rw [hh, hport]
          show splitHostPort (s ++ 58 :: (a ++ 58 :: c)) t.defaultPort = _
          rw [hassoc]
          exact splitHostPort_lastColon (by rw [List.append_assoc]; exact hhead _) hc
        have hbad : t.portText.any badAuthorityByte = false ↔ ∀ b ∈ a ++ 58 :: c, badAuthorityByte b = false := by
          rw [hport, List.any_cons, show badAuthorityByte 58 = false from by decide, Bool.false_or, List.any_eq_false]
          simp only [Bool.not_eq_true]
        unfold UrlText.RendersBack
        rw [hnone]
        dsimp only
        rw [t.urlParse_render, hsplit]
        constructor
        · rintro hrej ⟨_, p', a', c', -, hp', rfl, hc', hclean, hnum⟩
          rw [hp, Option.some_inj] at hp'
          obtain ⟨rfl, rfl⟩ : a = a' ∧ c = c' := by
            have h1 := str8RindexOf_append hc a
            have h2 := str8RindexOf_append hc' a'
            rw [hp', h2, Option.some_inj] at h1
            have := List.append_inj hp' h1.symm
            exact ⟨this.1, (List.cons.inj this.2).2⟩
          obtain ⟨port, hnum⟩ := Option.isSome_iff_exists.mp hnum
          rw [hnum, hbad.mpr hclean] at hrej
          simp at hrej
        · intro hno
          by_cases hclean : t.portText.any badAuthorityByte = true
          · rw [if_pos hclean]
          · rw [if_neg hclean]
            cases hnum : portNumber c t.defaultPort with
            | none => rfl
            | some port =>
              exact absurd ⟨s, _, a, c, hh, hp, rfl, hc, hbad.mp (by simpa using hclean), by rw [hnum]; rfl⟩ hno
      · have hno : ¬ t.ColonInPort := by
          rintro ⟨_, p', a, c, -, hp', rfl, -⟩
          rw [hp, Option.some_inj] at hp'
          exact hpc (hp' ▸ by simp)
        refine iff_of_true (rendersBack_of_split ?_ portText_clean) hno
        rw [hh, hport, hvalue]
        exact splitHostPort_lastColon (hhead _) hpc

/-- `https://x.com:1:2/`. -/
def twoPorts : UrlText where
  https := true
  scheme := lit "https"
  scheme_ok := by decide
  userinfo := none
  userinfo_ok := by simp
  host := .name (lit "x.com")
  host_ok := by unfold HostText.Ok; decide +kernel
  port := some (lit "1:2")
  port_ok := by decide +kernel
  path := some (lit "/")
  path_ok := by decide +kernel
  fragment := none

theorem urlParse_twoPorts :
    twoPorts.render = lit "https://x.com:1:2/" ∧ twoPorts.portValue = none ∧ (urlParse twoPorts.render).ok = true ∧
      (urlParse twoPorts.render).host = lit "x.com:1" ∧ (urlParse twoPorts.render).port = 2 := by
  decide +kernel

end HolyTls

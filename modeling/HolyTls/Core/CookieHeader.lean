import HolyTls.Core.CookieJar
import HolyTls.H1.Request
import HolyTls.H3.Request

/-!
# `Core.CookieHeader` — which cookies are sent, and in what order (`src/core/cookie.c`)

`cookie_jar_cookie_header` evicts, filters by index, sorts the indices in place and writes the join. What
it is for is said here without any of this: a cookie is sent exactly when it is `Sendable`, the cookies sent
are those entries of the jar, longest path first and otherwise in the order of the jar (`SentOrder`).

The join is undone by `cookie_crumbs` where a protocol sends one field per cookie. For that no part may hold
the separator; the parser of `Set-Cookie` sees to it (`cookieStoreOutcome_pair`), since a name and a value
come from before the first semicolon. Whether the crumbs reach the wire depends on the code that writes the
request (`jar_cookies_on_wire_iff`).
-/

namespace HolyTls

/-! ## Which cookies are sent -/

/-- The path of a request for the purpose of cookies: without the query, and `/` when nothing is left. -/
def cookieRequestPath (path : Str8) : Str8 :=
  let p := path.takeWhile (· != 63)
  if p = [] then lit "/" else p

/-- The path-match of RFC 6265: the paths are equal, or the stored one is a proper part at the front that
    ends where a segment ends. A stored path is never empty there, and an empty one matches nothing here. -/
def PathMatches (reqPath cp : Str8) : Prop :=
  cookieRequestPath reqPath = cp ∨
    cp ≠ [] ∧ ∃ rest, cookieRequestPath reqPath = cp ++ rest ∧ (cp.getLast? = some 47 ∨ rest.head? = some 47)

/-- What a cookie must fulfil to be sent with a request at time `now`. -/
structure Sendable (req : ParsedUrl) (now : Nat) (c : Cookie) : Prop where
  unexpired : c.expiresEpoch = 0 ∨ now < c.expiresEpoch
  domain : if c.hostOnly then lower req.host = lower c.domain else UnderDomain req.host c.domain
  path : PathMatches req.path c.path
  secure : c.secure = true → req.https = true

theorem cookieStripQuery_eq (path : Str8) : cookieStripQuery path = path.takeWhile (· != 63) := by
  unfold cookieStripQuery str8IndexOf str8Prefix
  induction path with
  | nil => rfl
  | cons b rest ih =>
    rw [List.findIdx?_cons]
    by_cases hb : b = 63
    · simp [hb]
    · rw [if_neg (by simpa using hb), List.takeWhile_cons, if_pos (by simpa using hb), ← ih]
      cases rest.findIdx? (· == 63) <;> simp

theorem cookiePathMatch_iff {reqPath cp : Str8} : cookiePathMatch reqPath cp = true ↔ PathMatches reqPath cp := by
  have hpath : (if (cookieStripQuery reqPath).isEmpty then lit "/" else cookieStripQuery reqPath) =
      cookieRequestPath reqPath := by
    rw [cookieStripQuery_eq, cookieRequestPath]
    simp only [List.isEmpty_iff]
  unfold cookiePathMatch PathMatches
  dsimp only
  rw [hpath]
  generalize cookieRequestPath reqPath = p
  by_cases heq : p = cp
  · simp [heq]
  rw [if_neg (by simpa using heq), or_iff_right heq]
  by_cases hnil : cp = []
  · simp [hnil]
  by_cases hpre : cp <+: p
  · obtain ⟨rest, rfl⟩ := hpre
    have hrest : rest ≠ [] := by
      rintro rfl
      exact heq (List.append_nil cp)
    have hlen : ¬ (cp ++ rest).length ≤ cp.length := by
      have := List.length_pos_iff.mpr hrest
      rw [List.length_append]
      omega
    have hnext : (cp ++ rest)[cp.length]? = rest.head? := by
      rw [List.getElem?_append_right (le_refl _), Nat.sub_self, List.head?_eq_getElem?]
    have hstart : str8StartsWith (cp ++ rest) cp = true := by simp [str8StartsWith]
    rw [if_neg (by simpa [hnil] using hlen), if_neg (by simp [hstart]), hnext]
    constructor
    · intro h
      refine ⟨hnil, rest, rfl, ?_⟩
      split at h
      · next hlast => exact .inl (by simpa using hlast)
      · exact .inr (by simpa using h)
    · rintro ⟨-, rest', hsame, hor⟩
      obtain rfl := List.append_cancel_left hsame
      rcases hor with h | h <;> simp [h]
  · have hstart : str8StartsWith p cp = false := by
      rw [← Bool.not_eq_true, str8StartsWith, List.isPrefixOf_iff_prefix]
      exact hpre
    rw [hstart]
    constructor
    · intro h
      simp only [Bool.not_false, if_true, ite_self] at h
      cases h
    · rintro ⟨-, rest, rfl, -⟩
      exact absurd (List.prefix_append cp rest) hpre

/-- The eviction and the filter together decide `Sendable`. -/
theorem sendable_iff {req : ParsedUrl} {now : Nat} {c : Cookie} :
    (!cookieExpired now c && cookieMatches req c) = true ↔ Sendable req now c := by
  have hdomain : (if c.hostOnly then str8MatchCi req.host c.domain else cookieDomainMatch req.host c.domain) = true ↔
      if c.hostOnly then lower req.host = lower c.domain else UnderDomain req.host c.domain := by
    split
    · exact str8MatchCi_iff
    · exact cookieDomainMatch_iff
  have hexpired : (!cookieExpired now c) = true ↔ (c.expiresEpoch = 0 ∨ now < c.expiresEpoch) := by
    simp [cookieExpired]
  have hsecure : (!(c.secure && !req.https)) = true ↔ (c.secure = true → req.https = true) := by
    cases c.secure <;> cases req.https <;> simp
  rw [cookieMatches, Bool.and_eq_true, Bool.and_eq_true, Bool.and_eq_true, hexpired, hdomain, cookiePathMatch_iff,
    hsecure]
  constructor
  · rintro ⟨hu, ⟨hd, hp⟩, hs⟩
    exact ⟨hu, hd, hp, hs⟩
  · rintro ⟨hu, hd, hp, hs⟩
    exact ⟨hu, ⟨hd, hp⟩, hs⟩

instance (req : ParsedUrl) (now : Nat) (c : Cookie) : Decidable (Sendable req now c) :=
  decidable_of_iff _ sendable_iff

/-- The entries of a jar that are to be sent, in the order of the jar. -/
def sendable (jar : CookieJar) (req : ParsedUrl) (now : Nat) : List Cookie :=
  jar.v.filter (fun c => Sendable req now c)

/-! ## The order they are sent in -/

/-- `sent` holds the cookies of `cs`: longest path first, and those of one length in the order of `cs`. -/
structure SentOrder (cs sent : List Cookie) : Prop where
  perm : sent.Perm cs
  sorted : sent.Pairwise (fun a b => b.path.length ≤ a.path.length)
  stable : ∀ n, sent.filter (fun c => c.path.length = n) = cs.filter (fun c => c.path.length = n)

theorem insertByPath_perm (c : Cookie) (done : List Cookie) : (insertByPath c done).Perm (c :: done) := by
  induction done with
  | nil => exact List.Perm.refl _
  | cons d done ih =>
    unfold insertByPath
    split
    · exact (ih.cons d).trans (List.Perm.swap c d done)
    · exact List.Perm.refl _

theorem insertByPath_sorted (c : Cookie) {done : List Cookie}
    (h : done.Pairwise (fun a b => a.path.length ≤ b.path.length)) :
    (insertByPath c done).Pairwise (fun a b => a.path.length ≤ b.path.length) := by
  induction done with
  | nil => exact List.pairwise_singleton _ c
  | cons d done ih =>
    obtain ⟨hd, hdone⟩ := List.pairwise_cons.mp h
    unfold insertByPath
    by_cases hlt : d.path.length < c.path.length
    · rw [if_pos hlt]
      apply List.pairwise_cons.mpr
      refine ⟨?_, ih hdone⟩
      intro b hb
      rcases mem_insertByPath.mp hb with rfl | hb
      · exact Nat.le_of_lt hlt
      · exact hd b hb
    · rw [if_neg hlt]
      apply List.pairwise_cons.mpr
      refine ⟨?_, h⟩
      intro b hb
      have hle : c.path.length ≤ d.path.length := Nat.le_of_not_lt hlt
      rcases List.mem_cons.mp hb with rfl | hb
      · exact hle
      · exact Nat.le_trans hle (hd b hb)

/-- Among the cookies of one path length, the new one is the last to be sent. -/
theorem insertByPath_filter (c : Cookie) (done : List Cookie) (n : Nat) :
    (insertByPath c done).filter (fun b => b.path.length = n) = (c :: done).filter (fun b => b.path.length = n) := by
  induction done with
  | nil => rfl
  | cons d done ih =>
    unfold insertByPath
    by_cases hlt : d.path.length < c.path.length
    · rw [if_pos hlt, List.filter_cons, ih]
      -- `d` was passed, so its path is shorter and the two are not in the same class
      by_cases hc : c.path.length = n
      · have hd : ¬ d.path.length = n := by omega
        simp [hc, hd]
      · simp [hc, List.filter_cons]
    · rw [if_neg hlt]

/-- The sort, as far as it has come: `done` holds the cookies sorted so far, last one first. -/
theorem foldl_insertByPath (cs done : List Cookie) (hdone : done.Pairwise (fun a b => a.path.length ≤ b.path.length)) :
    let out := cs.foldl (fun done c => insertByPath c done) done
    out.Perm (cs.reverse ++ done) ∧ out.Pairwise (fun a b => a.path.length ≤ b.path.length) ∧
      ∀ n, out.filter (fun c => c.path.length = n) = (cs.reverse ++ done).filter (fun c => c.path.length = n) := by
  induction cs generalizing done with
  | nil => exact ⟨List.Perm.refl _, hdone, fun _ => rfl⟩
  | cons c cs ih =>
    obtain ⟨hperm, hsorted, hstable⟩ := ih (insertByPath c done) (insertByPath_sorted c hdone)
    have hsplit : (c :: cs).reverse ++ done = cs.reverse ++ c :: done := by simp
    rw [hsplit, List.foldl_cons]
    refine ⟨hperm.trans ((insertByPath_perm c done).append_left cs.reverse), hsorted, ?_⟩
    intro n
    rw [hstable n, List.filter_append, insertByPath_filter, List.filter_append]

theorem sortByPath_sentOrder (cs : List Cookie) : SentOrder cs (sortByPath cs) := by
  obtain ⟨hperm, hsorted, hstable⟩ := foldl_insertByPath cs [] List.Pairwise.nil
  rw [List.append_nil] at hperm
  refine ⟨?_, List.pairwise_reverse.mpr hsorted, ?_⟩
  · exact (List.reverse_perm _).trans (hperm.trans (List.reverse_perm cs))
  · intro n
    rw [sortByPath, List.filter_reverse, hstable n, List.append_nil, List.filter_reverse, List.reverse_reverse]

/-- The cookies the code sorts are the sendable ones. -/
theorem cookiesSent_eq (jar : CookieJar) (req : ParsedUrl) (now : Nat) :
    cookiesSent jar req now = sortByPath (sendable jar req now) := by
  rw [cookiesSent, sendable, cookieJarEvictExpired_v, List.filter_filter]
  congr 1
  apply List.filter_congr
  intro c _
  rw [Bool.eq_iff_iff, decide_eq_true_iff, ← sendable_iff, Bool.and_comm]

/-- `name=value`, as a cookie stands in the header. -/
def Cookie.nameValue (c : Cookie) : Str8 := c.name ++ lit "=" ++ c.value

/-- **The Cookie header holds the right cookies in the right order**: it is the join of the sendable entries
    of the jar, longest path first and otherwise in the order of the jar, and empty when there are none. -/
theorem cookieJarCookieHeader_exact (jar : CookieJar) (req : ParsedUrl) (now : Nat) :
    ∃ sent, SentOrder (sendable jar req now) sent ∧
      (cookieJarCookieHeader jar req now).2 = (lit "; ").intercalate (sent.map Cookie.nameValue) ∧
      ((∀ c ∈ jar.v, ¬ Sendable req now c) → (cookieJarCookieHeader jar req now).2 = []) := by
  have hjoin : (cookieJarCookieHeader jar req now).2 =
      (lit "; ").intercalate ((cookiesSent jar req now).map Cookie.nameValue) := rfl
  refine ⟨cookiesSent jar req now, ?_, hjoin, ?_⟩
  · rw [cookiesSent_eq]
    exact sortByPath_sentOrder _
  · intro hnone
    have hempty : sendable jar req now = [] := by
      rw [sendable, List.filter_eq_nil_iff]
      intro c hc
      simpa using hnone c hc
    rw [hjoin, cookiesSent_eq, hempty]
    rfl

/-! ## The crumbs of the header -/

/-- The crumbs of a join are its parts, when they are not empty and hold no semicolon. -/
theorem crumbsFrom_intercalate {parts : List Str8} (hparts : ∀ p ∈ parts, p ≠ [] ∧ 59 ∉ p) {fuel : Nat}
    (hfuel : parts.length < fuel) : crumbsFrom fuel ((lit "; ").intercalate parts) = parts := by
  induction parts generalizing fuel with
  | nil =>
    obtain ⟨fuel, rfl⟩ := Nat.exists_eq_succ_of_ne_zero (Nat.ne_of_gt hfuel)
    rfl
  | cons p parts ih =>
    obtain ⟨fuel, rfl⟩ := Nat.exists_eq_succ_of_ne_zero (Nat.ne_of_gt (Nat.zero_lt_of_lt hfuel))
    obtain ⟨hne, hsemi⟩ := hparts p List.mem_cons_self
    cases parts with
    | nil =>
      have hnone : str8Find p (lit "; ") = none := by
        rw [str8Find_eq_none]
        rintro ⟨pre, post, rfl⟩
        exact hsemi (by simp [lit])
      rw [show (lit "; ").intercalate [p] = p from by simp [List.intercalate], crumbsFrom, hnone]
      exact if_neg hne
    | cons q parts =>
      have hjoin : (lit "; ").intercalate (p :: q :: parts) =
          p ++ 59 :: [32] ++ (lit "; ").intercalate (q :: parts) := by
        rw [show (59 :: [32] : Str8) = lit "; " from rfl]
        simp [List.intercalate]
      have hfind : str8Find ((lit "; ").intercalate (p :: q :: parts)) (lit "; ") = some p.length := by
        rw [hjoin]
        exact str8Find_append hsemi _
      have htake : ((lit "; ").intercalate (p :: q :: parts)).take p.length = p := by
        rw [hjoin, List.append_assoc, List.take_left]
      have hdrop : ((lit "; ").intercalate (p :: q :: parts)).drop (p.length + 2) =
          (lit "; ").intercalate (q :: parts) := by
        rw [hjoin]
        exact List.drop_left' (by simp)
      rw [crumbsFrom, hfind]
      dsimp only
      rw [htake, hdrop, if_neg hne, ih (fun x hx => hparts x (List.mem_cons_of_mem p hx))
        (Nat.lt_of_succ_lt_succ hfuel)]
      rfl

theorem length_le_intercalate {parts : List Str8} (hparts : ∀ p ∈ parts, p ≠ []) (sep : Str8) :
    parts.length ≤ (sep.intercalate parts).length := by
  induction parts with
  | nil => exact Nat.le_refl 0
  | cons p parts ih =>
    have hp := List.length_pos_iff.mpr (hparts p List.mem_cons_self)
    have hrest := ih (fun x hx => hparts x (List.mem_cons_of_mem p hx))
    cases parts with
    | nil =>
      rw [show sep.intercalate [p] = p from by simp [List.intercalate]]
      exact hp
    | cons q parts =>
      simp only [List.intercalate, List.intersperse_cons_cons, List.flatten_cons, List.length_append,
        List.length_cons] at hrest ⊢
      omega

theorem crumbs_intercalate {parts : List Str8} (hparts : ∀ p ∈ parts, p ≠ [] ∧ 59 ∉ p) :
    crumbs ((lit "; ").intercalate parts) = parts :=
  crumbsFrom_intercalate hparts
    (Nat.lt_succ_of_le (length_le_intercalate (fun p hp => (hparts p hp).1) (lit "; ")))

/-- A stored name is not empty, and neither name nor value holds a semicolon. -/
theorem cookieStoreOutcome_pair {psl : PslTables} {req : ParsedUrl} {sc : Str8} {now : Nat} {c : Cookie}
    (h : cookieStoreOutcome psl req sc now = .put c) : c.name ≠ [] ∧ 59 ∉ c.name ∧ 59 ∉ c.value := by
  have hfirst : 59 ∉ str8Trim (str8ChopByDelim sc 59).1 := by
    intro hmem
    have hchop : (59 : UInt8) ∈ sc.takeWhile (· != 59) := mem_of_mem_str8Trim hmem
    simpa using List.mem_takeWhile_imp hchop
  unfold cookieStoreOutcome at h
  simp only at h
  split at h
  · cases h
  · split at h
    · cases h
    · next hname =>
        split at h
        · cases h
        · split at h
          · cases h
          · cases h
            refine ⟨by simpa using hname, fun hmem => hfirst ?_, fun hmem => hfirst ?_⟩
            · exact List.mem_of_mem_take (mem_of_mem_str8Trim hmem)
            · exact List.mem_of_mem_drop (mem_of_mem_str8Trim hmem)

section

variable {psl : PslTables} {max : Nat} {ops : List JarOp} {req : ParsedUrl} {now : Nat}

/-- What is joined in the header of a jar that was filled by stores alone. -/
theorem nameValue_whole (hput : ∀ c, JarOp.put c ∉ ops) {p : Str8}
    (hp : p ∈ (cookiesSent (jarRun psl (cookieJarInit max) ops) req now).map Cookie.nameValue) : p ≠ [] ∧ 59 ∉ p := by
  obtain ⟨c, hc, rfl⟩ := List.mem_map.mp hp
  obtain ⟨host, pre, reqA, sc, t, post, -, -, hout, -, -⟩ := exists_latestStore hput (mem_cookiesSent hc).1
  obtain ⟨hne, hname, hvalue⟩ := cookieStoreOutcome_pair hout
  refine ⟨by simp [Cookie.nameValue, hne], ?_⟩
  simp [Cookie.nameValue, hname, hvalue, lit]

theorem crumbs_cookieHeader (hput : ∀ c, JarOp.put c ∉ ops) :
    crumbs (cookieJarCookieHeader (jarRun psl (cookieJarInit max) ops) req now).2 =
      (cookiesSent (jarRun psl (cookieJarInit max) ops) req now).map Cookie.nameValue :=
  crumbs_intercalate (fun _ hp => nameValue_whole hput hp)

end

/-! ## The cookies on the wire -/

/-- The pieces of code that write a request: `h1_session_submit_request`, `h2_session_submit_request`,
    `h3_session_request` and `pool_h3_submit`. -/
inductive Wire
  | h1
  | h2
  | h3
  | h3Pool
deriving DecidableEq

/-- The fields that `h2_session_submit_request` lists: its loops are those of `h3_session_request`, with the
    order of the pseudo-headers taken from the HTTP/2 profile. -/
def h2SessionNva (pseudoOrder : List PseudoId) (method scheme authority path : Str8) (headers : HeaderList) :
    List Nv :=
  h3SessionNva ⟨pseudoOrder⟩ method scheme authority path headers

/-- The fields each of them sends for the merged headers. On HTTP/1.1 they are the header lines. -/
def wireFields (w : Wire) (order : List PseudoId) (method authority path : Str8) (headers : HeaderList) : List Nv :=
  match w with
  | .h1 => ⟨lit "Host", authority⟩ :: (h1KeptHeaders headers).map (fun h => ⟨h.name, h.value⟩)
  | .h2 => h2SessionNva order method (lit "https") authority path headers
  | .h3 => h3SessionNva ⟨order⟩ method (lit "https") authority path headers
  | .h3Pool => poolH3Nva ⟨order⟩ method authority path headers

/-- The values of the Cookie fields among them, in order. -/
def cookieValues (w : Wire) (order : List PseudoId) (method authority path : Str8) (headers : HeaderList) :
    List Str8 :=
  ((wireFields w order method authority path headers).filter (fun nv => str8MatchCi nv.name (lit "cookie"))).map
    (fun nv => nv.value)

/-- The Cookie header that a session adds for the value `v` of its jar: none when it is empty. -/
def sessionCookie (v : Str8) : HeaderList := if v = [] then [] else headerListPush [] (lit "cookie") v 0

/-- The Cookie fields one header gives. -/
def headerCookies (w : Wire) (h : Header) : List Str8 :=
  if str8MatchCi h.name (lit "cookie") then
    match w with
    | .h1 | .h3Pool => [h.value]
    | .h2 | .h3 => crumbs h.value
  else []

section

variable {w : Wire} {order : List PseudoId} {method authority path : Str8} {headers : HeaderList}

theorem pseudo_not_cookie {field : PseudoId → Nv} (hfield : ∀ id, (field id).name.head? = some 58) :
    (order.map field).filter (fun nv => str8MatchCi nv.name (lit "cookie")) = [] := by
  rw [List.filter_eq_nil_iff]
  intro nv hnv hcookie
  obtain ⟨id, -, rfl⟩ := List.mem_map.mp hnv
  have hlow := congrArg List.head? (str8MatchCi_iff.mp hcookie)
  rw [lower, List.head?_map, hfield id] at hlow
  exact absurd hlow (by decide)

/-- The Cookie fields are those of the headers, one after the other. -/
theorem cookieValues_eq : cookieValues w order method authority path headers = headers.flatMap (headerCookies w) := by
  -- the field of a header that is passed on as it is
  have hplain : ∀ hs : HeaderList,
      ((hs.map (fun h => h3MakeNv h.name h.value)).filter (fun nv => str8MatchCi nv.name (lit "cookie"))).map
        (fun nv => nv.value) = hs.flatMap (headerCookies .h3Pool) := by
    intro hs
    induction hs with
    | nil => rfl
    | cons h hs ih =>
      rw [List.map_cons, List.filter_cons, List.flatMap_cons, ← ih]
      by_cases hc : str8MatchCi h.name (lit "cookie") = true <;> simp [h3MakeNv, headerCookies, hc]
  -- the fields of a header whose value is split
  have hsplit : ∀ hs : HeaderList,
      ((hs.flatMap headerNvs).filter (fun nv => str8MatchCi nv.name (lit "cookie"))).map (fun nv => nv.value) =
        hs.flatMap (headerCookies .h3) := by
    intro hs
    induction hs with
    | nil => rfl
    | cons h hs ih =>
      rw [List.flatMap_cons, List.filter_append, List.map_append, ih, List.flatMap_cons]
      congr 1
      by_cases hc : str8MatchCi h.name (lit "cookie") = true
      · simp only [headerNvs, headerCookies, hc, if_true, List.filter_map, List.map_map, Function.comp_def, h3MakeNv,
          List.filter_true, List.map_id']
      · simp [headerNvs, headerCookies, hc, h3MakeNv]
  unfold cookieValues wireFields
  cases w with
  | h1 =>
    have hhost : str8MatchCi (lit "Host") (lit "cookie") = false := by decide
    have hkept : (h1KeptHeaders headers).flatMap (headerCookies .h1) = headers.flatMap (headerCookies .h1) := by
      unfold h1KeptHeaders
      induction headers with
      | nil => rfl
      | cons h hs ih =>
        rw [List.filter_cons, List.flatMap_cons]
        split
        · rw [List.flatMap_cons, ih]
        · next hdrop =>
            have hother : ¬ str8MatchCi h.name (lit "cookie") = true := by
              intro hc
              simp [str8MatchCi_of_ne hc (c := lit "host") (by decide),
                str8MatchCi_of_ne hc (c := lit "connection") (by decide)] at hdrop
            rw [ih, headerCookies, if_neg hother, List.nil_append]
    dsimp only
    rw [List.filter_cons, if_neg (by simp [hhost]), ← hkept]
    exact hplain (h1KeptHeaders headers)
  | h2 =>
    dsimp only
    rw [h2SessionNva, h3SessionNva_eq, List.filter_append, pseudo_not_cookie (by rintro ⟨⟩ <;> rfl), List.nil_append]
    exact hsplit headers
  | h3 =>
    dsimp only
    rw [h3SessionNva_eq, List.filter_append, pseudo_not_cookie (by rintro ⟨⟩ <;> rfl), List.nil_append]
    exact hsplit headers
  | h3Pool =>
    dsimp only
    rw [poolH3Nva, List.filter_append, pseudo_not_cookie (by rintro ⟨⟩ <;> rfl), List.nil_append]
    exact hplain headers

end

/-- What the Cookie fields of a request should be: the join on HTTP/1.1, one field per cookie otherwise. -/
def jarFields (w : Wire) (pairs : List Str8) : List Str8 :=
  if w = .h1 then (if pairs = [] then [] else [(lit "; ").intercalate pairs]) else pairs

/-- **The cookies of a jar on the wire.** For a jar filled by stores, `cookie_crumbs` gives back the pairs that
    the header was joined from, and counts them; every writer but `pool_h3_submit` sends them as it should,
    and that one does when there are not two. -/
theorem jar_cookies_on_wire_iff (psl : PslTables) (max : Nat) (ops : List JarOp) (hput : ∀ c, JarOp.put c ∉ ops)
    (req : ParsedUrl) (now : Nat) (w : Wire) (order : List PseudoId) (method authority path : Str8)
    (before after : HeaderList) :
    let jar := jarRun psl (cookieJarInit max) ops
    let header := (cookieJarCookieHeader jar req now).2
    let pairs := (cookiesSent jar req now).map Cookie.nameValue
    ((cookieCrumbs header (cookieCrumbs header 0).2).1 = pairs ∧ (cookieCrumbs header 0).2 = pairs.length ∧
      cookieValues w order method authority path (before ++ sessionCookie header ++ after) =
        cookieValues w order method authority path before ++ jarFields w pairs ++
          cookieValues w order method authority path after) ↔
    (w = .h3Pool → (sendable jar req now).length ≤ 1) := by
  intro jar header pairs
  have hcrumbs : crumbs header = pairs := crumbs_cookieHeader hput
  have hheader : header = (lit "; ").intercalate pairs := rfl
  have hlength : pairs.length = (sendable jar req now).length := by
    rw [List.length_map, cookiesSent_eq]
    exact (sortByPath_sentOrder _).perm.length_eq
  have hempty : header = [] ↔ pairs = [] := by
    constructor
    · intro h
      rw [← hcrumbs, h]
      rfl
    · intro h
      rw [hheader, h]
      rfl
  obtain ⟨hcount, hwrite⟩ := cookieCrumbs_eq header
  rw [hwrite, hcount, hcrumbs, and_iff_right rfl, and_iff_right rfl, cookieValues_eq, cookieValues_eq, cookieValues_eq,
    List.flatMap_append, List.flatMap_append, List.append_cancel_right_eq, List.append_cancel_left_eq]
  have hself : str8MatchCi (lit "cookie") (lit "cookie") = true := by decide
  -- what the writer makes of the one header
  have hone : (sessionCookie header).flatMap (headerCookies w) =
      if pairs = [] then [] else match w with
        | .h1 | .h3Pool => [header]
        | .h2 | .h3 => pairs := by
    unfold sessionCookie
    by_cases h : pairs = []
    · rw [if_pos (hempty.mpr h), if_pos h]
      rfl
    · rw [if_neg (fun h' => h (hempty.mp h')), if_neg h]
      simp only [headerListPush, List.nil_append, List.flatMap_cons, List.flatMap_nil, List.append_nil, headerCookies,
        hself, if_true]
      cases w <;> simp only [hcrumbs]
  rw [hone, jarFields]
  by_cases h : pairs = []
  · have hnone : (sendable jar req now).length ≤ 1 := by
      rw [← hlength, h]
      exact Nat.zero_le 1
    simp [h, hnone]
  · cases w with
    | h1 => simp [h, hheader]
    | h2 | h3 => simp [h]
    | h3Pool =>
      rw [if_neg h, if_neg (by simp)]
      dsimp only
      constructor
      · intro heq _
        rw [← hlength, ← heq]
        exact Nat.le_refl 1
      · intro hle
        have hle := hle rfl
        rw [← hlength] at hle
        obtain ⟨p, hp⟩ := List.length_eq_one_iff.mp (Nat.le_antisymm hle (List.length_pos_iff.mpr h))
        rw [hheader, hp]
        simp [List.intercalate]

/-- A jar with two cookies of one site. -/
def twoStores : List JarOp := storedBy "https://a.com/" "x=1" ++ storedBy "https://a.com/" "y=2; Path=/"

theorem jar_cookies_on_wire_h2 :
    (∀ c, JarOp.put c ∉ twoStores) ∧
      cookieValues .h2 chromeH3Profile.pseudoOrder (lit "GET") (lit "a.com") (lit "/")
        (sessionCookie (cookieJarCookieHeader (jarRun comTables (cookieJarInit 10) twoStores)
          (urlParse (lit "https://a.com/")) 200).2) = [lit "x=1", lit "y=2"] := by
  have hput : ∀ c, JarOp.put c ∉ twoStores := by
    intro c hc
    simp [twoStores, storedBy] at hc
  refine ⟨hput, ?_⟩
  have hwire := (jar_cookies_on_wire_iff comTables 10 twoStores hput (urlParse (lit "https://a.com/")) 200 .h2
    chromeH3Profile.pseudoOrder (lit "GET") (lit "a.com") (lit "/") [] []).mpr (by decide)
  rw [List.nil_append, List.append_nil] at hwire
  rw [hwire.2.2]
  decide +kernel

theorem jar_cookies_whole_in_pool :
    let header := (cookieJarCookieHeader (jarRun comTables (cookieJarInit 10) twoStores)
      (urlParse (lit "https://a.com/")) 200).2
    (cookieCrumbs header (cookieCrumbs header 0).2).1 = [lit "x=1", lit "y=2"] ∧
      cookieValues .h3 chromeH3Profile.pseudoOrder (lit "GET") (lit "a.com") (lit "/") (sessionCookie header) =
        [lit "x=1", lit "y=2"] ∧
      cookieValues .h3Pool chromeH3Profile.pseudoOrder (lit "GET") (lit "a.com") (lit "/") (sessionCookie header) =
        [lit "x=1; y=2"] := by
  decide +kernel

end HolyTls

import HolyTls.Core.Psl
import HolyTls.Core.Url
import HolyTls.Lib.OrdMap

/-!
# `Core.Cookie` — the cookie jar (`src/core/cookie.c`)

The jar of the source is a growable array; here it is the list of its entries with the cap. Its loops
over the array (`cookie_jar_evict_expired`, `cookie_jar_remove`) are the in-place compaction of
`Lib.OrdMap`, its searches are `findIdx?`, and `cookie_jar_remove_at` is `eraseIdx`.

`cookie_jar_store` first decides what a `Set-Cookie` string asks for and then applies it. The decision
does not look at the jar, so it is a function of its own here (`cookieStoreOutcome`): the string is
rejected, deletes the entry of a key, or writes a cookie.
-/

namespace HolyTls

/-! ## HTTP dates -/

def monthNames : List Str8 :=
  ["jan", "feb", "mar", "apr", "may", "jun", "jul", "aug", "sep", "oct", "nov", "dec"].map lit

/-- `cookie_month_of`: 1 to 12, or 0 when the token starts with no month name. -/
def cookieMonthOf (t : Str8) : Nat :=
  if t.length < 3 then 0
  else
    match monthNames.findIdx? (fun m => lower (t.take 3) == m) with
    | some i => i + 1
    | none => 0

/-- `cookie_all_digits`. -/
def cookieAllDigits (t : Str8) : Bool := !t.isEmpty && t.all charIsDigit

/-- `cookie_days_from_civil`: days since 1970-01-01, with C's truncating division. -/
def cookieDaysFromCivil (y m d : Int) : Int :=
  let y := if m ≤ 2 then y - 1 else y
  let era := (if y ≥ 0 then y else y - 399).tdiv 400
  let yoe := y - era * 400
  let doy := (153 * (m + (if m > 2 then -3 else 9)) + 2).tdiv 5 + d - 1
  let doe := yoe * 365 + yoe.tdiv 4 - yoe.tdiv 100 + doy
  era * 146097 + doe - 719468

/-- The fields `http_date_parse` has found so far. -/
structure DateFields where
  time : Option (Nat × Nat × Nat) := none
  day : Option Nat := none
  month : Option Nat := none
  year : Option Nat := none

/-- A byte of a date token. -/
def isDateChar (c : UInt8) : Bool := charIsAlnum c || c == 58

/-- `hh:mm:ss`: exactly two colons and three runs of digits. -/
def dateTime? (tok : Str8) : Option (Nat × Nat × Nat) :=
  if tok.count 58 == 2 then
    let (a, t) := str8ChopByDelim tok 58
    let (b, t) := str8ChopByDelim t 58
    if cookieAllDigits a && cookieAllDigits b && cookieAllDigits t then
      some (str8ToU64 a, str8ToU64 b, str8ToU64 t)
    else none
  else none

/-- One token: it is tried as time, day, month and year, in that order, for the fields still missing. -/
def dateToken (f : DateFields) (tok : Str8) : DateFields :=
  match (if f.time.isNone then dateTime? tok else none) with
  | some t => { f with time := some t }
  | none =>
    if f.day.isNone && tok.length ≤ 2 && cookieAllDigits tok then { f with day := some (str8ToU64 tok) }
    else if f.month.isNone && cookieMonthOf tok != 0 then { f with month := some (cookieMonthOf tok) }
    else if f.year.isNone && 2 ≤ tok.length && tok.length ≤ 4 && cookieAllDigits tok then
      { f with year := some (str8ToU64 tok) }
    else f

/-- The token loop of `http_date_parse`; every round consumes at least one byte. -/
def dateLoop : Nat → Str8 → DateFields → DateFields
  | 0, _, f => f
  | fuel + 1, s, f =>
    let s := s.dropWhile (fun c => !isDateChar c)
    let tok := s.takeWhile isDateChar
    if tok.isEmpty then f else dateLoop fuel (s.dropWhile isDateChar) (dateToken f tok)

/-- `http_date_parse`: epoch seconds, 0 on failure. -/
def httpDateParse (s : Str8) : Nat :=
  match dateLoop s.length s {} with
  | { time := some (hh, mm, ss), day := some day, month := some month, year := some year } =>
    let year := if 70 ≤ year && year ≤ 99 then year + 1900 else if year ≤ 69 then year + 2000 else year
    if day < 1 || day > 31 || month < 1 || month > 12 || hh > 23 || mm > 59 || ss > 59 || year < 1601
    then 0
    else
      let days := cookieDaysFromCivil year month day
      (days * 86400 + hh * 3600 + mm * 60 + ss).toNat
  | _ => 0

/-! ## Matching -/

/-- `cookie_host_is_ip`: a colon, or a non-empty string without letters. -/
def cookieHostIsIp (host : Str8) : Bool :=
  if host.any (· == 58) then true
  else if host.any charIsAlpha || host.isEmpty then false
  else true

/-- `cookie_domain_match`. -/
def cookieDomainMatch (host dom : Str8) : Bool :=
  if str8MatchCi host dom then true
  else if host.length ≤ dom.length then false
  else if !str8MatchCi (str8Skip host (host.length - dom.length)) dom then false
  else host[host.length - dom.length - 1]? == some 46

/-- `cookie_strip_query`. -/
def cookieStripQuery (path : Str8) : Str8 :=
  match str8IndexOf path 63 with
  | some q => str8Prefix path q
  | none => path

/-- `cookie_path_match`. -/
def cookiePathMatch (reqPath cp : Str8) : Bool :=
  let req := cookieStripQuery reqPath
  let req := if req.isEmpty then lit "/" else req
  if str8Match req cp then true
  else if cp.isEmpty || req.length ≤ cp.length then false
  else if !str8StartsWith req cp then false
  else if cp.getLast? == some 47 then true
  else req[cp.length]? == some 47

/-- `cookie_default_path`. -/
def cookieDefaultPath (path : Str8) : Str8 :=
  let path := cookieStripQuery path
  if path.head? != some 47 then lit "/"
  else
    match str8RindexOf path 47 with
    | none => lit "/"
    | some last => if last == 0 then lit "/" else str8Prefix path last

/-! ## The jar -/

/-- `Cookie`. -/
structure Cookie where
  name : Str8
  value : Str8
  domain : Str8
  path : Str8
  expiresEpoch : Nat
  hostOnly : Bool
  secure : Bool
  httpOnly : Bool
  sameSite : Nat
deriving DecidableEq, Repr

/-- What identifies an entry: name and path exactly, domain up to case. -/
def Cookie.key (c : Cookie) : Str8 × Str8 × Str8 := (c.name, lower c.domain, c.path)

/-- `CookieJar`: the entries in order, and the cap. -/
structure CookieJar where
  v : List Cookie
  maxCookies : Nat
deriving DecidableEq, Repr

/-- `cookie_jar_init`, for any cap (the source sets 3000). -/
def cookieJarInit (maxCookies : Nat) : CookieJar := { v := [], maxCookies := maxCookies }

/-- `cookie_jar_remove_at`. -/
def cookieJarRemoveAt (jar : CookieJar) (i : Nat) : CookieJar := { jar with v := jar.v.eraseIdx i }

/-- The test of `cookie_jar_evict_expired`. -/
def cookieExpired (now : Nat) (c : Cookie) : Bool := c.expiresEpoch != 0 && c.expiresEpoch ≤ now

/-- `cookie_jar_evict_expired`. -/
def cookieJarEvictExpired (jar : CookieJar) (now : Nat) : CookieJar :=
  { jar with v := OrdMap.compact (cookieExpired now) jar.v.length 0 jar.v }

/-- `cookie_jar_remove`: the jar without the cookies of that name, and how many there were. -/
def cookieJarRemove (jar : CookieJar) (name : Str8) : CookieJar × Nat :=
  let v := OrdMap.compact (fun c => str8Match c.name name) jar.v.length 0 jar.v
  ({ jar with v := v }, jar.v.length - v.length)

/-- The test of `cookie_jar_find`. -/
def cookieIs (name domain path : Str8) (c : Cookie) : Bool :=
  str8Match c.name name && str8MatchCi c.domain domain && str8Match c.path path

/-- `cookie_jar_find`. -/
def cookieJarFind (jar : CookieJar) (name domain path : Str8) : Option Nat :=
  jar.v.findIdx? (cookieIs name domain path)

/-- `cookie_jar_put`: overwrite the entry of this key, or append while the jar is below its cap. -/
def cookieJarPut (jar : CookieJar) (c : Cookie) : CookieJar :=
  match cookieJarFind jar c.name c.domain c.path with
  | some existing => { jar with v := jar.v.set existing c }
  | none => if jar.v.length ≥ jar.maxCookies then jar else { jar with v := jar.v ++ [c] }

/-! ## Storing a `Set-Cookie` string -/

/-- The local variables of `cookie_jar_store` that the attribute loop sets. -/
structure StoreAttrs where
  domain : Str8
  path : Str8
  hostOnly : Bool := true
  secure : Bool := false
  httpOnly : Bool := false
  hasExpiry : Bool := false
  expiredNow : Bool := false
  maxageSet : Bool := false
  sameSite : Nat := 0
  expires : Nat := 0

/-- An attribute split at its first `=`: name and value, both trimmed; no `=` means an empty value. -/
def splitAttr (attr : Str8) : Str8 × Str8 :=
  match str8IndexOf attr 61 with
  | some e => (str8Trim (str8Prefix attr e), str8Trim (str8Skip attr (e + 1)))
  | none => (attr, [])

/-- A `Domain` value without its leading dot. -/
def stripLeadingDot (d : Str8) : Str8 := if d.head? == some 46 then str8Skip d 1 else d

/-- `Max-Age`: a negative or zero value expires the cookie, any other is added to the clock, in 64 bits. -/
def storeMaxAge (now : Nat) (val : Str8) (st : StoreAttrs) : StoreAttrs :=
  let neg := val.head? == some 45
  let secs := str8ToU64 (if neg then str8Skip val 1 else val)
  let st := { st with maxageSet := true, hasExpiry := true }
  if neg || secs == 0 then { st with expiredNow := true, expires := 1 }
  else { st with expires := (now + secs) % 2 ^ 64, expiredNow := false }

/-- `Expires`: ignored after a `Max-Age`, and when the date does not parse. -/
def storeExpires (now : Nat) (val : Str8) (st : StoreAttrs) : StoreAttrs :=
  if st.maxageSet then st
  else
    let ep := httpDateParse val
    if ep == 0 then st
    else { st with expires := ep, hasExpiry := true, expiredNow := st.expiredNow || ep ≤ now }

/-- One round of the attribute loop, on the trimmed segment `attr`. -/
def storeAttr (now : Nat) (st : StoreAttrs) (attr : Str8) : StoreAttrs :=
  if attr.isEmpty then st
  else
    let (an, val) := splitAttr attr
    if str8MatchCi an (lit "expires") then storeExpires now val st
    else if str8MatchCi an (lit "max-age") then storeMaxAge now val st
    else if str8MatchCi an (lit "domain") then
      let d := stripLeadingDot val
      if d.isEmpty then st else { st with domain := d, hostOnly := false }
    else if str8MatchCi an (lit "path") then
      if val.head? == some 47 then { st with path := val } else st
    else if str8MatchCi an (lit "secure") then { st with secure := true }
    else if str8MatchCi an (lit "httponly") then { st with httpOnly := true }
    else if str8MatchCi an (lit "samesite") then
      { st with sameSite := if str8MatchCi val (lit "strict") then 2
                            else if str8MatchCi val (lit "none") then 3 else 1 }
    else st

/-- `while (av.size)`: chop the next segment off `av`, trim it and run `body` on it. -/
def forEachAttr {σ : Type} (body : σ → Str8 → σ) : Nat → Str8 → σ → σ
  | 0, _, st => st
  | fuel + 1, av, st =>
    if av.isEmpty then st
    else
      let (seg, rest) := str8ChopByDelim av 59
      forEachAttr body fuel rest (body st (str8Trim seg))

/-- What a `Set-Cookie` string asks for. -/
inductive StoreOutcome
  | rejected
  | expired (name domain path : Str8)
  | put (c : Cookie)
deriving DecidableEq, Repr

/-- The `Domain` checks of `cookie_jar_store`: the domain and `host_only` flag to store, `none` where the
    source returns. -/
def storeDomain (psl : PslTables) (host : Str8) (domain : Str8) (hostOnly : Bool) :
    Option (Str8 × Bool) :=
  if hostOnly then some (domain, true)
  else if domain.any (· ≥ 128) then none
  else if cookieHostIsIp host then
    if str8MatchCi domain host then some (host, true) else none
  else if pslIsPublicSuffix psl domain then
    if str8MatchCi domain host then some (host, true) else none
  else if cookieDomainMatch host domain then some (domain, false)
  else none

/-- `cookie_jar_store` up to the point where it touches the jar. -/
def cookieStoreOutcome (psl : PslTables) (req : ParsedUrl) (sc : Str8) (now : Nat) : StoreOutcome :=
  let (first, av) := str8ChopByDelim sc 59
  let nv := str8Trim first
  match str8IndexOf nv 61 with
  | none => .rejected
  | some eq =>
    let name := str8Trim (str8Prefix nv eq)
    let value := str8Trim (str8Skip nv (eq + 1))
    if name.isEmpty then .rejected
    else
      let st := forEachAttr (storeAttr now) av.length av
        { domain := req.host, path := cookieDefaultPath req.path }
      match storeDomain psl req.host st.domain st.hostOnly with
      | none => .rejected
      | some (domain, hostOnly) =>
        if st.expiredNow then .expired name domain st.path
        else .put { name := name, value := value, domain := domain, path := st.path
                    expiresEpoch := if st.hasExpiry then st.expires else 0
                    hostOnly := hostOnly, secure := st.secure, httpOnly := st.httpOnly
                    sameSite := st.sameSite }

/-- `cookie_jar_store`. -/
def cookieJarStore (psl : PslTables) (jar : CookieJar) (req : ParsedUrl) (sc : Str8) (now : Nat) :
    CookieJar :=
  match cookieStoreOutcome psl req sc now with
  | .rejected => jar
  | .expired name domain path =>
    match cookieJarFind jar name domain path with
    | some existing => cookieJarRemoveAt jar existing
    | none => jar
  | .put c => cookieJarPut jar c

/-! ## The `Cookie` header -/

/-- The filter of `cookie_jar_cookie_header`. -/
def cookieMatches (req : ParsedUrl) (c : Cookie) : Bool :=
  (if c.hostOnly then str8MatchCi req.host c.domain else cookieDomainMatch req.host c.domain) &&
  cookiePathMatch req.path c.path && !(c.secure && !req.https)

/-- One round of the insertion sort: `c` moves before the cookies at the end with a shorter path. `done`
    is the sorted prefix, last element first. -/
def insertByPath (c : Cookie) : List Cookie → List Cookie
  | [] => [c]
  | d :: done => if d.path.length < c.path.length then d :: insertByPath c done else c :: d :: done

/-- The insertion sort of `cookie_jar_cookie_header`: longest path first, stable. -/
def sortByPath (cs : List Cookie) : List Cookie :=
  (cs.foldl (fun done c => insertByPath c done) []).reverse

/-- The cookies the header is built from, in the order they are sent. -/
def cookiesSent (jar : CookieJar) (req : ParsedUrl) (now : Nat) : List Cookie :=
  sortByPath ((cookieJarEvictExpired jar now).v.filter (cookieMatches req))

/-- `cookie_jar_cookie_header`: the jar after the eviction, and the header value (empty for no cookie). -/
def cookieJarCookieHeader (jar : CookieJar) (req : ParsedUrl) (now : Nat) : CookieJar × Str8 :=
  (cookieJarEvictExpired jar now,
    (((cookiesSent jar req now).map (fun c => c.name ++ lit "=" ++ c.value)).intersperse (lit "; ")).flatten)

end HolyTls

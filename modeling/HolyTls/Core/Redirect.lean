import HolyTls.Core.Header
import HolyTls.Core.Url

/-!
# `Core.Redirect` — following redirects (`src/core/client.c`, `src/core/sec_fetch.c`)

`redirectPrepareHop` is the one copy of a redirect hop that `client_redirect_cb` and `session_hop_cb`
share: it decides whether a response is followed and rebuilds the carried header list for the next
request. A **chain** is the sequence of requests obtained by answering one request after another.

The second half of the file follows the caller's credential headers (`Authorization`, and a `Cookie` the
caller supplied) along a chain. A cookie is always carried, `Authorization` as long as the *host* stays, so
what is left of them is determined by whether the host changed on the way (`credentials_chain`).
-/

namespace HolyTls

variable {h : Header} {rs : List Response} {newSite : Str8}

/-! ## `Sec-Fetch-Site` along a redirect -/

/-- `sec_reg_domain`: the last two labels of the host. -/
def secRegDomain (host : Str8) : Str8 :=
  match str8RindexOf host 46 with
  | none => host
  | some dot1 =>
    match str8RindexOf (str8Prefix host dot1) 46 with
    | none => host
    | some dot2 => str8Skip host (dot2 + 1)

/-- `sec_fetch_site`: the initiator's relation to the target. -/
def secFetchSite (url referer : Str8) : Str8 :=
  if referer.isEmpty then lit "none"
  else
    let u := urlParse url
    let r := urlParse referer
    if !u.ok || !r.ok then lit "none"
    else if u.https == r.https && u.port == r.port && str8MatchCi u.host r.host then lit "same-origin"
    else if str8MatchCi (secRegDomain u.host) (secRegDomain r.host) then lit "same-site"
    else lit "cross-site"

/-- `sec_site_rank`. -/
def secSiteRank (s : Str8) : Nat :=
  if str8Match s (lit "cross-site") then 3
  else if str8Match s (lit "same-site") then 2
  else if str8Match s (lit "same-origin") then 1
  else 0

/-- `sec_fetch_site_for_redirect`: the last `sec-fetch-site` and `referer` of the carried list decide. The
    empty string means the header is left as it is. -/
def secFetchSiteForRedirect (headers : HeaderList) (nextUrl : Str8) : Str8 :=
  let (site, referer) := headers.foldl (fun (acc : Str8 × Str8) h =>
    if str8MatchCi h.name (lit "sec-fetch-site") then (h.value, acc.2)
    else if str8MatchCi h.name (lit "referer") then (acc.1, h.value)
    else acc) ([], [])
  if site.isEmpty || referer.isEmpty then []
  else if str8Match site (lit "none") || str8Match site (lit "cross-site") then site
  else
    let rel := secFetchSite nextUrl referer
    if secSiteRank rel > secSiteRank site then rel else site

/-! ## One hop -/

/-- `is_redirect_status`. -/
def isRedirectStatus (s : Int) : Bool := s == 301 || s == 302 || s == 303 || s == 307 || s == 308

/-- `redirect_next_method`: the next method, and whether the body is dropped. -/
def redirectNextMethod (m : Method) (status : Int) : Method × Bool :=
  if status == 303 then (.get, true)
  else if (status == 301 || status == 302) && m == .post then (.get, true)
  else (m, false)

/-- `RedirectHop`. -/
structure RedirectHop where
  nextUrl : Str8
  nextMethod : Method
  dropBody : Bool
  headers : HeaderList
deriving DecidableEq, Repr

/-- The value of the first `Location` header, empty when there is none. -/
def location (r : Response) : Str8 := (headerListGetCi r.headers (lit "location")).getD []

/-- One round of the loop that rebuilds the carried list: `none` drops the header. -/
def carryHeader (dropBody cross : Bool) (newSite : Str8) (h : Header) : Option Header :=
  if dropBody &&
      (str8MatchCi h.name (lit "content-length") || str8MatchCi h.name (lit "content-type")) then none
  else if cross && str8MatchCi h.name (lit "authorization") then none
  else if !newSite.isEmpty && str8MatchCi h.name (lit "sec-fetch-site") then
    some { h with value := newSite }
  else some h

/-- The negation of `cross`: the current URL parses and both hosts agree up to case. -/
def sameHost (curUrl nextUrl : Str8) : Bool :=
  (urlParse curUrl).ok && str8MatchCi (urlParse curUrl).host (urlParse nextUrl).host

/-- `redirect_prepare_hop`: `none` where the source returns 0 and the response is delivered instead. -/
def redirectPrepareHop (curUrl : Str8) (m : Method) (carried : HeaderList) (r : Response) :
    Option RedirectHop :=
  if !r.ok || !isRedirectStatus r.status then none
  else
    let loc := location r
    if loc.isEmpty then none
    else
      let next := urlResolve curUrl loc
      let npu := urlParse next
      if !npu.ok || !npu.https then none
      else
        let (nextMethod, dropBody) := redirectNextMethod m r.status
        let newSite := secFetchSiteForRedirect carried next
        some { nextUrl := next, nextMethod := nextMethod, dropBody := dropBody
               headers := carried.filterMap (carryHeader dropBody (!sameHost curUrl next) newSite) }

/-- The part of `RedirectState` (and of `SessionReq`) that a hop changes. -/
structure RedirectState where
  method : Method
  headers : HeaderList
  body : Str8
  curUrl : Str8
  left : Nat
deriving DecidableEq, Repr

/-- The assignments both redirect loops make before they dispatch the next request. -/
def followHop (st : RedirectState) (r : Response) : Option RedirectState :=
  (redirectPrepareHop st.curUrl st.method st.headers r).map fun hop =>
    { method := hop.nextMethod, headers := hop.headers, curUrl := hop.nextUrl, left := st.left - 1
      body := if hop.dropBody then [] else st.body }

/-- `client_redirect_cb`: the next request while the budget lasts, `none` when the response is delivered. -/
def clientRedirectCb (st : RedirectState) (r : Response) : Option RedirectState :=
  if st.left > 0 then followHop st r else none

/-! ## Chains -/

/-- A redirect chain: answering `st` with the first response leads to the next request, and so on. -/
inductive RedirectChain : RedirectState → List Response → List RedirectState → Prop
  | nil (st : RedirectState) : RedirectChain st [] []
  | cons {st st' : RedirectState} {r : Response} {rs : List Response} {sts : List RedirectState}
      (hop : followHop st r = some st') (rest : RedirectChain st' rs sts) :
      RedirectChain st (r :: rs) (st' :: sts)

/-- The URLs a sequence of `Location` values leads to, each resolved against the one before. -/
def hopUrls (url : Str8) : List Response → List Str8
  | [] => []
  | r :: rs => urlResolve url (location r) :: hopUrls (urlResolve url (location r)) rs

/-- An origin: scheme, host (up to case) and port. -/
structure Origin where
  https : Bool
  host : Str8
  port : Nat
deriving DecidableEq, Repr

/-- The origin of a URL, if it has one. -/
def originOfUrl (url : Str8) : Option Origin :=
  let pu := urlParse url
  if pu.ok then some { https := pu.https, host := lower pu.host, port := pu.port } else none

/-! ## Credential headers -/

/-- An `Authorization` header. -/
def isAuthorization (h : Header) : Bool := str8MatchCi h.name (lit "authorization")

/-- A `Cookie` header the caller supplied. An empty one is only the slot that a session fills from its jar,
    outside the carried list. -/
def isCallerCookie (h : Header) : Bool := str8MatchCi h.name (lit "cookie") && !h.value.isEmpty

/-- The caller's credential headers among `headers`, in order. -/
def credentials (headers : HeaderList) : HeaderList :=
  headers.filter (fun h => isAuthorization h || isCallerCookie h)

/-- The caller's cookies among `headers`. -/
def callerCookies (headers : HeaderList) : HeaderList := headers.filter isCallerCookie

/-- `Authorization` is carried exactly while the host stays. -/
theorem carryHeader_authorization {dropBody cross : Bool} (ha : isAuthorization h = true) :
    carryHeader dropBody cross newSite h = if cross then none else some h := by
  have h1 : str8MatchCi h.name (lit "content-length") = false := str8MatchCi_of_ne ha (by decide)
  have h2 : str8MatchCi h.name (lit "content-type") = false := str8MatchCi_of_ne ha (by decide)
  have h3 : str8MatchCi h.name (lit "sec-fetch-site") = false := str8MatchCi_of_ne ha (by decide)
  have h4 : str8MatchCi h.name (lit "authorization") = true := ha
  simp [carryHeader, h1, h2, h3, h4]

theorem carryHeader_cookie {dropBody cross : Bool} (hc : isCallerCookie h = true) :
    carryHeader dropBody cross newSite h = some h := by
  have hn : str8MatchCi h.name (lit "cookie") = true := ((Bool.and_eq_true _ _).mp hc).1
  have h1 : str8MatchCi h.name (lit "content-length") = false := str8MatchCi_of_ne hn (by decide)
  have h2 : str8MatchCi h.name (lit "content-type") = false := str8MatchCi_of_ne hn (by decide)
  have h3 : str8MatchCi h.name (lit "sec-fetch-site") = false := str8MatchCi_of_ne hn (by decide)
  have h4 : str8MatchCi h.name (lit "authorization") = false := str8MatchCi_of_ne hn (by decide)
  simp [carryHeader, h1, h2, h3, h4]

theorem isAuthorization_eq_false_of_cookie (hc : isCallerCookie h = true) : isAuthorization h = false :=
  str8MatchCi_of_ne ((Bool.and_eq_true _ _).mp hc).1 (by decide)

/-- A header that is no credential does not become one: only a `Sec-Fetch-Site` value is rewritten. -/
theorem carryHeader_other {dropBody cross : Bool} {h' : Header} (ha : isAuthorization h = false)
    (hc : isCallerCookie h = false) (hcar : carryHeader dropBody cross newSite h = some h') :
    isAuthorization h' = false ∧ isCallerCookie h' = false := by
  unfold carryHeader at hcar
  split at hcar
  · cases hcar
  · split at hcar
    · cases hcar
    · split at hcar
      · next hsite =>
          cases hcar
          have hn : str8MatchCi h.name (lit "sec-fetch-site") = true :=
            ((Bool.and_eq_true _ _).mp hsite).2
          have hk : str8MatchCi h.name (lit "cookie") = false := str8MatchCi_of_ne hn (by decide)
          exact ⟨ha, by simp [isCallerCookie, hk]⟩
      · cases hcar
        exact ⟨ha, hc⟩

/-- **The credentials after one pass over the carried list**: all of them while the host stays, only the
    cookies once it changes. -/
theorem credentials_filterMap (dropBody cross : Bool) (newSite : Str8) (hs : HeaderList) :
    credentials (hs.filterMap (carryHeader dropBody cross newSite)) =
      if cross then callerCookies hs else credentials hs := by
  induction hs with
  | nil => simp [credentials, callerCookies]
  | cons h hs ih =>
    by_cases ha : isAuthorization h = true
    · have hc : isCallerCookie h = false := by
        by_contra hne
        rw [Bool.not_eq_false] at hne
        rw [isAuthorization_eq_false_of_cookie hne] at ha
        cases ha
      rw [List.filterMap_cons, carryHeader_authorization ha]
      cases cross <;> simp_all [credentials, callerCookies]
    · rw [Bool.not_eq_true] at ha
      by_cases hc : isCallerCookie h = true
      · rw [List.filterMap_cons, carryHeader_cookie hc]
        cases cross <;> simp_all [credentials, callerCookies]
      · rw [Bool.not_eq_true] at hc
        rw [List.filterMap_cons]
        cases hcar : carryHeader dropBody cross newSite h with
        | none => cases cross <;> simp_all [credentials, callerCookies]
        | some h' =>
          obtain ⟨ha', hc'⟩ := carryHeader_other ha hc hcar
          cases cross <;> simp_all [credentials, callerCookies]

theorem callerCookies_credentials (hs : HeaderList) :
    (credentials hs).filter isCallerCookie = callerCookies hs := by
  simp only [credentials, callerCookies, List.filter_filter]
  congr 1
  funext h
  cases isAuthorization h <;> cases isCallerCookie h <;> rfl

theorem callerCookies_sublist (hs : HeaderList) : List.Sublist (callerCookies hs) (credentials hs) := by
  rw [← callerCookies_credentials]
  exact List.filter_sublist

variable {st : RedirectState}

/-- What following a hop does to the URL and to the carried headers. -/
theorem followHop_eq {st' : RedirectState} {r : Response} (h : followHop st r = some st') :
    st'.curUrl = urlResolve st.curUrl (location r) ∧ (urlParse st'.curUrl).ok = true ∧
      ∃ dropBody, st'.headers = st.headers.filterMap
        (carryHeader dropBody (!sameHost st.curUrl st'.curUrl) (secFetchSiteForRedirect st.headers st'.curUrl)) := by
  unfold followHop redirectPrepareHop at h
  split at h
  · cases h
  · simp only at h
    split at h
    · cases h
    · split at h
      · cases h
      · next hok =>
          simp only [Option.map_some, Option.some.injEq] at h
          subst h
          simp only [Bool.or_eq_true, Bool.not_eq_true', not_or, Bool.not_eq_false] at hok
          exact ⟨rfl, hok.1, _, rfl⟩

theorem followHop_spec {st' : RedirectState} {r : Response} (h : followHop st r = some st') :
    st'.curUrl = urlResolve st.curUrl (location r) ∧
    credentials st'.headers =
      if sameHost st.curUrl st'.curUrl then credentials st.headers else callerCookies st.headers := by
  obtain ⟨hurl, -, dropBody, hheaders⟩ := followHop_eq h
  refine ⟨hurl, ?_⟩
  rw [hheaders, credentials_filterMap]
  cases sameHost st.curUrl st'.curUrl <;> rfl

/-- The host changes between the `j`-th URL and the next. -/
def HostChangesAt (urls : List Str8) (j : Nat) : Prop :=
  ∃ a b, urls[j]? = some a ∧ urls[j + 1]? = some b ∧ sameHost a b = false

/-- The host changes somewhere on the way to the URL at position `i + 1`. -/
def HostChangesBy (urls : List Str8) (i : Nat) : Prop := ∃ j ≤ i, HostChangesAt urls j

theorem hostChangesBy_zero {a b : Str8} {urls : List Str8} :
    HostChangesBy (a :: b :: urls) 0 ↔ sameHost a b = false := by
  constructor
  · rintro ⟨j, hj, x, y, hx, hy, hxy⟩
    obtain rfl : j = 0 := by omega
    simp only [List.getElem?_cons_zero, Option.some.injEq, Nat.zero_add, List.getElem?_cons_succ] at hx hy
    rw [hx, hy]
    exact hxy
  · intro h
    exact ⟨0, le_refl 0, a, b, rfl, rfl, h⟩

theorem hostChangesBy_succ {a b : Str8} {urls : List Str8} {i : Nat} :
    HostChangesBy (a :: b :: urls) (i + 1) ↔ sameHost a b = false ∨ HostChangesBy (b :: urls) i := by
  constructor
  · rintro ⟨j, hj, hch⟩
    cases j with
    | zero => exact .inl (hostChangesBy_zero.mp ⟨0, le_refl 0, hch⟩)
    | succ j => exact .inr ⟨j, by omega, hch⟩
  · rintro (h | ⟨j, hj, hch⟩)
    · obtain ⟨j, hj, hch⟩ := hostChangesBy_zero.mpr h
      exact ⟨j, by omega, hch⟩
    · exact ⟨j + 1, by omega, hch⟩

variable {sts : List RedirectState}

/-- **Credentials along a chain.** The hop at position `i` goes to the `i`-th resolved URL and carries the
    first request's credentials, or only its cookies once the host has changed. -/
theorem credentials_chain (h : RedirectChain st rs sts) :
    ∀ (i : Nat) (st' : RedirectState), sts[i]? = some st' →
      (hopUrls st.curUrl rs)[i]? = some st'.curUrl ∧
      (HostChangesBy (st.curUrl :: hopUrls st.curUrl rs) i →
        credentials st'.headers = callerCookies st.headers) ∧
      (¬ HostChangesBy (st.curUrl :: hopUrls st.curUrl rs) i →
        credentials st'.headers = credentials st.headers) := by
  induction h with
  | nil st => intro i st' hi; simp at hi
  | @cons st st₁ r rs sts hop _ ih =>
    intro i st' hi
    obtain ⟨hurl, hcred⟩ := followHop_spec hop
    have hcook : callerCookies st₁.headers = callerCookies st.headers := by
      rw [← callerCookies_credentials, hcred]
      split
      · exact callerCookies_credentials st.headers
      · exact List.filter_eq_self.mpr (fun h hm => (List.mem_filter.mp hm).2)
    simp only [hopUrls, ← hurl]
    cases i with
    | zero =>
      obtain rfl : st₁ = st' := by simpa using hi
      refine ⟨rfl, fun hch => ?_, fun hch => ?_⟩
      · rw [hcred, hostChangesBy_zero.mp hch]; rfl
      · rw [hostChangesBy_zero, Bool.not_eq_false] at hch
        rw [hcred, hch]; rfl
    | succ i =>
      obtain ⟨hu, hdrop, hkeep⟩ := ih i st' (by simpa using hi)
      refine ⟨by simpa using hu, fun hch => ?_, fun hch => ?_⟩
      · by_cases hlater : HostChangesBy (st₁.curUrl :: hopUrls st₁.curUrl rs) i
        · rw [hdrop hlater, hcook]
        · have hfirst := (hostChangesBy_succ.mp hch).resolve_right hlater
          rw [hkeep hlater, hcred, hfirst]; rfl
      · rw [hostChangesBy_succ, not_or, Bool.not_eq_false] at hch
        rw [hkeep hch.2, hcred, hch.1]; rfl

/-- Along a chain, credentials only disappear. -/
theorem credentials_pairwise (h : RedirectChain st rs sts) :
    (st :: sts).Pairwise (fun a b => List.Sublist (credentials b.headers) (credentials a.headers)) := by
  induction h with
  | nil st => simp
  | @cons st st₁ r rs sts hop _ ih =>
    have hstep : List.Sublist (credentials st₁.headers) (credentials st.headers) := by
      rw [(followHop_spec hop).2]
      split
      · exact List.Sublist.refl _
      · exact callerCookies_sublist _
    rw [List.pairwise_cons]
    refine ⟨fun b hb => ?_, ih⟩
    rcases List.mem_cons.mp hb with rfl | hb
    · exact hstep
    · exact ((List.pairwise_cons.mp ih).1 b hb).trans hstep

/-- **No leak along a chain**: a request sent to another origin than the first one carries none of the
    caller's credentials, and a credential that was dropped does not come back on a later hop. -/
def NoCredentialLeak (st : RedirectState) (sts : List RedirectState) : Prop :=
  (∀ st' ∈ sts, originOfUrl st'.curUrl ≠ originOfUrl st.curUrl → credentials st'.headers = []) ∧
  (st :: sts).Pairwise (fun a b => List.Sublist (credentials b.headers) (credentials a.headers))

/-- The condition on the first request and the `Location` values under which nothing leaks: whenever a
    resolved URL has another origin than the first, the caller supplied no cookie, and supplied no
    `Authorization` either unless the host (not only the port) has changed by then. -/
def CredentialsConfined (st : RedirectState) (rs : List Response) : Prop :=
  ∀ (i : Nat) (url : Str8), (hopUrls st.curUrl rs)[i]? = some url →
    originOfUrl url ≠ originOfUrl st.curUrl →
    (∀ h ∈ st.headers, isCallerCookie h = false) ∧
    ((∃ h ∈ st.headers, isAuthorization h = true) →
      HostChangesBy (st.curUrl :: hopUrls st.curUrl rs) i)

theorem callerCookies_eq_nil_iff {hs : HeaderList} :
    callerCookies hs = [] ↔ ∀ h ∈ hs, isCallerCookie h = false := by
  simp [callerCookies, List.filter_eq_nil_iff]

theorem credentials_eq_nil_iff {hs : HeaderList} :
    credentials hs = [] ↔
      (∀ h ∈ hs, isCallerCookie h = false) ∧ ¬ ∃ h ∈ hs, isAuthorization h = true := by
  simp only [credentials, List.filter_eq_nil_iff, Bool.or_eq_true, not_or, Bool.not_eq_true]
  constructor
  · intro h
    refine ⟨fun x hx => (h x hx).2, ?_⟩
    rintro ⟨x, hx, ha⟩
    rw [(h x hx).1] at ha
    cases ha
  · rintro ⟨hc, ha⟩ x hx
    refine ⟨?_, hc x hx⟩
    by_contra hne
    exact ha ⟨x, hx, by simpa using hne⟩

theorem redirectChain_length (h : RedirectChain st rs sts) : (hopUrls st.curUrl rs).length = sts.length := by
  induction h with
  | nil st => rfl
  | cons hop _ ih => rw [hopUrls, ← (followHop_spec hop).1, List.length_cons, ih, List.length_cons]

/-- **A redirect chain leaks no caller credential exactly when** every hop to a foreign origin happens
    without a caller cookie and, if there is an `Authorization` header, after a change of host. -/
theorem noCredentialLeak_iff {st : RedirectState} {rs : List Response} {sts : List RedirectState}
    (h : RedirectChain st rs sts) : NoCredentialLeak st sts ↔ CredentialsConfined st rs := by
  constructor
  · rintro ⟨hleak, -⟩ i url hurl hne
    have hi : i < sts.length := by
      rw [← redirectChain_length h]
      exact (List.getElem?_eq_some_iff.mp hurl).1
    obtain ⟨hu, hdrop, hkeep⟩ := credentials_chain h i sts[i] (List.getElem?_eq_getElem hi)
    obtain rfl : url = sts[i].curUrl := by rw [hurl] at hu; simpa using hu
    have hnil : credentials sts[i].headers = [] := hleak _ (List.getElem_mem hi) hne
    by_cases hch : HostChangesBy (st.curUrl :: hopUrls st.curUrl rs) i
    · rw [hdrop hch] at hnil
      exact ⟨callerCookies_eq_nil_iff.mp hnil, fun _ => hch⟩
    · rw [hkeep hch] at hnil
      obtain ⟨hc, ha⟩ := credentials_eq_nil_iff.mp hnil
      exact ⟨hc, fun hauth => absurd hauth ha⟩
  · intro hconf
    refine ⟨fun st' hm hne => ?_, credentials_pairwise h⟩
    obtain ⟨i, hi⟩ := List.mem_iff_getElem?.mp hm
    obtain ⟨hu, hdrop, hkeep⟩ := credentials_chain h i st' hi
    obtain ⟨hc, ha⟩ := hconf i st'.curUrl hu hne
    by_cases hch : HostChangesBy (st.curUrl :: hopUrls st.curUrl rs) i
    · rw [hdrop hch]
      exact callerCookies_eq_nil_iff.mpr hc
    · rw [hkeep hch]
      exact credentials_eq_nil_iff.mpr ⟨hc, fun hauth => hch (ha hauth)⟩

/-- A GET of the login page with the given headers. -/
def loginRequest (headers : HeaderList) : RedirectState :=
  { method := .get, headers := headers, body := [], curUrl := lit "https://a.test/login", left := 10 }

/-- A `302` to `url`. -/
def movedTo (url : String) : Response :=
  { ok := true, status := 302, headers := [{ name := lit "Location", value := lit url }] }

def basicAuth : Header := { name := lit "Authorization", value := lit "Basic eA==" }

/-- A redirect to another host drops the `Authorization` header, and nothing leaks. -/
theorem noCredentialLeak_other_host :
    RedirectChain (loginRequest [basicAuth]) [movedTo "https://b.test/"]
      [{ loginRequest [] with curUrl := lit "https://b.test/", left := 9 }] ∧
    NoCredentialLeak (loginRequest [basicAuth])
      [{ loginRequest [] with curUrl := lit "https://b.test/", left := 9 }] := by
  have hchain : RedirectChain (loginRequest [basicAuth]) [movedTo "https://b.test/"]
      [{ loginRequest [] with curUrl := lit "https://b.test/", left := 9 }] :=
    .cons rfl (.nil _)
  refine ⟨hchain, (noCredentialLeak_iff hchain).mpr ?_⟩
  intro i url hi _
  obtain rfl : i = 0 := by
    have := (List.getElem?_eq_some_iff.mp hi).1
    simpa [hopUrls] using this
  exact ⟨by decide, fun _ => hostChangesBy_zero.mpr (by decide)⟩

/-- A redirect to another port of the same host is another origin, yet it carries `Authorization`. -/
theorem credentialLeak_other_port :
    RedirectChain (loginRequest [basicAuth]) [movedTo "https://a.test:8443/"]
      [{ loginRequest [basicAuth] with curUrl := lit "https://a.test:8443/", left := 9 }] ∧
    ¬ NoCredentialLeak (loginRequest [basicAuth])
      [{ loginRequest [basicAuth] with curUrl := lit "https://a.test:8443/", left := 9 }] := by
  refine ⟨.cons rfl (.nil _), ?_⟩
  rintro ⟨hleak, -⟩
  have hnil := hleak _ (List.mem_singleton.mpr rfl) (by decide)
  exact absurd hnil (by decide)

end HolyTls

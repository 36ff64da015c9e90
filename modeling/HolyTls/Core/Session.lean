import HolyTls.Core.Cookie
import HolyTls.Core.Redirect
import HolyTls.Lib.Dialogue
import HolyTls.Net.ProxyUrl

/-!
# `Core.Session` — the two redirect drivers (`src/core/session.c`, `src/core/client.c`, `src/core/sec_fetch.c`)

`client_request` follows redirects by itself; `session_request` runs a loop of its own, in which every hop is
a `client_request` that may not follow, so that cookies can be added and absorbed hop by hop. Both are
drivers in the sense of `Lib.Dialogue`: what they say are the arguments of `client_dispatch`, what they hear
are the responses, and the result is the response they deliver.

The two copy the options of a request into different records. With the jar switched off,
`session_follows_client` says what a session does with them: it behaves as the client does, except that it
takes no notice of `no_redirects` and `deadline_ns`.
-/

namespace HolyTls

open Dialogue

/-! ## Requests -/

/-- `FetchMode`. -/
inductive FetchMode
  | default
  | navigate
  | cors
  | noCors
  | sameOrigin
  deriving DecidableEq, Repr

/-- `HttpVersion`. -/
inductive HttpVersion
  | auto
  | h1
  | h2
  | h3
  deriving DecidableEq, Repr

/-- `RequestParams`. The streaming sink `on_chunk` with its `chunk_user` is known by a number. -/
structure RequestParams where
  method : Method := .get
  url : Str8
  headers : HeaderList := []
  body : Str8 := []
  fetchMode : FetchMode := .default
  noRedirects : Bool := false
  deadlineNs : Nat := 0
  proxy : Str8 := []
  onChunk : Option Nat := none
  headerOrder : Str8 := []
  httpVersion : HttpVersion := .auto
  deriving DecidableEq, Repr

/-- The arguments of `client_dispatch`; without a proxy the client's single proxy is meant. -/
structure ClientDispatch where
  method : Method
  url : Str8
  headers : HeaderList
  body : Str8
  deadlineNs : Nat
  proxy : Option ProxyConfig
  onChunk : Option Nat
  headerOrder : Str8
  reqVersion : HttpVersion

/-- A response with the clocks read when it is handled: `uv_hrtime` and `time(0)`. -/
structure Answer where
  hrtime : Nat
  epoch : Nat
  response : Response
  deriving DecidableEq, Repr

/-! ## `Sec-Fetch-*` headers -/

/-- The mode, destination and user values of `sec_fetch_append`. -/
def FetchMode.values : FetchMode → Str8 × Str8 × Str8
  | .cors => (lit "cors", lit "empty", [])
  | .noCors => (lit "no-cors", lit "empty", [])
  | .sameOrigin => (lit "same-origin", lit "empty", [])
  | .navigate => (lit "navigate", lit "document", lit "?1")
  | .default => (lit "navigate", lit "document", lit "?1")

/-- `sec_fetch_append`. -/
def secFetchAppend (out : HeaderList) (mode : FetchMode) (url referer : Str8) : HeaderList :=
  let (m, dest, usr) := mode.values
  let out := headerListPush out (lit "sec-fetch-site") (secFetchSite url referer) 0
  let out := headerListPush out (lit "sec-fetch-mode") m 0
  let out := headerListPush out (lit "sec-fetch-dest") dest 0
  let out := headerListPush out (lit "sec-fetch-user") usr 0
  if mode ≠ .navigate then
    let out := headerListPushNew out (lit "accept") (lit "*/*")
    let out := headerListPushNew out (lit "priority") (lit "u=1, i")
    headerListPushNew out (lit "upgrade-insecure-requests") []
  else out

/-- `sec_fetch_merge`: the last `Referer` counts. -/
def secFetchMerge (mode : FetchMode) (url : Str8) (headers : HeaderList) : HeaderList :=
  let referer := headers.foldl (fun r h => if str8MatchCi h.name (lit "referer") then h.value else r) []
  secFetchAppend headers mode url referer

/-- The headers both drivers start from. -/
def RequestParams.merged (p : RequestParams) : HeaderList :=
  if p.fetchMode ≠ .default then secFetchMerge p.fetchMode p.url p.headers else p.headers

/-! ## The proxy of a request -/

/-- `CLIENT_PROXY_POOL_MAX`. -/
def clientProxyPoolMax : Nat := 64

/-- The rotation pool of a client: `proxy_pool` up to `proxy_pool_count`, and `proxy_rr`. -/
structure ProxyPool where
  entries : List ProxyConfig := []
  rr : Nat := 0
  /-- an entry is what `proxy_parse` gave -/
  parsed : ∀ q ∈ entries, q.Parsed
  length_le : entries.length ≤ clientProxyPoolMax
  rr_le : rr = 0 ∨ rr < entries.length

namespace ProxyPool

theorem rr_lt (pool : ProxyPool) (h : 0 < pool.entries.length) : pool.rr < pool.entries.length := by
  rcases pool.rr_le with hrr | hrr
  · rw [hrr]; exact h
  · exact hrr

/-- An empty pool. -/
def empty : ProxyPool :=
  { parsed := fun _ h => absurd h (List.not_mem_nil), length_le := Nat.zero_le _, rr_le := .inl rfl }

/-- One more entry. -/
def add (pool : ProxyPool) (q : ProxyConfig) (hq : q.Parsed)
    (hmax : pool.entries.length < clientProxyPoolMax) : ProxyPool where
  entries := pool.entries ++ [q]
  rr := pool.rr
  parsed := by
    intro r hr
    rcases List.mem_append.mp hr with hr | hr
    · exact pool.parsed r hr
    · rw [List.mem_singleton.mp hr]; exact hq
  length_le := by rw [List.length_append, List.length_singleton]; exact hmax
  rr_le := by
    rw [List.length_append, List.length_singleton]
    exact pool.rr_le.imp_right Nat.lt_succ_of_lt

/-- The entry in turn. -/
def current (pool : ProxyPool) (h : 0 < pool.entries.length) : ProxyConfig :=
  pool.entries.get ⟨pool.rr, pool.rr_lt h⟩

/-- The cursor moves on. With at most 64 entries its cast to `U8` changes nothing. -/
def rotate (pool : ProxyPool) (h : 0 < pool.entries.length) : ProxyPool where
  entries := pool.entries
  rr := (pool.rr + 1) % pool.entries.length
  parsed := pool.parsed
  length_le := pool.length_le
  rr_le := .inr (Nat.mod_lt _ h)

theorem current_mem (pool : ProxyPool) (h : 0 < pool.entries.length) : pool.current h ∈ pool.entries :=
  List.get_mem _ _

end ProxyPool

/-- What the redirect driver reads of a `Client`: the budget, the timeout, the rotation pool, and the shared
    context for HTTPS proxies with the `verify` it was built for. -/
structure Client where
  maxRedirects : Nat := 0
  timeoutMs : Nat := 0
  proxyPool : ProxyPool := .empty
  proxyVerify : Bool := true
  proxyCtx : Option Bool := none

/-- `client_ensure_proxy_ctx`. -/
def clientEnsureProxyCtx (c : Client) (verify : Bool) : Client :=
  match c.proxyCtx with
  | some _ => c
  | none => { c with proxyCtx := some verify, proxyVerify := verify }

/-- The context is built on demand, for an HTTPS proxy. -/
def clientProxyCtx (c : Client) (q : ProxyConfig) (verify : Bool) : Client :=
  if q.type = .https then clientEnsureProxyCtx c verify else c

/-- `client_add_proxy`: `none` where the source returns 0. -/
def clientAddProxy (c : Client) (proxyUrl : Str8) (verifyProxy : Bool) : Option Client :=
  if hmax : c.proxyPool.entries.length ≥ clientProxyPoolMax then none
  else
    match hq : proxyParse proxyUrl with
    | none => none
    | some q =>
      let pool := c.proxyPool.add q (proxyParse_parsed hq) (Nat.lt_of_not_ge hmax)
      some (clientProxyCtx { c with proxyPool := pool } q verifyProxy)

/-- `client_resolve_proxy`: no proxy where the source returns 0. -/
def clientResolveProxy (c : Client) (overrideUrl : Str8) : Client × Option ProxyConfig :=
  if overrideUrl ≠ [] then
    match proxyParse overrideUrl with
    | none => (c, none)
    | some q => (clientProxyCtx c q c.proxyVerify, some q)
  else if h : 0 < c.proxyPool.entries.length then
    let q := c.proxyPool.current h
    (clientProxyCtx { c with proxyPool := c.proxyPool.rotate h } q c.proxyVerify, some q)
  else (c, none)

/-! ## The client's driver -/

/-- `client_deadline`. -/
def clientDeadline (c : Client) (hrtime : Nat) : Nat :=
  if c.timeoutMs ≠ 0 then (hrtime + c.timeoutMs * 1000000) % 2 ^ 64 else 0

/-- `RedirectState` as a whole: a hop changes the part it extends, the rest stays for the chain. -/
structure ClientChain extends RedirectState where
  deadlineNs : Nat
  proxy : Option ProxyConfig
  headerOrder : Str8
  reqVersion : HttpVersion

/-- The request of the current hop. Redirects never stream. -/
def ClientChain.dispatch (st : ClientChain) : ClientDispatch where
  method := st.method
  url := st.curUrl
  headers := st.headers
  body := st.body
  deadlineNs := st.deadlineNs
  proxy := st.proxy
  onChunk := none
  headerOrder := st.headerOrder
  reqVersion := st.reqVersion

/-- What `client_request` leaves: the client, the request it dispatched, and the chain that waits for the
    answer, or none when the answer goes straight to the caller. -/
structure ClientStart where
  client : Client
  dispatch : ClientDispatch
  chain : Option ClientChain

/-- `client_request`. -/
def clientRequest (c : Client) (p : RequestParams) (hrtime : Nat) : ClientStart :=
  let (c, px) := clientResolveProxy c p.proxy
  let headers := p.merged
  let deadline := if p.deadlineNs ≠ 0 then p.deadlineNs else clientDeadline c hrtime
  if p.noRedirects || c.maxRedirects == 0 || p.onChunk.isSome then
    { client := c, chain := none
      dispatch :=
        { method := p.method, url := p.url, headers := headers, body := p.body, deadlineNs := deadline
          proxy := px, onChunk := p.onChunk, headerOrder := p.headerOrder, reqVersion := p.httpVersion } }
  else
    let st : ClientChain :=
      { method := p.method, headers := headers, body := p.body, curUrl := p.url, left := c.maxRedirects
        deadlineNs := deadline, proxy := px, headerOrder := p.headerOrder, reqVersion := p.httpVersion }
    { client := c, dispatch := st.dispatch, chain := some st }

/-- The answer to a request of the client: `client_redirect_cb` for a chain, the caller's callback without
    one. -/
def clientAnswered (chain : Option ClientChain) (a : Answer) :
    Option ClientChain × Reply ClientDispatch Response :=
  match chain with
  | none => (none, .done a.response)
  | some st =>
    match clientRedirectCb st.toRedirectState a.response with
    | none => (some st, .done a.response)
    | some st' =>
      let next : ClientChain := { st with toRedirectState := st' }
      (some next, .say next.dispatch)

/-- What a request leads to: the requests dispatched, the response delivered if any, and the client after
    it. -/
structure Course where
  hops : List ClientDispatch
  delivered : Option Response
  client : Client

/-- A request of the client and the answers to it. -/
def clientCourse (c : Client) (p : RequestParams) (hrtime : Nat) (answers : List Answer) : Course :=
  let start := clientRequest c p hrtime
  let t := (converse clientAnswered start.chain answers).2
  { hops := start.dispatch :: t.said, delivered := t.result, client := start.client }

/-! ## The session's driver -/

/-- `Session`: the jar and the settings. -/
structure SessionState where
  jar : CookieJar
  cookiesEnabled : Bool := true
  followRedirects : Bool := true
  maxRedirects : Nat := 10

/-- `SessionReq`: a hop changes the part it extends (with the caller's headers, without the jar's cookies). -/
structure SessionReq extends RedirectState where
  deadlineNs : Nat
  proxy : Str8
  onChunk : Option Nat
  headerOrder : Str8

/-- A session's request on its way: the session, the client, the request, and the client's own chain for the
    current hop. -/
structure SessionChain where
  session : SessionState
  client : Client
  req : SessionReq
  hop : Option ClientChain

/-- `*slot = cookie`: the first header of that name gets the value. -/
def headerListSetCi (list : HeaderList) (name value : Str8) : HeaderList :=
  list.replaceF (fun h => if str8MatchCi h.name name then some { h with value := value } else none)

/-- The headers of a hop and the jar after its cookies were taken: an empty slot of the caller is filled, a
    cookie the caller set is left alone. -/
def sessionHopHeaders (s : SessionState) (pu : ParsedUrl) (headers : HeaderList) (epoch : Nat) :
    CookieJar × HeaderList :=
  if s.cookiesEnabled && pu.ok then
    let slot := headerListGetCi headers (lit "cookie")
    if slot.getD [] = [] then
      let (jar, cookie) := cookieJarCookieHeader s.jar pu epoch
      if cookie = [] then (jar, headers)
      else if slot.isSome then (jar, headerListSetCi headers (lit "cookie") cookie)
      else (jar, headerListPush headers (lit "cookie") cookie 0)
    else (s.jar, headers)
  else (s.jar, headers)

/-- The parameters `session_dispatch_hop` hands to the client; what it does not name has its zero value. -/
def SessionReq.params (req : SessionReq) (headers : HeaderList) : RequestParams where
  method := req.method
  url := req.curUrl
  headers := headers
  body := req.body
  noRedirects := true
  deadlineNs := req.deadlineNs
  proxy := req.proxy
  onChunk := req.onChunk
  headerOrder := req.headerOrder

/-- `session_dispatch_hop`. -/
def sessionDispatchHop (s : SessionState) (c : Client) (req : SessionReq) (hrtime epoch : Nat) :
    SessionChain × ClientDispatch :=
  let (jar, headers) := sessionHopHeaders s (urlParse req.curUrl) req.headers epoch
  let start := clientRequest c (req.params headers) hrtime
  ({ session := { s with jar := jar }, client := start.client, req := req, hop := start.chain },
    start.dispatch)

/-- The first part of `session_hop_cb`: every `Set-Cookie` of the response goes to the jar. -/
def sessionAbsorb (psl : PslTables) (s : SessionState) (curUrl : Str8) (a : Answer) : SessionState :=
  let pu := urlParse curUrl
  if s.cookiesEnabled && pu.ok then
    let setCookies := a.response.headers.filter (fun h => str8MatchCi h.name (lit "set-cookie"))
    { s with jar := setCookies.foldl (fun jar h => cookieJarStore psl jar pu h.value a.epoch) s.jar }
  else s

/-- `session_hop_cb`. -/
def sessionHopCb (psl : PslTables) (x : SessionChain) (a : Answer) :
    SessionChain × Reply ClientDispatch Response :=
  let s := sessionAbsorb psl x.session x.req.curUrl a
  let next :=
    if s.followRedirects && !x.req.onChunk.isSome && x.req.left > 0 then
      followHop x.req.toRedirectState a.response
    else none
  match next with
  | none => ({ x with session := s }, .done a.response)
  | some st' =>
    let (x', d) := sessionDispatchHop s x.client { x.req with toRedirectState := st' } a.hrtime a.epoch
    (x', .say d)

/-- The answer to a hop goes through the client's driver first, which hands it to `session_hop_cb` when it
    is done. -/
def sessionAnswered (psl : PslTables) (x : SessionChain) (a : Answer) :
    SessionChain × Reply ClientDispatch Response :=
  match clientAnswered x.hop a with
  | (hop, .say d) => ({ x with hop := hop }, .say d)
  | (_, .done r) => sessionHopCb psl x { a with response := r }

/-- The proxy a session fixes for a chain, as text: the override as it is, or one turn of the pool. -/
def sessionProxy (c : Client) (p : RequestParams) : Client × Str8 :=
  if p.proxy ≠ [] then (c, p.proxy)
  else
    match clientResolveProxy c [] with
    | (c, some q) => (c, proxyToUrl q)
    | (c, none) => (c, [])

/-- The record `session_request` fills. -/
def sessionReqOf (s : SessionState) (c : Client) (p : RequestParams) (proxy : Str8) (hrtime : Nat) :
    SessionReq where
  method := p.method
  headers := p.merged
  body := p.body
  curUrl := p.url
  left := s.maxRedirects
  deadlineNs := clientDeadline c hrtime
  proxy := proxy
  onChunk := p.onChunk
  headerOrder := p.headerOrder

/-- `session_request`. -/
def sessionRequest (s : SessionState) (c : Client) (p : RequestParams) (hrtime epoch : Nat) :
    SessionChain × ClientDispatch :=
  let (c', proxy) := sessionProxy c p
  sessionDispatchHop s c' (sessionReqOf s c p proxy hrtime) hrtime epoch

/-- A request of a session and the answers to it. -/
def sessionCourse (psl : PslTables) (s : SessionState) (c : Client) (p : RequestParams) (hrtime epoch : Nat)
    (answers : List Answer) : Course :=
  let (x, d) := sessionRequest s c p hrtime epoch
  let (y, t) := converse (sessionAnswered psl) x answers
  { hops := d :: t.said, delivered := t.result, client := y.client }

/-! ## The proxy is fixed once -/

section

variable {c : Client} {q : ProxyConfig} {p : RequestParams} {v v' : Bool}

@[simp] theorem clientProxyCtx_maxRedirects : (clientProxyCtx c q v).maxRedirects = c.maxRedirects := by
  unfold clientProxyCtx clientEnsureProxyCtx
  split
  · split <;> rfl
  · rfl

@[simp] theorem clientProxyCtx_timeoutMs : (clientProxyCtx c q v).timeoutMs = c.timeoutMs := by
  unfold clientProxyCtx clientEnsureProxyCtx
  split
  · split <;> rfl
  · rfl

/-- The context is built once. -/
theorem clientProxyCtx_again : clientProxyCtx (clientProxyCtx c q v) q v' = clientProxyCtx c q v := by
  unfold clientProxyCtx
  by_cases hq : q.type = .https
  · simp only [if_pos hq]
    rcases c with ⟨_, _, _, _, ctx⟩
    cases ctx <;> rfl
  · simp only [if_neg hq]

theorem clientResolveProxy_override {url : Str8} (hurl : url ≠ []) (hq : proxyParse url = some q) :
    clientResolveProxy c url = (clientProxyCtx c q c.proxyVerify, some q) := by
  simp only [clientResolveProxy, ne_eq, hurl, not_false_eq_true, if_true, hq]

theorem clientResolveProxy_settings (url : Str8) :
    (clientResolveProxy c url).1.maxRedirects = c.maxRedirects ∧
    (clientResolveProxy c url).1.timeoutMs = c.timeoutMs := by
  unfold clientResolveProxy
  split
  · split <;> simp
  · split <;> simp

/-- Resolving the text a session keeps gives the proxy the client would choose, now and at each later hop. -/
theorem sessionProxy_spec (hpool : p.proxy = [] → ∀ q ∈ c.proxyPool.entries, q.Writable) :
    clientResolveProxy (sessionProxy c p).1 (sessionProxy c p).2 = clientResolveProxy c p.proxy ∧
    clientResolveProxy (clientResolveProxy c p.proxy).1 (sessionProxy c p).2 =
      clientResolveProxy c p.proxy := by
  by_cases hp : p.proxy = []
  · by_cases hlen : 0 < c.proxyPool.entries.length
    · have hmem := c.proxyPool.current_mem hlen
      have hparse : proxyParse (proxyToUrl (c.proxyPool.current hlen)) = some (c.proxyPool.current hlen) :=
        proxyParse_proxyToUrl (c.proxyPool.parsed _ hmem) (hpool hp _ hmem)
      have hne : proxyToUrl (c.proxyPool.current hlen) ≠ [] := by
        intro hnil
        rw [hnil] at hparse
        cases hparse
      have hturn : clientResolveProxy c [] =
          (clientProxyCtx { c with proxyPool := c.proxyPool.rotate hlen } (c.proxyPool.current hlen)
            c.proxyVerify, some (c.proxyPool.current hlen)) := by
        simp only [clientResolveProxy, ne_eq, not_true_eq_false, if_false, dif_pos hlen]
      simp only [sessionProxy, hp, ne_eq, not_true_eq_false, if_false, hturn,
        clientResolveProxy_override hne hparse, clientProxyCtx_again, and_self]
    · have hturn : clientResolveProxy c [] = (c, none) := by
        simp only [clientResolveProxy, ne_eq, not_true_eq_false, if_false, dif_neg hlen]
      simp only [sessionProxy, hp, ne_eq, not_true_eq_false, if_false, hturn, and_self]
  · have hkeep : sessionProxy c p = (c, p.proxy) := by
      simp only [sessionProxy, ne_eq, hp, not_false_eq_true, if_true]
    rw [hkeep]
    refine ⟨rfl, ?_⟩
    cases hq : proxyParse p.proxy with
    | none => simp only [clientResolveProxy, ne_eq, hp, not_false_eq_true, if_true, hq]
    | some q => rw [clientResolveProxy_override hp hq, clientResolveProxy_override hp hq, clientProxyCtx_again]

/-! ## Every hop of a session uses the proxy that was resolved -/

/-- Each entry of the pool comes from a URL that can be written again. -/
def PlainPool (pool : ProxyPool) : Prop := ∀ e ∈ pool.entries, ∃ url, PlainProxyUrl url ∧ proxyParse url = some e

/-- The text a session keeps means the proxy it resolved, whatever the client's pool does meanwhile. -/
theorem sessionProxy_same (hpool : p.proxy = [] → PlainPool c.proxyPool)
    (hq : (clientResolveProxy c p.proxy).2 = some q) (c' : Client) :
    ∃ q', (clientResolveProxy c' (sessionProxy c p).2).2 = some q' ∧ SameProxy q q' := by
  by_cases hp : p.proxy = []
  · rw [hp] at hq
    have htext : (sessionProxy c p).2 = proxyToUrl q := by
      simp only [sessionProxy, hp, ne_eq, not_true_eq_false, if_false]
      rcases hres : clientResolveProxy c [] with ⟨c₁, px⟩
      rw [hres] at hq
      obtain rfl : px = some q := hq
      rfl
    have hmem : q ∈ c.proxyPool.entries := by
      by_cases hlen : 0 < c.proxyPool.entries.length
      · simp only [clientResolveProxy, ne_eq, not_true_eq_false, if_false, dif_pos hlen] at hq
        rw [← Option.some.inj hq]
        exact c.proxyPool.current_mem hlen
      · simp only [clientResolveProxy, ne_eq, not_true_eq_false, if_false, dif_neg hlen] at hq
        cases hq
    obtain ⟨url, hurl, hparsed⟩ := hpool hp q hmem
    obtain ⟨q', hparse, hsame⟩ := proxyParse_back hurl hparsed
    have hne : proxyToUrl q ≠ [] := by
      intro hnil
      rw [hnil] at hparse
      cases hparse
    exact ⟨q', by rw [htext, clientResolveProxy_override hne hparse], hsame⟩
  · have htext : (sessionProxy c p).2 = p.proxy := by
      simp only [sessionProxy, ne_eq, hp, not_false_eq_true, if_true]
    refine ⟨q, ?_, rfl, rfl, rfl, fun _ => ⟨rfl, rfl⟩⟩
    cases hparse : proxyParse p.proxy with
    | none => simp [clientResolveProxy, hp, hparse] at hq
    | some q₁ =>
      rw [clientResolveProxy_override hp hparse] at hq
      rw [htext, clientResolveProxy_override hp hparse]
      exact hq

/-- A hop asks the client to resolve the text of the request, and leaves no chain to the client. -/
theorem sessionDispatchHop_proxy (s : SessionState) (c : Client) (req : SessionReq) (hrtime epoch : Nat) :
    (sessionDispatchHop s c req hrtime epoch).2.proxy = (clientResolveProxy c req.proxy).2 ∧
      (sessionDispatchHop s c req hrtime epoch).1.req = req ∧
      (sessionDispatchHop s c req hrtime epoch).1.hop = none := by
  simp [sessionDispatchHop, clientRequest, SessionReq.params]

theorem sessionAnswered_proxy {psl : PslTables} {x : SessionChain} {a : Answer} {d : ClientDispatch}
    (hhop : x.hop = none) (hsay : (sessionAnswered psl x a).2 = .say d) :
    (∃ c', d.proxy = (clientResolveProxy c' x.req.proxy).2) ∧
      (sessionAnswered psl x a).1.req.proxy = x.req.proxy ∧ (sessionAnswered psl x a).1.hop = none := by
  simp only [sessionAnswered, hhop, clientAnswered, sessionHopCb] at hsay ⊢
  generalize (if (sessionAbsorb psl x.session x.req.curUrl a).followRedirects && !x.req.onChunk.isSome
      && x.req.left > 0 then followHop x.req.toRedirectState a.response else none) = next at hsay ⊢
  cases next with
  | none => cases hsay
  | some st' =>
    obtain ⟨hproxy, hreq, hchain⟩ := sessionDispatchHop_proxy (sessionAbsorb psl x.session x.req.curUrl a) x.client
      { x.req with toRedirectState := st' } a.hrtime a.epoch
    cases hsay
    exact ⟨⟨x.client, hproxy⟩, by rw [hreq], hchain⟩

/-- **A proxy URL that was accepted is written so that it is read back**, with the same type, host and port
    and the same credentials; so every hop of a session, which keeps the proxy as text, uses the proxy that
    was resolved for the request. -/
theorem proxy_url_inverts :
    (∀ url q, PlainProxyUrl url → proxyParse url = some q →
      ∃ q', proxyParse (proxyToUrl q) = some q' ∧ SameProxy q q') ∧
    ∀ (psl : PslTables) (s : SessionState) (c : Client) (p : RequestParams) (hrtime epoch : Nat)
      (answers : List Answer) (q : ProxyConfig), (p.proxy = [] → PlainPool c.proxyPool) →
      (clientResolveProxy c p.proxy).2 = some q →
      ∀ d ∈ (sessionCourse psl s c p hrtime epoch answers).hops, ∃ q', d.proxy = some q' ∧ SameProxy q q' := by
  refine ⟨fun url q hurl hq => proxyParse_back hurl hq, ?_⟩
  intro psl s c p hrtime epoch answers q hpool hq
  have hsame := sessionProxy_same hpool hq
  obtain ⟨hfirst, hreq, hchain⟩ := sessionDispatchHop_proxy s (sessionProxy c p).1
    (sessionReqOf s c p (sessionProxy c p).2 hrtime) hrtime epoch
  intro d hd
  simp only [sessionCourse, sessionRequest, List.mem_cons] at hd
  rcases hd with rfl | hd
  · rw [hfirst]
    exact hsame _
  · refine converse_said (I := fun x => x.hop = none ∧ x.req.proxy = (sessionProxy c p).2)
      (Q := fun d => ∃ q', d.proxy = some q' ∧ SameProxy q q') ?_ ⟨hchain, by rw [hreq]; rfl⟩ answers d hd
    rintro x a d ⟨hnone, htext⟩ hsay
    obtain ⟨⟨c', hproxy⟩, hkept, hnone'⟩ := sessionAnswered_proxy hnone hsay
    refine ⟨⟨hnone', hkept.trans htext⟩, ?_⟩
    rw [hproxy, htext]
    exact hsame c'

end

/-- A proxy with the delimiters of a URL in its credentials and a literal for a host. -/
def literalProxy : ProxyConfig :=
  { type := .http, host := lit "::1", port := 8080, user := lit "u@v", pass := lit "p:[]" }

def literalProxyUrl : Str8 := lit "http://u@v:p:[]@[::1]:8080/x"

theorem literalProxyUrl_plain : PlainProxyUrl literalProxyUrl := by
  refine ⟨by decide, ?_⟩
  intro rest hrest
  obtain rfl : rest = lit "[::1]:8080" := Option.some.inj (hrest.symm.trans rfl)
  exact .inr ⟨lit "::1", by decide, by decide, by decide⟩

def literalClient : Client := (clientAddProxy {} literalProxyUrl true).getD {}

theorem proxy_url_inverts_literal :
    (∃ q', proxyParse (proxyToUrl literalProxy) = some q' ∧ SameProxy literalProxy q') ∧
    ∀ d ∈ (sessionCourse ⟨[], [], []⟩ { jar := cookieJarInit 0 } literalClient { url := lit "https://a/" } 1 0
        [{ hrtime := 2, epoch := 0, response := movedTo "https://b/" }]).hops,
      ∃ q', d.proxy = some q' ∧ SameProxy literalProxy q' := by
  have hentries : literalClient.proxyPool.entries = [literalProxy] := rfl
  refine ⟨proxy_url_inverts.1 literalProxyUrl literalProxy literalProxyUrl_plain rfl,
    proxy_url_inverts.2 _ _ _ _ _ _ _ literalProxy (fun _ e he => ?_) rfl⟩
  rw [hentries, List.mem_singleton] at he
  subst he
  exact ⟨literalProxyUrl, literalProxyUrl_plain, rfl⟩

/-! ## The two drivers side by side -/

section

variable {psl : PslTables} {c c' : Client} {s : SessionState} {req : SessionReq} {x : SessionChain}
  {px : Option ProxyConfig} {hrtime epoch : Nat}

/-- The deadline of a hop: the chain's, or one counted from now. -/
def hopDeadline (c : Client) (deadlineNs hrtime : Nat) : Nat :=
  if deadlineNs ≠ 0 then deadlineNs else clientDeadline c hrtime

/-- The request a hop of a session dispatches while the jar is off. -/
def SessionReq.dispatch (req : SessionReq) (c : Client) (px : Option ProxyConfig) (hrtime : Nat) :
    ClientDispatch where
  method := req.method
  url := req.curUrl
  headers := req.headers
  body := req.body
  deadlineNs := hopDeadline c req.deadlineNs hrtime
  proxy := px
  onChunk := req.onChunk
  headerOrder := req.headerOrder
  reqVersion := .auto

theorem sessionHopHeaders_off (hoff : s.cookiesEnabled = false) (pu : ParsedUrl) (headers : HeaderList) :
    sessionHopHeaders s pu headers epoch = (s.jar, headers) := by
  simp [sessionHopHeaders, hoff]

/-- A hop with the jar off: the caller's headers as they are, and no chain of the client's own. -/
theorem sessionDispatchHop_off (hoff : s.cookiesEnabled = false)
    (hpx : clientResolveProxy c req.proxy = (c', px)) :
    sessionDispatchHop s c req hrtime epoch =
      ({ session := s, client := c', req := req, hop := none }, req.dispatch c' px hrtime) := by
  simp only [sessionDispatchHop, sessionHopHeaders_off hoff, clientRequest, SessionReq.params, hpx,
    Bool.true_or, if_true, RequestParams.merged, ne_eq, not_true_eq_false, if_false]
  rfl

/-- A session's request and a chain of the client (or its single hop) that are at the same point. `c` is the
    client, which no later hop changes. -/
inductive Mirrors (c : Client) : SessionChain → Option ClientChain → Prop
  | single {x : SessionChain} (client : x.client = c) (hop : x.hop = none)
      (off : x.session.cookiesEnabled = false)
      (stays : (x.session.followRedirects && !x.req.onChunk.isSome && x.req.left > 0) = false) :
      Mirrors c x none
  | chain {x : SessionChain} {st : ClientChain} (client : x.client = c) (hop : x.hop = none)
      (off : x.session.cookiesEnabled = false) (follow : x.session.followRedirects = true)
      (sink : x.req.onChunk = none) (state : x.req.toRedirectState = st.toRedirectState)
      (order : x.req.headerOrder = st.headerOrder) (version : st.reqVersion = .auto)
      (proxy : clientResolveProxy c x.req.proxy = (c, st.proxy))
      (deadline : ∀ t, hopDeadline c x.req.deadlineNs t = st.deadlineNs) :
      Mirrors c x (some st)

theorem Mirrors.client_eq {chain : Option ClientChain} (h : Mirrors c x chain) : x.client = c := by
  cases h <;> assumption

theorem sessionAbsorb_off (hoff : s.cookiesEnabled = false) (url : Str8) (a : Answer) :
    sessionAbsorb psl s url a = s := by
  simp [sessionAbsorb, hoff]

theorem sessionAnswered_eq (hop : x.hop = none) (a : Answer) :
    sessionAnswered psl x a = sessionHopCb psl x a := by
  simp only [sessionAnswered, hop, clientAnswered]

/-- A session and a client at the same point reply alike to an answer, and stay so. -/
theorem alike_mirrors (psl : PslTables) (c : Client) :
    Alike (Mirrors c) (sessionAnswered psl) clientAnswered := by
  intro x chain a h
  cases h with
  | single client hop off stays =>
    rw [sessionAnswered_eq hop]
    simp only [sessionHopCb, sessionAbsorb_off off, stays, Bool.false_eq_true, if_false, clientAnswered]
    exact ⟨trivial, .single client hop off stays⟩
  | @chain st client hop off follow sink state order version proxy deadline =>
    rw [sessionAnswered_eq hop]
    simp only [sessionHopCb, sessionAbsorb_off off, follow, sink, Option.isSome_none, Bool.not_false,
      Bool.and_true, Bool.true_and, decide_eq_true_eq, clientAnswered, clientRedirectCb, state]
    cases hnext : (if st.left > 0 then followHop st.toRedirectState a.response else none) with
    | none => exact ⟨rfl, .chain client hop off follow sink state order version proxy deadline⟩
    | some st' =>
      simp only [client]
      rw [sessionDispatchHop_off off (by exact proxy)]
      refine ⟨?_, .chain rfl rfl off follow rfl rfl order version proxy deadline⟩
      simp only [SessionReq.dispatch, ClientChain.dispatch, deadline, order, version]

/-- How many redirects a session follows. -/
def SessionState.budget (s : SessionState) : Nat := if s.followRedirects then s.maxRedirects else 0

variable {p : RequestParams}

theorem sessionRequest_off (hoff : s.cookiesEnabled = false)
    (hpx : clientResolveProxy (sessionProxy c p).1 (sessionProxy c p).2 = (c', px)) :
    sessionRequest s c p hrtime epoch =
      let req := sessionReqOf s c p (sessionProxy c p).2 hrtime
      ({ session := s, client := c', req := req, hop := none }, req.dispatch c' px hrtime) := by
  exact sessionDispatchHop_off hoff (by exact hpx)

/-- A deadline that is not taken for none is kept at every hop. -/
theorem hopDeadline_eq (ht : c'.timeoutMs = c.timeoutMs)
    (hd : c.timeoutMs = 0 ∨ clientDeadline c hrtime ≠ 0) (t : Nat) :
    hopDeadline c' (clientDeadline c hrtime) t = clientDeadline c hrtime := by
  by_cases hne : clientDeadline c hrtime ≠ 0
  · exact if_pos hne
  · have h0 : c.timeoutMs = 0 := hd.resolve_right hne
    simp [hopDeadline, clientDeadline, ht, h0]

/-- What `no_redirects` and `deadline_ns` come to in a session: nothing. -/
def RequestParams.forSession (p : RequestParams) : RequestParams :=
  { p with noRedirects := false, deadlineNs := 0 }

/-- The two drivers start at the same point, with the same request. -/
theorem mirrors_start {url : Str8} (hoff : s.cookiesEnabled = false) (hbudget : s.budget = c.maxRedirects)
    (hversion : p.httpVersion = .auto) (hdeadline : c.timeoutMs = 0 ∨ clientDeadline c hrtime ≠ 0)
    (hres : clientResolveProxy c p.proxy = (c', px)) (hlater : clientResolveProxy c' url = (c', px)) :
    let req := sessionReqOf s c p url hrtime
    let start := clientRequest c p.forSession hrtime
    start.client = c' ∧ start.dispatch = req.dispatch c' px hrtime ∧
      Mirrors c' { session := s, client := c', req := req, hop := none } start.chain := by
  intro req start
  have hmax : c'.maxRedirects = c.maxRedirects := by
    simpa only [hres] using (clientResolveProxy_settings (c := c) p.proxy).1
  have htime : c'.timeoutMs = c.timeoutMs := by
    simpa only [hres] using (clientResolveProxy_settings (c := c) p.proxy).2
  have hkeep := hopDeadline_eq htime hdeadline
  have hnow : clientDeadline c' hrtime = clientDeadline c hrtime := by simp only [clientDeadline, htime]
  have hmerged : p.forSession.merged = p.merged := rfl
  simp only [start, clientRequest, hmerged]
  simp only [RequestParams.forSession, hres, Bool.false_or, ne_eq, not_true_eq_false, if_false, hnow]
  split
  · next hsingle =>
      refine ⟨rfl, ?_, .single rfl rfl hoff ?_⟩
      · simp only [req, SessionReq.dispatch, sessionReqOf, hkeep, hversion]
      · rw [Bool.or_eq_true, beq_iff_eq, hmax, ← hbudget] at hsingle
        rcases hsingle with hnone | hsink
        · -- a budget of 0: the session does not follow, or has no hop left
          unfold SessionState.budget at hnone
          split at hnone <;> simp_all [req, sessionReqOf]
        · simp [req, sessionReqOf, hsink]
  · next hchain =>
      rw [Bool.or_eq_true, beq_iff_eq, not_or, hmax, ← hbudget, Option.not_isSome_iff_eq_none] at hchain
      have hfollow : s.followRedirects = true := by
        by_contra hno
        exact hchain.1 (if_neg hno)
      have hleft : s.maxRedirects = c.maxRedirects := by rw [← hbudget, SessionState.budget, if_pos hfollow]
      refine ⟨rfl, ?_, .chain rfl rfl hoff hfollow hchain.2 ?_ rfl hversion hlater hkeep⟩
      · simp only [req, SessionReq.dispatch, ClientChain.dispatch, sessionReqOf, hkeep, hversion, hchain.2]
      · simp only [req, sessionReqOf, hleft, hmax]

/-- **A session without its jar does what the client does.** For equal budgets, the same hops are dispatched
    and the response of the same hop is delivered as by the client, if it were given the request without
    `no_redirects` and `deadline_ns`. The request leaves the version to the client, the entries of the
    rotation pool can be written as URLs, and the deadline does not wrap around to 0. -/
theorem session_follows_client (psl : PslTables) (s : SessionState) (c : Client) (p : RequestParams)
    (hrtime epoch : Nat) (answers : List Answer)
    (hoff : s.cookiesEnabled = false) (hbudget : s.budget = c.maxRedirects)
    (hversion : p.httpVersion = .auto)
    (hpool : p.proxy = [] → ∀ q ∈ c.proxyPool.entries, q.Writable)
    (hdeadline : c.timeoutMs = 0 ∨ clientDeadline c hrtime ≠ 0) :
    sessionCourse psl s c p hrtime epoch answers = clientCourse c p.forSession hrtime answers := by
  obtain ⟨hfirst, hlater⟩ := sessionProxy_spec hpool
  rcases hres : clientResolveProxy c p.proxy with ⟨c', px⟩
  rw [hres] at hfirst hlater
  obtain ⟨hclient, hdispatch, hmirrors⟩ := mirrors_start hoff hbudget hversion hdeadline hres hlater
  obtain ⟨hsame, hlast⟩ := converse_sim (alike_mirrors psl c') hmirrors answers
  simp only [sessionCourse, clientCourse, sessionRequest_off hoff hfirst, hclient, hdispatch, hsame,
    hlast.client_eq]

end

/-- A session without its jar. -/
def plainSession : SessionState := { jar := cookieJarInit 0, cookiesEnabled := false, maxRedirects := 1 }

/-- A client with a timeout and one proxy in its rotation pool. -/
def rotatingClient : Client :=
  (clientAddProxy { maxRedirects := 1, timeoutMs := 1000 } (lit "http://u:p@h:8080") true).getD {}

theorem rotatingClient_entries :
    rotatingClient.proxyPool.entries =
      [{ type := .http, host := lit "h", port := 8080, user := lit "u", pass := lit "p" }] := by
  rfl

/-- A response moved elsewhere, read at second 0. -/
def movedAnswer (url : String) : Answer := { hrtime := 2, epoch := 0, response := movedTo url }

theorem session_follows_client_rotating :
    sessionCourse ⟨[], [], []⟩ plainSession rotatingClient { url := lit "https://a/" } 1 0
        [movedAnswer "https://b/", movedAnswer "https://c/"] =
      clientCourse rotatingClient { url := lit "https://a/" } 1
        [movedAnswer "https://b/", movedAnswer "https://c/"] ∧
    (clientCourse rotatingClient { url := lit "https://a/" } 1
        [movedAnswer "https://b/", movedAnswer "https://c/"]).hops.map (·.url) =
      [lit "https://a/", lit "https://b/"] := by
  refine ⟨session_follows_client _ _ _ _ _ _ _ rfl rfl rfl ?_ (.inr (by decide)), by decide⟩
  intro _ q hq
  rw [rotatingClient_entries, List.mem_singleton] at hq
  subst hq
  exact ⟨by decide, by decide, by decide⟩

/-- The client keeps to a single hop when it is told to; the session follows. -/
theorem session_ignores_no_redirects :
    let c : Client := { maxRedirects := 1 }
    let p : RequestParams := { url := lit "https://a/", noRedirects := true }
    plainSession.cookiesEnabled = false ∧ plainSession.budget = c.maxRedirects ∧
    (clientCourse c p 1 [movedAnswer "https://b/"]).hops.length = 1 ∧
    (sessionCourse ⟨[], [], []⟩ plainSession c p 1 0 [movedAnswer "https://b/"]).hops.length = 2 := by
  decide

end HolyTls

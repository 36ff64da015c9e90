import HolyTls.Core.Header

/-!
# `H3.Request` — HTTP/3 requests on the wire (`src/h3/h3_session.c`, `src/core/pool.c`)

A request is written by one of two pieces of code: `h3_session_request` for a connection of its own and
`pool_h3_submit` for a pooled connection. Both list the fields for the QPACK encoder, pseudo-headers first,
and wrap the encoded section into a HEADERS frame and the body into a DATA frame. The encoder belongs to
nghttp3; the frames are given the prefix and the section it makes.

The frames agree for every section and body. The fields do not: only `h3_session_request` gives each crumb
of a Cookie header a field of its own, so the two agree exactly when there is nothing to split
(`pool_h3_fields_iff`).
-/

namespace HolyTls

/-- `PseudoId`. -/
inductive PseudoId
  | method
  | scheme
  | authority
  | path
deriving DecidableEq

/-- The fields of an `Http3Profile` that requests use. -/
structure Http3Profile where
  pseudoOrder : List PseudoId

/-- `nghttp3_nv`, without the flags, which are always those of a plain field. -/
structure Nv where
  name : Str8
  value : Str8
deriving DecidableEq

/-- `h3_make_nv`. -/
def h3MakeNv (name value : Str8) : Nv := ⟨name, value⟩

/-- `method_str`. -/
def methodStr : Method → Str8
  | .get => lit "GET"
  | .post => lit "POST"
  | .put => lit "PUT"
  | .delete => lit "DELETE"
  | .head => lit "HEAD"
  | .patch => lit "PATCH"
  | .options => lit "OPTIONS"

/-- A call of `quic_stream_send` on the request stream. -/
structure StreamSend where
  data : Str8
  fin : Bool
deriving DecidableEq

/-- `quic_varint_put`. -/
def quicVarintPut (v : Nat) : Str8 :=
  if v < 0x40 then [v.toUInt8]
  else if v < 0x4000 then [(0x40 ||| v >>> 8).toUInt8, v.toUInt8]
  else if v < 0x40000000 then
    [(0x80 ||| v >>> 24).toUInt8, (v >>> 16).toUInt8, (v >>> 8).toUInt8, v.toUInt8]
  else
    [(0xc0 ||| v >>> 56).toUInt8, (v >>> 48).toUInt8, (v >>> 40).toUInt8, (v >>> 32).toUInt8,
     (v >>> 24).toUInt8, (v >>> 16).toUInt8, (v >>> 8).toUInt8, v.toUInt8]

/-! ## The pool -/

/-- The fields that `pool_h3_submit` lists for the merged headers. -/
def poolH3Nva (prof : Http3Profile) (method authority path : Str8) (headers : HeaderList) : List Nv :=
  prof.pseudoOrder.map (fun
    | .method => h3MakeNv (lit ":method") method
    | .authority => h3MakeNv (lit ":authority") authority
    | .scheme => h3MakeNv (lit ":scheme") (lit "https")
    | .path => h3MakeNv (lit ":path") path) ++
  headers.map (fun h => h3MakeNv h.name h.value)

/-- The frames that `pool_h3_submit` sends. -/
def poolH3Frames (pbuf rbuf body : Str8) : List StreamSend :=
  let hasBody := body.length ≠ 0
  { data := quicVarintPut 0x01 ++ quicVarintPut (pbuf.length + rbuf.length) ++ pbuf ++ rbuf, fin := !hasBody } ::
    if hasBody then [{ data := quicVarintPut 0x00 ++ quicVarintPut body.length ++ body, fin := true }] else []

/-! ## A connection of its own -/

/-- The fields that `h3_session_request` lists. -/
def h3SessionNva (prof : Http3Profile) (method scheme authority path : Str8) (headers : HeaderList) : List Nv :=
  prof.pseudoOrder.map (fun
    | .method => h3MakeNv (lit ":method") method
    | .authority => h3MakeNv (lit ":authority") authority
    | .scheme => h3MakeNv (lit ":scheme") scheme
    | .path => h3MakeNv (lit ":path") path) ++
  headers.flatMap (fun h =>
    if str8MatchCi h.name (lit "cookie") then
      let cc := (cookieCrumbs h.value 0).2
      (cookieCrumbs h.value cc).1.map (h3MakeNv h.name)
    else [h3MakeNv h.name h.value])

/-- The frames that `h3_session_request` sends. -/
def h3SessionFrames (pbuf rbuf body : Str8) : List StreamSend :=
  let hasBody := body.length ≠ 0
  { data := quicVarintPut 0x01 ++ quicVarintPut (pbuf.length + rbuf.length) ++ pbuf ++ rbuf, fin := !hasBody } ::
    if hasBody then [{ data := quicVarintPut 0x00 ++ quicVarintPut body.length ++ body, fin := true }] else []

/-! ## Where they agree -/

/-- Nothing of a Cookie header is split or left out. -/
def Uncrumbled (headers : HeaderList) : Prop :=
  ∀ h ∈ headers, str8MatchCi h.name (lit "cookie") = true → h.value ≠ [] ∧ ¬ lit "; " <:+: h.value

section

variable {prof : Http3Profile} {method scheme authority path body : Str8} {headers : HeaderList} {h : Header}

/-- The fields of one regular header. -/
def headerNvs (h : Header) : List Nv :=
  if str8MatchCi h.name (lit "cookie") then (crumbs h.value).map (h3MakeNv h.name) else [h3MakeNv h.name h.value]

theorem h3SessionNva_eq : h3SessionNva prof method scheme authority path headers =
    prof.pseudoOrder.map (fun
      | .method => h3MakeNv (lit ":method") method
      | .authority => h3MakeNv (lit ":authority") authority
      | .scheme => h3MakeNv (lit ":scheme") scheme
      | .path => h3MakeNv (lit ":path") path) ++ headers.flatMap headerNvs := by
  unfold h3SessionNva headerNvs
  simp only [(cookieCrumbs_eq _).2]

/-- A header of which nothing is split is one field. -/
theorem headerNvs_eq (hh : str8MatchCi h.name (lit "cookie") = true → h.value ≠ [] ∧ ¬ lit "; " <:+: h.value) :
    headerNvs h = [h3MakeNv h.name h.value] := by
  unfold headerNvs
  split
  · next hcookie =>
      rw [crumbs_eq_singleton.mpr (hh hcookie)]
      rfl
  · rfl

theorem mem_headerNvs {nv : Nv} (hnv : nv ∈ headerNvs h) (hcookie : str8MatchCi nv.name (lit "cookie") = true) :
    nv.value ≠ [] ∧ ¬ lit "; " <:+: nv.value := by
  unfold headerNvs at hnv
  split at hnv
  · obtain ⟨c, hc, rfl⟩ := List.mem_map.mp hnv
    exact crumbsFrom_whole hc
  · next hother =>
      rw [List.mem_singleton.mp hnv] at hcookie
      exact absurd hcookie hother

theorem flatMap_headerNvs_iff :
    headers.map (fun h => h3MakeNv h.name h.value) = headers.flatMap headerNvs ↔ Uncrumbled headers := by
  constructor
  · intro heq h hh hcookie
    have hmem : h3MakeNv h.name h.value ∈ headers.flatMap headerNvs := heq ▸ List.mem_map_of_mem hh
    obtain ⟨h', -, hnv⟩ := List.mem_flatMap.mp hmem
    exact mem_headerNvs hnv hcookie
  · intro hall
    induction headers with
    | nil => rfl
    | cons h rest ih =>
      rw [List.map_cons, List.flatMap_cons, headerNvs_eq (hall h List.mem_cons_self),
        ih fun x hx => hall x (List.mem_cons_of_mem h hx)]
      rfl

/-- **Pooled and other requests have the same fields and frames** exactly when no Cookie header is empty or
    has several crumbs. -/
theorem pool_h3_fields_iff (prof : Http3Profile) (method : Method) (authority path : Str8) (headers : HeaderList)
    (body : Str8) :
    (poolH3Nva prof (methodStr method) authority path headers =
        h3SessionNva prof (methodStr method) (lit "https") authority path headers ∧
      ∀ pbuf rbuf, poolH3Frames pbuf rbuf body = h3SessionFrames pbuf rbuf body) ↔ Uncrumbled headers := by
  have hframes : ∀ pbuf rbuf, poolH3Frames pbuf rbuf body = h3SessionFrames pbuf rbuf body := fun _ _ => rfl
  rw [and_iff_left hframes, h3SessionNva_eq, poolH3Nva, List.append_cancel_left_eq]
  exact flatMap_headerNvs_iff

end

/-- The order of the Chrome profiles. -/
def chromeH3Profile : Http3Profile := ⟨[.method, .authority, .scheme, .path]⟩

/-- Two cookies in one header. -/
def twoCookies : HeaderList := [{ name := lit "cookie", value := lit "x=1; y=2" }]

theorem pool_h3_cookie_unsplit :
    poolH3Nva chromeH3Profile (methodStr .get) (lit "a") (lit "/") twoCookies ≠
      h3SessionNva chromeH3Profile (methodStr .get) (lit "https") (lit "a") (lit "/") twoCookies := by
  decide

end HolyTls

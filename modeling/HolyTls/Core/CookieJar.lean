import HolyTls.Core.Cookie

/-!
# `Core.CookieJar` — the cookie jar over whole runs

Two results about every sequence of jar operations from an empty jar.

- **Refinement.** The array of the source represents an insertion-ordered map from (name, domain up to
  case, path) to cookies: each operation is one of `OrdMap` (`jarStep_refines`), whose lemmas say what it changes.
- **Isolation.** A cookie that is sent was written by the latest store of its key (`mem_of_latestStore`),
  so the checks that store made still hold of it; with the send-time match they bound how far it can travel.
-/

namespace HolyTls

variable {b c : Cookie} {jar : CookieJar} {max : Nat} {psl : PslTables} {host : Str8}

/-- The operations on a jar. -/
inductive JarOp
  | put (c : Cookie)
  | store (req : ParsedUrl) (sc : Str8) (now : Nat)
  | remove (name : Str8)
  | evict (now : Nat)
  | header (req : ParsedUrl) (now : Nat)

def jarStep (psl : PslTables) (jar : CookieJar) : JarOp → CookieJar
  | .put c => cookieJarPut jar c
  | .store req sc now => cookieJarStore psl jar req sc now
  | .remove name => (cookieJarRemove jar name).1
  | .evict now => cookieJarEvictExpired jar now
  | .header req now => (cookieJarCookieHeader jar req now).1

def jarRun (psl : PslTables) (jar : CookieJar) (ops : List JarOp) : CookieJar := ops.foldl (jarStep psl) jar

/-! ## The operations as operations of an ordered map -/

abbrev CookieMap := OrdMap Cookie.key

/-- Writing a cookie while respecting the cap: an existing key may always be written. -/
def specPut (max : Nat) (m : CookieMap) (c : Cookie) : CookieMap :=
  if c.key ∈ m.entries.map Cookie.key ∨ m.entries.length < max then m.put c else m

/-- What an operation does to the map. -/
def specStep (psl : PslTables) (max : Nat) (m : CookieMap) : JarOp → CookieMap
  | .put c => specPut max m c
  | .store req sc now =>
    match cookieStoreOutcome psl req sc now with
    | .rejected => m
    | .expired name domain path => m.erase (name, lower domain, path)
    | .put c => specPut max m c
  | .remove name => m.keep (fun c => !str8Match c.name name)
  | .evict now => m.keep (fun c => !cookieExpired now c)
  | .header _ now => m.keep (fun c => !cookieExpired now c)

theorem cookieIs_iff {name domain path : Str8} :
    cookieIs name domain path c = true ↔ c.key = (name, lower domain, path) := by
  simp [cookieIs, Cookie.key, and_assoc]

theorem cookieIs_key_iff {d : Cookie} :
    cookieIs c.name c.domain c.path d = true ↔ d.key = c.key := cookieIs_iff

@[simp] theorem cookieJarEvictExpired_v (jar : CookieJar) (now : Nat) :
    (cookieJarEvictExpired jar now).v = jar.v.filter (fun c => !cookieExpired now c) :=
  OrdMap.compact_all _ _

@[simp] theorem cookieJarRemove_v (jar : CookieJar) (name : Str8) :
    (cookieJarRemove jar name).1.v = jar.v.filter (fun c => !str8Match c.name name) :=
  OrdMap.compact_all _ _

/-- `cookie_jar_put` writes in place, appends below the cap, and otherwise does nothing. -/
theorem cookieJarPut_v (jar : CookieJar) (c : Cookie) :
    (cookieJarPut jar c).v =
      if c.key ∈ jar.v.map Cookie.key ∨ jar.v.length < jar.maxCookies then
        OrdMap.upsert Cookie.key c jar.v
      else jar.v := by
  unfold cookieJarPut cookieJarFind
  cases h : jar.v.findIdx? (cookieIs c.name c.domain c.path) with
  | some i =>
    have hmem : c.key ∈ jar.v.map Cookie.key := by
      obtain ⟨hi, hp, -⟩ := List.findIdx?_eq_some_iff_getElem.mp h
      rw [← cookieIs_key_iff.mp hp]
      exact List.mem_map_of_mem (List.getElem_mem hi)
    rw [if_pos (Or.inl hmem)]
    exact OrdMap.set_eq_upsert (fun d => cookieIs_key_iff) h
  | none =>
    have hnm : c.key ∉ jar.v.map Cookie.key :=
      OrdMap.not_mem_of_findIdx?_eq_none (fun d => cookieIs_key_iff) h
    by_cases hfull : jar.v.length ≥ jar.maxCookies
    · have : ¬ (c.key ∈ jar.v.map Cookie.key ∨ jar.v.length < jar.maxCookies) := by
        rw [not_or]; exact ⟨hnm, by omega⟩
      rw [if_neg this]
      simp [hfull]
    · have hlt : jar.v.length < jar.maxCookies := by omega
      rw [if_pos (Or.inr hlt), OrdMap.upsert_of_not_mem hnm]
      simp [hfull]

@[simp] theorem cookieJarPut_maxCookies (jar : CookieJar) (c : Cookie) :
    (cookieJarPut jar c).maxCookies = jar.maxCookies := by
  unfold cookieJarPut
  split
  · rfl
  · split <;> rfl

/-- The deletion of an expired store removes exactly the entry of its key. -/
theorem removeFound_v (hn : (jar.v.map Cookie.key).Nodup) (name domain path : Str8) :
    (match cookieJarFind jar name domain path with
      | some existing => cookieJarRemoveAt jar existing
      | none => jar).v = jar.v.filter (fun c => c.key ≠ (name, lower domain, path)) := by
  unfold cookieJarFind
  cases h : jar.v.findIdx? (cookieIs name domain path) with
  | some i => exact OrdMap.eraseIdx_eq_filter hn (fun d => cookieIs_iff) h
  | none => exact (OrdMap.filter_eq_self_of_findIdx?_eq_none (fun d => cookieIs_iff) h).symm

@[simp] theorem jarStep_maxCookies (psl : PslTables) (jar : CookieJar) (op : JarOp) :
    (jarStep psl jar op).maxCookies = jar.maxCookies := by
  cases op with
  | put c => simp [jarStep]
  | store req sc now =>
    simp only [jarStep, cookieJarStore]
    split
    · rfl
    · split <;> rfl
    · simp
  | remove name | evict now | header req now => rfl

variable {m : CookieMap}

/-- **One operation is one operation of the map.** -/
theorem jarStep_refines (psl : PslTables) (h : jar.v = m.entries) (op : JarOp) :
    (jarStep psl jar op).v = (specStep psl jar.maxCookies m op).entries := by
  have hput : ∀ c, (cookieJarPut jar c).v = (specPut jar.maxCookies m c).entries := by
    intro c
    rw [cookieJarPut_v, specPut, h]
    split <;> rfl
  cases op with
  | put c => exact hput c
  | store req sc now =>
    simp only [jarStep, cookieJarStore, specStep]
    cases cookieStoreOutcome psl req sc now with
    | rejected => exact h
    | expired name domain path =>
      have hn : (jar.v.map Cookie.key).Nodup := h ▸ m.nodup
      show _ = m.entries.filter _
      rw [← h]
      exact removeFound_v hn name domain path
    | put c => exact hput c
  | remove name =>
    show (cookieJarRemove jar name).1.v = m.entries.filter _
    rw [cookieJarRemove_v, h]
  | evict now | header req now =>
    show (cookieJarEvictExpired jar now).v = m.entries.filter _
    rw [cookieJarEvictExpired_v, h]

theorem specPut_length (h : m.entries.length ≤ max) (c : Cookie) : (specPut max m c).entries.length ≤ max := by
  unfold specPut
  split
  · next hc =>
      show (OrdMap.upsert Cookie.key c m.entries).length ≤ max
      rw [← List.length_map (f := Cookie.key), OrdMap.map_upsert]
      split
      · simpa using h
      · next hnm =>
          have := hc.resolve_left hnm
          simpa using this
  · exact h

theorem specStep_length (psl : PslTables) (h : m.entries.length ≤ max) (op : JarOp) :
    (specStep psl max m op).entries.length ≤ max := by
  have hkeep : ∀ p, (m.keep p).entries.length ≤ max := fun p =>
    (List.length_filter_le p m.entries).trans h
  cases op with
  | put c => exact specPut_length h c
  | store req sc now =>
    simp only [specStep]
    cases cookieStoreOutcome psl req sc now with
    | rejected => exact h
    | expired name domain path => exact hkeep _
    | put c => exact specPut_length h c
  | remove name | evict now | header req now => exact hkeep _

/-- **A whole run represents a map within the cap.** -/
theorem jarRun_refines (psl : PslTables) (max : Nat) (ops : List JarOp) :
    ∃ m : CookieMap, (jarRun psl (cookieJarInit max) ops).v = m.entries ∧ m.entries.length ≤ max ∧
      (jarRun psl (cookieJarInit max) ops).maxCookies = max := by
  induction ops using List.reverseRecOn with
  | nil => exact ⟨OrdMap.empty, rfl, Nat.zero_le _, rfl⟩
  | append_singleton ops op ih =>
    obtain ⟨m, hm, hlen, hmax⟩ := ih
    simp only [jarRun, List.foldl_append, List.foldl_cons, List.foldl_nil]
    refine ⟨specStep psl max m op, ?_, specStep_length psl hlen op, ?_⟩
    · have := jarStep_refines psl hm op
      rw [hmax] at this
      exact this
    · rw [jarStep_maxCookies]
      exact hmax

/-- How a jar may change when a store asks for `outcome`: a rejected one changes nothing, an expired one
    deletes the entry of its key, and a write replaces the entry of its key where it stands, or appends it
    below the cap, or is refused. -/
def StoreEffect (jar jar' : CookieJar) : StoreOutcome → Prop
  | .rejected => jar' = jar
  | .expired name domain path => jar'.v = jar.v.filter (fun c => c.key ≠ (name, lower domain, path))
  | .put c =>
    (∃ pre old post, jar.v = pre ++ old :: post ∧ old.key = c.key ∧ jar'.v = pre ++ c :: post) ∨
    (c.key ∉ jar.v.map Cookie.key ∧ jar.v.length < jar.maxCookies ∧ jar'.v = jar.v ++ [c]) ∨
    (c.key ∉ jar.v.map Cookie.key ∧ jar.maxCookies ≤ jar.v.length ∧ jar'.v = jar.v)

theorem cookieJarPut_effect (jar : CookieJar) (c : Cookie) :
    StoreEffect jar (cookieJarPut jar c) (.put c) := by
  have hv := cookieJarPut_v jar c
  by_cases hmem : c.key ∈ jar.v.map Cookie.key
  · obtain ⟨pre, old, post, hl, hold, -, hup⟩ := OrdMap.upsert_of_mem hmem
    rw [if_pos (.inl hmem), hup] at hv
    exact .inl ⟨pre, old, post, hl, hold, hv⟩
  · by_cases hlt : jar.v.length < jar.maxCookies
    · rw [if_pos (.inr hlt), OrdMap.upsert_of_not_mem hmem] at hv
      exact .inr (.inl ⟨hmem, hlt, hv⟩)
    · rw [if_neg (by rw [not_or]; exact ⟨hmem, hlt⟩)] at hv
      exact .inr (.inr ⟨hmem, by omega, hv⟩)

theorem cookieJarStore_effect (hn : (jar.v.map Cookie.key).Nodup) (psl : PslTables) (req : ParsedUrl)
    (sc : Str8) (now : Nat) :
    StoreEffect jar (cookieJarStore psl jar req sc now) (cookieStoreOutcome psl req sc now) := by
  unfold cookieJarStore
  cases cookieStoreOutcome psl req sc now with
  | rejected => exact rfl
  | expired name domain path => exact removeFound_v hn name domain path
  | put c => exact cookieJarPut_effect jar c

/-- **The jar is an insertion-ordered map.** In every state reached from an empty jar, keys are unique and
    the cap holds; a direct write and a store have exactly the effect their outcome describes; removal by
    name and eviction delete exactly the entries they name and keep the order of the rest. -/
theorem cookieJar_ordered_map (psl : PslTables) (max : Nat) (ops : List JarOp) :
    let jar := jarRun psl (cookieJarInit max) ops
    (jar.v.map Cookie.key).Nodup ∧ jar.v.length ≤ jar.maxCookies ∧ jar.maxCookies = max ∧
    (∀ c, StoreEffect jar (cookieJarPut jar c) (.put c)) ∧
    (∀ req sc now,
      StoreEffect jar (cookieJarStore psl jar req sc now) (cookieStoreOutcome psl req sc now)) ∧
    (∀ name, (cookieJarRemove jar name).1.v = jar.v.filter (fun c => c.name ≠ name)) ∧
    (∀ now, (cookieJarEvictExpired jar now).v =
      jar.v.filter (fun c => ¬ (c.expiresEpoch ≠ 0 ∧ c.expiresEpoch ≤ now))) ∧
    (∀ req now, (cookieJarCookieHeader jar req now).1 = cookieJarEvictExpired jar now) := by
  intro jar
  obtain ⟨m, hm, hlen, hmax⟩ := jarRun_refines psl max ops
  have hn : (jar.v.map Cookie.key).Nodup := hm ▸ m.nodup
  refine ⟨hn, ?_, hmax, cookieJarPut_effect jar, cookieJarStore_effect hn psl, ?_, ?_, fun _ _ => rfl⟩
  · rw [hmax]
    exact hm ▸ hlen
  · intro name
    rw [cookieJarRemove_v]
    refine List.filter_congr (fun c _ => ?_)
    rw [Bool.eq_iff_iff]
    simp [← Bool.not_eq_true]
  · intro now
    rw [cookieJarEvictExpired_v]
    refine List.filter_congr (fun c _ => ?_)
    rw [Bool.eq_iff_iff]
    simp [cookieExpired]

/-! ## The latest store of a key -/

/-- The operation writes a cookie under key `k` (whether or not the cap then refuses it). -/
def Writes (psl : PslTables) (k : Str8 × Str8 × Str8) : JarOp → Prop
  | .put c => c.key = k
  | .store req sc now => ∃ c, cookieStoreOutcome psl req sc now = .put c ∧ c.key = k
  | _ => False

/-- In the run `ops`, the last operation that wrote key `k` was a store of the cookie `c` from a response
    of `host`. -/
def LatestStore (psl : PslTables) (ops : List JarOp) (k : Str8 × Str8 × Str8) (c : Cookie)
    (host : Str8) : Prop :=
  ∃ pre req sc now post, ops = pre ++ .store req sc now :: post ∧ req.host = host ∧
    cookieStoreOutcome psl req sc now = .put c ∧ c.key = k ∧ ∀ op ∈ post, ¬ Writes psl k op

theorem mem_specPut (h : b ∈ (specPut max m c).entries) : b = c ∨ (b ∈ m.entries ∧ b.key ≠ c.key) := by
  unfold specPut at h
  split at h
  · exact OrdMap.mem_put.mp h
  · next hc =>
      rw [not_or] at hc
      exact .inr ⟨h, fun hk => hc.1 (hk ▸ List.mem_map_of_mem h)⟩

/-- An entry is either old or written by this very operation. -/
theorem mem_specStep {op : JarOp} (h : b ∈ (specStep psl max m op).entries) :
    b ∈ m.entries ∨ Writes psl b.key op := by
  have hkeep : ∀ p, b ∈ (m.keep p).entries → b ∈ m.entries := fun p hb => (List.mem_filter.mp hb).1
  cases op with
  | put c =>
    rcases mem_specPut h with rfl | hb
    · exact .inr rfl
    · exact .inl hb.1
  | store req sc now =>
    simp only [specStep] at h
    cases hout : cookieStoreOutcome psl req sc now with
    | rejected => rw [hout] at h; exact .inl h
    | expired name domain path => rw [hout] at h; exact .inl (hkeep _ h)
    | put c =>
      rw [hout] at h
      rcases mem_specPut h with rfl | hb
      · exact .inr ⟨b, hout, rfl⟩
      · exact .inl hb.1
  | remove name | evict now | header req now => exact .inl (hkeep _ h)

variable {ops : List JarOp}

theorem mem_jarStep {op : JarOp} (h : b ∈ (jarRun psl (cookieJarInit max) (ops ++ [op])).v) :
    b ∈ (jarRun psl (cookieJarInit max) ops).v ∨ Writes psl b.key op := by
  obtain ⟨m, hm, -, hmax⟩ := jarRun_refines psl max ops
  rw [jarRun, List.foldl_append] at h
  have hstep := jarStep_refines psl hm op
  rw [hmax] at hstep
  rw [hm]
  exact mem_specStep (hstep ▸ h)

/-- **The entry of a key is what its latest store wrote.** -/
theorem mem_of_latestStore (hb : b ∈ (jarRun psl (cookieJarInit max) ops).v)
    (h : LatestStore psl ops b.key c host) : b = c := by
  obtain ⟨pre, req, sc, now, post, rfl, -, hout, hck, hpost⟩ := h
  -- induction on the operations after the store: none of them writes the key
  induction post using List.reverseRecOn with
  | nil =>
    obtain ⟨m, hm, -, hmax⟩ := jarRun_refines psl max pre
    rw [jarRun, List.foldl_append] at hb
    have hstep := jarStep_refines psl hm (.store req sc now)
    rw [hmax] at hstep
    have hb' : b ∈ (specStep psl max m (.store req sc now)).entries := hstep ▸ hb
    simp only [specStep, hout] at hb'
    rcases mem_specPut hb' with rfl | ⟨-, hne⟩
    · rfl
    · exact absurd hck.symm hne
  | append_singleton post op ih =>
    have hsplit : pre ++ JarOp.store req sc now :: (post ++ [op]) =
        (pre ++ JarOp.store req sc now :: post) ++ [op] := by simp
    rw [hsplit] at hb
    refine ih ?_ (fun o ho => hpost o (List.mem_append_left _ ho))
    exact (mem_jarStep hb).resolve_right (hpost op (by simp))

theorem exists_latestStore (hput : ∀ c, JarOp.put c ∉ ops) (hb : b ∈ (jarRun psl (cookieJarInit max) ops).v) :
    ∃ host, LatestStore psl ops b.key b host := by
  induction ops using List.reverseRecOn with
  | nil => simp [jarRun, cookieJarInit] at hb
  | append_singleton ops op ih =>
    by_cases hw : Writes psl b.key op
    · cases op with
      | store req sc now =>
        obtain ⟨c, hout, hk⟩ := hw
        have hlast : LatestStore psl (ops ++ [.store req sc now]) b.key c req.host :=
          ⟨ops, req, sc, now, [], rfl, rfl, hout, hk, by simp⟩
        exact ⟨req.host, by rw [mem_of_latestStore hb hlast]; rw [hk]; exact hlast⟩
      | put c => exact absurd (by simp) (hput c)
      | remove name | evict now | header req now => exact hw.elim
    · have hold := (mem_jarStep hb).resolve_right hw
      obtain ⟨host, pre, req, sc, now, post, rfl, hh, hout, hk, hpost⟩ :=
        ih (fun c hc => hput c (List.mem_append_left _ hc)) hold
      refine ⟨host, pre, req, sc, now, post ++ [op], by simp, hh, hout, hk, ?_⟩
      intro o ho
      rcases List.mem_append.mp ho with ho | ho
      · exact hpost o ho
      · rw [List.mem_singleton.mp ho]
        exact hw

/-! ## Domains -/

/-- `host` is `dom`, or ends in a dot followed by `dom`, up to case. -/
def UnderDomain (host dom : Str8) : Prop :=
  lower host = lower dom ∨ ∃ pre t, host = pre ++ 46 :: t ∧ lower t = lower dom

theorem cookieDomainMatch_iff {dom : Str8} : cookieDomainMatch host dom = true ↔ UnderDomain host dom := by
  unfold cookieDomainMatch UnderDomain
  by_cases heq : str8MatchCi host dom = true
  · rw [if_pos heq]
    exact ⟨fun _ => .inl (str8MatchCi_iff.mp heq), fun _ => rfl⟩
  · rw [if_neg heq]
    rw [str8MatchCi_iff] at heq
    constructor
    · intro h
      split at h
      · cases h
      · next hlen =>
          split at h
          · cases h
          · next htail =>
              have hpos : host.length - dom.length - 1 < host.length := by omega
              have hdot : host[host.length - dom.length - 1] = 46 := by
                rw [beq_iff_eq, List.getElem?_eq_getElem hpos] at h
                simpa using h
              have hlow : lower (str8Skip host (host.length - dom.length)) = lower dom := by
                simpa using htail
              refine .inr ⟨host.take (host.length - dom.length - 1),
                str8Skip host (host.length - dom.length), ?_, hlow⟩
              have hsplit := List.take_append_drop (host.length - dom.length - 1) host
              rw [List.drop_eq_getElem_cons hpos, hdot,
                show host.length - dom.length - 1 + 1 = host.length - dom.length by omega] at hsplit
              exact hsplit.symm
    · rintro (h | ⟨pre, t, rfl, ht⟩)
      · exact absurd h heq
      · have hlen : t.length = dom.length := by
          have := congrArg List.length ht
          simpa using this
        have hskip : (pre ++ 46 :: t).length - dom.length = pre.length + 1 := by simp; omega
        rw [if_neg (by simp; omega), hskip]
        have htail : str8Skip (pre ++ 46 :: t) (pre.length + 1) = t := by
          simp [str8Skip]
        rw [htail, str8MatchCi_iff.mpr ht]
        simp

theorem no_letters_of_underDomain {dom : Str8} (h : UnderDomain host dom)
    (hhost : host.any charIsAlpha = false) : dom.any charIsAlpha = false := by
  have hany : ∀ s : Str8, s.any charIsAlpha = (lower s).any charIsAlpha := by
    intro s
    rw [lower, List.any_map]
    congr 1
    funext c
    exact (charIsAlpha_charToLower c).symm
  rw [hany]
  rcases h with h | ⟨pre, t, rfl, ht⟩
  · rw [← h, ← hany]
    exact hhost
  · rw [← ht, ← hany]
    rw [List.any_append, List.any_cons, Bool.or_eq_false_iff, Bool.or_eq_false_iff] at hhost
    exact hhost.2.2

/-- Two hosts share a domain that a cookie may be scoped to: they are equal up to case, or both lie under
    an ASCII domain that is neither an IP address nor a public suffix. -/
def SharedDomain (psl : PslTables) (a b : Str8) : Prop :=
  lower a = lower b ∨
  ∃ dom, cookieHostIsIp dom = false ∧ pslIsPublicSuffix psl dom = false ∧ (∀ x ∈ dom, x < 128) ∧
    UnderDomain a dom ∧ UnderDomain b dom

/-- The `Domain` value of one attribute, if it is a non-empty `Domain` attribute. -/
def domainOfAttr (attr : Str8) : Option Str8 :=
  let (an, val) := splitAttr attr
  if str8MatchCi an (lit "domain") && !(stripLeadingDot val).isEmpty then some (stripLeadingDot val)
  else none

/-- The `Domain` a `Set-Cookie` string asks for: its last non-empty `Domain` attribute. -/
def domainAttr (sc : Str8) : Option Str8 :=
  forEachAttr (fun acc attr => (domainOfAttr attr).or acc) (str8ChopByDelim sc 59).2.length
    (str8ChopByDelim sc 59).2 none

theorem forEachAttr_rel {σ τ : Type} {f : σ → Str8 → σ} {g : τ → Str8 → τ} (R : σ → τ → Prop)
    (hstep : ∀ s t attr, R s t → R (f s attr) (g t attr)) :
    ∀ (fuel : Nat) (av : Str8) (s : σ) (t : τ), R s t →
      R (forEachAttr f fuel av s) (forEachAttr g fuel av t) := by
  intro fuel
  induction fuel with
  | zero => intro av s t h; exact h
  | succ fuel ih =>
    intro av s t h
    unfold forEachAttr
    split
    · exact h
    · exact ih _ _ _ (hstep _ _ _ h)

/-- What the store's local variables say about the `Domain` attributes read so far. -/
def TracksDomain (host : Str8) (st : StoreAttrs) (acc : Option Str8) : Prop :=
  (acc = none ∧ st.hostOnly = true ∧ st.domain = host) ∨ (acc = some st.domain ∧ st.hostOnly = false)

theorem splitAttr_nil : splitAttr [] = ([], []) := rfl

theorem storeExpires_domain (now : Nat) (val : Str8) (st : StoreAttrs) :
    (storeExpires now val st).hostOnly = st.hostOnly ∧ (storeExpires now val st).domain = st.domain := by
  simp only [storeExpires]
  split
  · exact ⟨rfl, rfl⟩
  · split <;> exact ⟨rfl, rfl⟩

theorem storeMaxAge_domain (now : Nat) (val : Str8) (st : StoreAttrs) :
    (storeMaxAge now val st).hostOnly = st.hostOnly ∧ (storeMaxAge now val st).domain = st.domain := by
  simp only [storeMaxAge]
  split <;> split <;> exact ⟨rfl, rfl⟩

theorem storeAttr_domain (now : Nat) (st : StoreAttrs) (attr : Str8) :
    (domainOfAttr attr = none ∧ (storeAttr now st attr).hostOnly = st.hostOnly ∧
      (storeAttr now st attr).domain = st.domain) ∨
    (domainOfAttr attr = some (storeAttr now st attr).domain ∧
      (storeAttr now st attr).hostOnly = false) := by
  by_cases hdom : str8MatchCi (splitAttr attr).1 (lit "domain") = true
  · have hne : attr ≠ [] := by
      rintro rfl
      rw [splitAttr_nil] at hdom
      exact absurd hdom (by decide)
    have h1 : str8MatchCi (splitAttr attr).1 (lit "expires") = false := str8MatchCi_of_ne hdom (by decide)
    have h2 : str8MatchCi (splitAttr attr).1 (lit "max-age") = false := str8MatchCi_of_ne hdom (by decide)
    have hstore : storeAttr now st attr =
        if (stripLeadingDot (splitAttr attr).2).isEmpty then st
        else { st with domain := stripLeadingDot (splitAttr attr).2, hostOnly := false } := by
      simp only [storeAttr, List.isEmpty_iff, hne, h1, h2, hdom, if_true, if_false, Bool.false_eq_true]
    rw [hstore]
    by_cases hd : (stripLeadingDot (splitAttr attr).2).isEmpty = true
    · exact .inl (by simp [domainOfAttr, hd])
    · rw [Bool.not_eq_true] at hd
      exact .inr (by simp [domainOfAttr, hd, hdom])
  · rw [Bool.not_eq_true] at hdom
    refine .inl ⟨by simp [domainOfAttr, hdom], ?_⟩
    simp only [storeAttr, hdom, Bool.false_eq_true, if_false]
    split
    · exact ⟨rfl, rfl⟩
    · split
      · exact storeExpires_domain now _ st
      · split
        · exact storeMaxAge_domain now _ st
        · split
          · split <;> exact ⟨rfl, rfl⟩
          · split
            · exact ⟨rfl, rfl⟩
            · split
              · exact ⟨rfl, rfl⟩
              · split <;> exact ⟨rfl, rfl⟩

theorem tracksDomain_step (now : Nat) {st : StoreAttrs} {acc : Option Str8} (attr : Str8)
    (h : TracksDomain host st acc) :
    TracksDomain host (storeAttr now st attr) ((domainOfAttr attr).or acc) := by
  rcases storeAttr_domain now st attr with ⟨hnone, hho, hd⟩ | ⟨hsome, hho⟩
  · rw [hnone, Option.none_or]
    rcases h with ⟨ha, h1, h2⟩ | ⟨ha, h1⟩
    · exact .inl ⟨ha, hho.trans h1, hd.trans h2⟩
    · exact .inr ⟨by rw [ha, hd], hho.trans h1⟩
  · rw [hsome]
    exact .inr ⟨rfl, hho⟩

/-- What a written cookie's domain went through. -/
theorem cookieStoreOutcome_put {req : ParsedUrl} {sc : Str8} {now : Nat}
    (h : cookieStoreOutcome psl req sc now = .put c) :
    ∃ domain hostOnly, storeDomain psl req.host domain hostOnly = some (c.domain, c.hostOnly) ∧
      ((domainAttr sc = none ∧ hostOnly = true ∧ domain = req.host) ∨
       (domainAttr sc = some domain ∧ hostOnly = false)) := by
  unfold cookieStoreOutcome at h
  simp only at h
  split at h
  · cases h
  · split at h
    · cases h
    · have htrack := forEachAttr_rel (TracksDomain req.host)
        (fun s t attr hs => tracksDomain_step now attr hs)
        (str8ChopByDelim sc 59).2.length (str8ChopByDelim sc 59).2
        { domain := req.host, path := cookieDefaultPath req.path } none (.inl ⟨rfl, rfl, rfl⟩)
      split at h
      · cases h
      · next domain hostOnly hdom =>
          split at h
          · cases h
          · simp only [StoreOutcome.put.injEq] at h
            subst h
            exact ⟨_, _, hdom, htrack⟩

/-- The ways the `Domain` checks end well: a host-only cookie for the host itself, or a domain cookie
    whose domain is ASCII, no public suffix, and covers a host that is no IP address. -/
theorem storeDomain_some {domain dom : Str8} {hostOnly ho : Bool}
    (h : storeDomain psl host domain hostOnly = some (dom, ho)) :
    (ho = true ∧ (hostOnly = true → dom = domain) ∧ (hostOnly = false → dom = host)) ∨
    (ho = false ∧ hostOnly = false ∧ dom = domain ∧ (∀ x ∈ domain, x < 128) ∧
      cookieHostIsIp host = false ∧ pslIsPublicSuffix psl domain = false ∧
      cookieDomainMatch host domain = true) := by
  unfold storeDomain at h
  split at h
  · next hho =>
      cases h
      exact .inl ⟨rfl, fun _ => rfl, fun hf => by rw [hho] at hf; cases hf⟩
  · next hho =>
      have hdegraded : (hostOnly = true → host = domain) ∧ (hostOnly = false → host = host) :=
        ⟨fun ht => absurd ht hho, fun _ => rfl⟩
      rw [Bool.not_eq_true] at hho
      split at h
      · cases h
      · next hascii =>
          have hbytes : ∀ x ∈ domain, x < 128 := by
            intro x hx
            rw [Bool.not_eq_true, List.any_eq_false] at hascii
            have := hascii x hx
            simpa using this
          -- the two degraded branches answer with the host itself
          split at h
          · split at h
            · cases h; exact .inl ⟨rfl, hdegraded⟩
            · cases h
          · next hip =>
              split at h
              · split at h
                · cases h; exact .inl ⟨rfl, hdegraded⟩
                · cases h
              · next hpsl =>
                  split at h
                  · next hmatch =>
                      cases h
                      exact .inr ⟨rfl, hho, rfl, hbytes, by simpa using hip, by simpa using hpsl, hmatch⟩
                  · cases h

theorem mem_insertByPath {cs : List Cookie} : b ∈ insertByPath c cs ↔ b = c ∨ b ∈ cs := by
  induction cs with
  | nil => simp [insertByPath]
  | cons d ds ih =>
    unfold insertByPath
    split
    · rw [List.mem_cons, ih, List.mem_cons, or_left_comm]
    · rw [List.mem_cons]

theorem mem_sortByPath {cs : List Cookie} : b ∈ sortByPath cs ↔ b ∈ cs := by
  have hfold : ∀ (cs done : List Cookie),
      b ∈ cs.foldl (fun done c => insertByPath c done) done ↔ b ∈ done ∨ b ∈ cs := by
    intro cs
    induction cs with
    | nil => intro done; simp
    | cons c cs ih =>
      intro done
      rw [List.foldl_cons, ih, mem_insertByPath, List.mem_cons]
      tauto
  rw [sortByPath, List.mem_reverse, hfold]
  simp

theorem mem_cookiesSent {req : ParsedUrl} {now : Nat} (h : c ∈ cookiesSent jar req now) :
    c ∈ jar.v ∧ cookieMatches req c = true := by
  rw [cookiesSent, mem_sortByPath, List.mem_filter, cookieJarEvictExpired_v, List.mem_filter] at h
  exact ⟨h.1.1, h.2⟩

/-- No store of the run asks, from a named host that lies under it, for an all-numeric domain: the one
    kind of `Domain` the checks let through although it is an IP address by the code's own test. -/
def NoNumericDomain (psl : PslTables) : JarOp → Prop
  | .store req sc _ =>
    ∀ dom, domainAttr sc = some dom → cookieHostIsIp dom = true → (∀ x ∈ dom, x < 128) →
      cookieDomainMatch req.host dom = true →
      cookieHostIsIp req.host = true ∨ pslIsPublicSuffix psl dom = true
  | _ => True

/-- **Cookies stay inside a registrable domain.** In a run without all-numeric domains, a cookie sent to a
    host was last stored by a response of a host that shares a domain with it; `Secure` cookies go out over
    https only, and the request path matches the stored path. -/
theorem cookies_stay_in_domain (psl : PslTables) (max : Nat) (ops : List JarOp)
    (hops : ∀ op ∈ ops, NoNumericDomain psl op) (req : ParsedUrl) (now : Nat) (c c' : Cookie)
    (host : Str8) (hsent : c ∈ cookiesSent (jarRun psl (cookieJarInit max) ops) req now)
    (hlast : LatestStore psl ops c.key c' host) :
    SharedDomain psl host req.host ∧ (c'.secure = true → req.https = true) ∧
      cookiePathMatch req.path c'.path = true := by
  obtain ⟨hmem, hmatch⟩ := mem_cookiesSent hsent
  obtain rfl : c = c' := mem_of_latestStore hmem hlast
  obtain ⟨pre, reqA, sc, t, post, rfl, rfl, hout, -, -⟩ := hlast
  have hcond : NoNumericDomain psl (.store reqA sc t) := hops _ (by simp)
  simp only [cookieMatches, Bool.and_eq_true] at hmatch
  obtain ⟨⟨hdom, hpath⟩, hsec⟩ := hmatch
  refine ⟨?_, ?_, hpath⟩
  · obtain ⟨domain, hostOnly, hstore, hattr⟩ := cookieStoreOutcome_put hout
    rcases storeDomain_some hstore with ⟨hho, hT, hF⟩ | ⟨hho, hf, hd, hbytes, hip, hpsl, hcover⟩
    · have hown : c.domain = reqA.host := by
        rcases hattr with ⟨-, ht, hdomain⟩ | ⟨-, hf⟩
        · rw [hT ht, hdomain]
        · exact hF hf
      rw [hho, if_pos rfl, str8MatchCi_iff, hown] at hdom
      exact .inl hdom.symm
    · rw [hho, if_neg (by simp), hd, cookieDomainMatch_iff] at hdom
      have hattr' : domainAttr sc = some domain := by
        rcases hattr with ⟨-, ht, -⟩ | ⟨hs, -⟩
        · rw [hf] at ht; cases ht
        · exact hs
      have hname : cookieHostIsIp domain = false := by
        by_contra hne
        rw [Bool.not_eq_false] at hne
        rcases hcond domain hattr' hne hbytes hcover with h | h
        · rw [hip] at h; cases h
        · rw [hpsl] at h; cases h
      exact .inr ⟨domain, hname, hpsl, hbytes, cookieDomainMatch_iff.mp hcover, hdom⟩
  · intro hs
    simpa [hs] using hsec

/-- Rule tables that know one suffix. -/
def comTables : PslTables := { exception := [], exact := [lit "com"], wildcard := [] }

/-- One store of `sc` by a response of `url`. -/
def storedBy (url sc : String) : List JarOp := [.store (urlParse (lit url)) (lit sc) 100]

/-- A cookie for a registrable domain reaches a sibling host, and only over https. -/
theorem cookies_stay_in_domain_sibling :
    SharedDomain comTables (lit "a.example.com") (lit "b.example.com") := by
  let c : Cookie := { name := lit "s", value := lit "1", domain := lit "example.com", path := lit "/"
                      expiresEpoch := 0, hostOnly := false, secure := true, httpOnly := false, sameSite := 0 }
  have hlast : LatestStore comTables (storedBy "https://a.example.com/" "s=1; Domain=.example.com; Secure")
      c.key c (lit "a.example.com") :=
    ⟨[], urlParse (lit "https://a.example.com/"), lit "s=1; Domain=.example.com; Secure", 100, [], rfl,
      by decide, by decide, rfl, by simp⟩
  have hcond : ∀ op ∈ storedBy "https://a.example.com/" "s=1; Domain=.example.com; Secure",
      NoNumericDomain comTables op := by
    intro op hop
    rw [storedBy, List.mem_singleton] at hop
    subst hop
    intro dom hdom hip
    obtain rfl : lit "example.com" = dom := by
      have : domainAttr (lit "s=1; Domain=.example.com; Secure") = some (lit "example.com") := by decide
      rw [this] at hdom
      simpa using hdom
    exact absurd hip (by decide)
  exact (cookies_stay_in_domain comTables 3000 _ hcond (urlParse (lit "https://b.example.com/")) 200 c c
    (lit "a.example.com") (by decide) hlast).1

/-- A named host can set a cookie for the domain `0.0.1`, which is then sent to `127.0.0.1`: the two hosts
    share no domain that is not itself an IP address. -/
theorem cookie_crosses_to_ip_host :
    ∃ c, c ∈ cookiesSent (jarRun comTables (cookieJarInit 3000)
        (storedBy "https://a.0.0.1/" "s=1; Domain=0.0.1")) (urlParse (lit "https://127.0.0.1/")) 200 ∧
      LatestStore comTables (storedBy "https://a.0.0.1/" "s=1; Domain=0.0.1") c.key c (lit "a.0.0.1") ∧
      (urlParse (lit "https://127.0.0.1/")).host = lit "127.0.0.1" ∧
      ¬ SharedDomain comTables (lit "a.0.0.1") (lit "127.0.0.1") := by
  refine ⟨{ name := lit "s", value := lit "1", domain := lit "0.0.1", path := lit "/", expiresEpoch := 0
            hostOnly := false, secure := false, httpOnly := false, sameSite := 0 },
    by decide, ⟨[], urlParse (lit "https://a.0.0.1/"), lit "s=1; Domain=0.0.1", 100, [], rfl, by decide,
      by decide, rfl, by simp⟩, by decide, ?_⟩
  rintro (heq | ⟨dom, hip, -, -, -, hunder⟩)
  · exact absurd heq (by decide)
  · have hletters := no_letters_of_underDomain hunder (by decide)
    have hne : dom ≠ [] := by
      rintro rfl
      rcases hunder with h | ⟨pre, t, h, ht⟩
      · exact absurd h (by decide)
      · obtain rfl : t = [] := by simpa [lower] using ht
        have hdot := congrArg List.getLast? h
        simp only [List.getLast?_append, List.getLast?_singleton, Option.some_or] at hdot
        exact absurd hdot (by decide)
    unfold cookieHostIsIp at hip
    split at hip
    · cases hip
    · simp [hletters, hne] at hip

end HolyTls

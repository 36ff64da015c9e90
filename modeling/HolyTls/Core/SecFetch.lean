import HolyTls.Core.Session

/-!
# `Core.SecFetch` — `Sec-Fetch-Site` along a redirect chain

The running value is text in the carried headers. A hop reads it and the `Referer` back, relates the
`Referer` to the next URL and writes the worse of the two, so a chain folds `degrade` over the URLs it
follows (`Carries.chain`). On the values that `sec_fetch_site` gives, `degrade` is the maximum of the
ranks, and `none` and `cross-site` are fixed points.
-/

namespace HolyTls

/-- The values of the headers with that name, in order. -/
def headerValues (headers : HeaderList) (name : Str8) : List Str8 :=
  (headers.filter fun h => str8MatchCi h.name name).map (·.value)

/-- The first `Sec-Fetch-Site` value that a request carries. -/
def RedirectState.site (st : RedirectState) : Str8 := (headerValues st.headers (lit "sec-fetch-site")).headD []

/-- The list has one `Sec-Fetch-Site` and one `Referer`, with these values. -/
structure Carries (site referer : Str8) (headers : HeaderList) : Prop where
  site : headerValues headers (lit "sec-fetch-site") = [site]
  referer : headerValues headers (lit "referer") = [referer]

/-- The value that a hop to `url` writes over `site`. -/
def degrade (referer site url : Str8) : Str8 :=
  if site = [] ∨ referer = [] ∨ site = lit "none" ∨ site = lit "cross-site" then site
  else if secSiteRank (secFetchSite url referer) > secSiteRank site then secFetchSite url referer else site

/-- A relation of the `Referer` to a URL, once both are known. -/
def IsRelation (v : Str8) : Prop := v = lit "same-origin" ∨ v = lit "same-site" ∨ v = lit "cross-site"

theorem secFetchSite_relation {url referer : Str8} (hne : referer ≠ []) (hr : (urlParse referer).ok = true)
    (hu : (urlParse url).ok = true) : IsRelation (secFetchSite url referer) := by
  unfold secFetchSite IsRelation
  grind

theorem secFetchSite_cases (url referer : Str8) :
    (referer ≠ [] ∧ (urlParse referer).ok = true ∧ IsRelation (secFetchSite url referer)) ∨
      secFetchSite url referer = lit "none" := by
  unfold secFetchSite IsRelation
  grind

/-! ## One hop -/

section

variable {site referer url : Str8} {headers : HeaderList}

theorem headerValues_cons (h : Header) (name : Str8) :
    headerValues (h :: headers) name =
      if str8MatchCi h.name name then h.value :: headerValues headers name else headerValues headers name := by
  unfold headerValues
  rw [List.filter_cons]
  split <;> rfl

/-- The last header of each name decides. -/
theorem secFetchSiteForRedirect_fold (acc : Str8 × Str8) :
    headers.foldl (fun (acc : Str8 × Str8) h =>
      if str8MatchCi h.name (lit "sec-fetch-site") then (h.value, acc.2)
      else if str8MatchCi h.name (lit "referer") then (acc.1, h.value)
      else acc) acc =
    ((headerValues headers (lit "sec-fetch-site")).getLastD acc.1,
      (headerValues headers (lit "referer")).getLastD acc.2) := by
  induction headers generalizing acc with
  | nil => rfl
  | cons h headers ih =>
    rw [List.foldl_cons, ih, headerValues_cons, headerValues_cons]
    by_cases hs : str8MatchCi h.name (lit "sec-fetch-site") = true
    · have hr : str8MatchCi h.name (lit "referer") = false := str8MatchCi_of_ne hs (by decide)
      simp only [hs, hr, if_true, Bool.false_eq_true, if_false, List.getLastD_cons]
    · rw [if_neg hs, if_neg hs]
      by_cases hr : str8MatchCi h.name (lit "referer") = true
      · rw [if_pos hr, if_pos hr, List.getLastD_cons]
      · rw [if_neg hr, if_neg hr]

/-- The empty result leaves the header as it is; either way the value is degraded. -/
theorem Carries.forRedirect (h : Carries site referer headers) :
    (if secFetchSiteForRedirect headers url = [] then site else secFetchSiteForRedirect headers url) =
      degrade referer site url := by
  have hne : secFetchSite url referer ≠ [] := by
    rcases secFetchSite_cases url referer with ⟨-, -, hrel | hrel | hrel⟩ | hrel <;> rw [hrel] <;> decide
  unfold secFetchSiteForRedirect degrade
  rw [secFetchSiteForRedirect_fold, h.site, h.referer]
  simp only [List.getLastD_cons, List.getLastD_nil, Bool.or_eq_true, List.isEmpty_iff, str8Match_iff]
  grind

/-- A header that is dropped is neither of the two, and only `Sec-Fetch-Site` is rewritten. -/
theorem carryHeader_cases (dropBody cross : Bool) (newSite : Str8) (h : Header) :
    (carryHeader dropBody cross newSite h = none ∧ str8MatchCi h.name (lit "sec-fetch-site") = false ∧
      str8MatchCi h.name (lit "referer") = false) ∨
    carryHeader dropBody cross newSite h = some ⟨h.name,
      if newSite ≠ [] ∧ str8MatchCi h.name (lit "sec-fetch-site") = true then newSite else h.value, h.flags⟩ := by
  unfold carryHeader
  split
  · next hdrop =>
      simp only [Bool.and_eq_true, Bool.or_eq_true] at hdrop
      rcases hdrop.2 with hname | hname
      · exact .inl ⟨rfl, str8MatchCi_of_ne hname (by decide), str8MatchCi_of_ne hname (by decide)⟩
      · exact .inl ⟨rfl, str8MatchCi_of_ne hname (by decide), str8MatchCi_of_ne hname (by decide)⟩
  · split
    · next hauth =>
        have hname := ((Bool.and_eq_true _ _).mp hauth).2
        exact .inl ⟨rfl, str8MatchCi_of_ne hname (by decide), str8MatchCi_of_ne hname (by decide)⟩
    · right
      split
      · next hsite => simp_all
      · next hsite => rw [if_neg (by simpa using hsite)]

/-- A hop keeps every `Referer`, and every `Sec-Fetch-Site` with the new value. -/
theorem headerValues_carry (dropBody cross : Bool) (newSite : Str8) :
    headerValues (headers.filterMap (carryHeader dropBody cross newSite)) (lit "referer") =
        headerValues headers (lit "referer") ∧
      headerValues (headers.filterMap (carryHeader dropBody cross newSite)) (lit "sec-fetch-site") =
        (headerValues headers (lit "sec-fetch-site")).map fun v => if newSite = [] then v else newSite := by
  induction headers with
  | nil => exact ⟨rfl, rfl⟩
  | cons h headers ih =>
    have hboth : str8MatchCi h.name (lit "referer") = true → str8MatchCi h.name (lit "sec-fetch-site") = false :=
      fun hr => str8MatchCi_of_ne hr (by decide)
    rcases carryHeader_cases dropBody cross newSite h with ⟨hnone, hs, hr⟩ | hsome
    · simp [headerValues_cons, hnone, hs, hr, ih]
    · simp only [List.filterMap_cons, hsome, headerValues_cons, ih]
      by_cases hs : str8MatchCi h.name (lit "sec-fetch-site") = true
      · have hr : ¬ str8MatchCi h.name (lit "referer") = true := fun hr => (by simp [hboth hr] at hs)
        simp [hs, hr]
      · simp [hs]

theorem Carries.hop {st st' : RedirectState} {r : Response} (h : Carries site referer st.headers)
    (hop : followHop st r = some st') :
    Carries (degrade referer site st'.curUrl) referer st'.headers ∧ (urlParse st'.curUrl).ok = true := by
  obtain ⟨-, hok, dropBody, hheaders⟩ := followHop_eq hop
  obtain ⟨hr, hs⟩ := @headerValues_carry st.headers dropBody (!sameHost st.curUrl st'.curUrl)
    (secFetchSiteForRedirect st.headers st'.curUrl)
  rw [← hheaders] at hr hs
  rw [h.site, List.map_singleton, h.forRedirect] at hs
  exact ⟨⟨hs, hr.trans h.referer⟩, hok⟩

/-! ## Ranks -/

theorem degrade_rank_le : secSiteRank site ≤ secSiteRank (degrade referer site url) := by
  unfold degrade
  split
  · exact Nat.le_refl _
  · split
    · next hlt => exact Nat.le_of_lt hlt
    · exact Nat.le_refl _

theorem degrade_terminal (h : site = lit "none" ∨ site = lit "cross-site") : degrade referer site url = site :=
  if_pos (.inr (.inr h))

/-- From a relation, a hop goes to the worse of the two. -/
theorem degrade_rank_eq (hsite : IsRelation site) (hreferer : referer ≠ [])
    (hrel : IsRelation (secFetchSite url referer)) :
    IsRelation (degrade referer site url) ∧
      secSiteRank (degrade referer site url) = max (secSiteRank site) (secSiteRank (secFetchSite url referer)) := by
  unfold degrade
  generalize secFetchSite url referer = rel at hrel
  rcases hsite with rfl | rfl | rfl <;> rcases hrel with rfl | rfl | rfl <;> simp [hreferer, IsRelation] <;> decide

end

/-! ## Chains -/

/-- What holds between an earlier and a later request of a chain. -/
def Degrades (a b : RedirectState) : Prop :=
  secSiteRank a.site ≤ secSiteRank b.site ∧ (a.site = lit "none" ∨ a.site = lit "cross-site" → b.site = a.site)

theorem Degrades.trans {a b c : RedirectState} (hab : Degrades a b) (hbc : Degrades b c) : Degrades a c := by
  refine ⟨Nat.le_trans hab.1 hbc.1, fun ha => ?_⟩
  have hb := hab.2 ha
  exact (hbc.2 (hb ▸ ha)).trans hb

section

variable {site referer : Str8} {st : RedirectState} {rs : List Response} {sts : List RedirectState}

theorem Carries.site_eq (h : Carries site referer st.headers) : st.site = site := by
  rw [RedirectState.site, h.site]
  rfl

theorem Carries.chain (h : Carries site referer st.headers) (hchain : RedirectChain st rs sts) :
    (∀ st' ∈ st :: sts, ∃ v, Carries v referer st'.headers) ∧
      (sts.getLastD st).site = (sts.map (·.curUrl)).foldl (degrade referer) site ∧
        (st :: sts).Pairwise Degrades ∧ ∀ st' ∈ sts, (urlParse st'.curUrl).ok = true := by
  induction hchain generalizing site with
  | nil st => exact ⟨by simpa using ⟨site, h⟩, h.site_eq, by simp, by simp⟩
  | @cons st st₁ r rs sts hop rest ih =>
    obtain ⟨hnext, hok⟩ := h.hop hop
    obtain ⟨hall, hlast, hpair, hoks⟩ := ih hnext
    have hstep : Degrades st st₁ := by
      rw [Degrades, h.site_eq, hnext.site_eq]
      exact ⟨degrade_rank_le, degrade_terminal⟩
    refine ⟨List.forall_mem_cons.mpr ⟨⟨site, h⟩, hall⟩, by rwa [List.getLastD_cons], ?_,
      List.forall_mem_cons.mpr ⟨hok, hoks⟩⟩
    refine List.pairwise_cons.mpr ⟨?_, hpair⟩
    rintro b hb
    rcases List.mem_cons.mp hb with rfl | hb
    · exact hstep
    · exact hstep.trans ((List.pairwise_cons.mp hpair).1 b hb)

theorem foldl_degrade_rank {urls : List Str8} (hreferer : referer ≠ [])
    (hrel : ∀ u ∈ urls, IsRelation (secFetchSite u referer)) (hsite : IsRelation site) :
    secSiteRank (urls.foldl (degrade referer) site) =
      (urls.map fun u => secSiteRank (secFetchSite u referer)).foldl max (secSiteRank site) := by
  induction urls generalizing site with
  | nil => rfl
  | cons u urls ih =>
    obtain ⟨hu, hurls⟩ := List.forall_mem_cons.mp hrel
    obtain ⟨hnext, hrank⟩ := degrade_rank_eq hsite hreferer hu
    rw [List.foldl_cons, ih hurls hnext, hrank]
    rfl

end

theorem headerValues_push (headers : HeaderList) (name value : Str8) (flags : UInt8) (key : Str8) :
    headerValues (headerListPush headers name value flags) key =
      headerValues headers key ++ if str8MatchCi name key then [value] else [] := by
  unfold headerValues headerListPush
  rw [List.filter_append, List.map_append]
  cases hname : str8MatchCi name key <;> simp [hname]

theorem headerValues_pushNew {name key : Str8} (headers : HeaderList) (value : Str8)
    (h : str8MatchCi name key = false) :
    headerValues (headerListPushNew headers name value) key = headerValues headers key := by
  unfold headerListPushNew
  split
  · rfl
  · rw [headerValues_push, h]
    simp

theorem secFetchAppend_carries {headers : HeaderList} {referer : Str8} (mode : FetchMode) (url : Str8)
    (hsite : headerValues headers (lit "sec-fetch-site") = [])
    (hreferer : headerValues headers (lit "referer") = [referer]) :
    Carries (secFetchSite url referer) referer (secFetchAppend headers mode url referer) := by
  have hvalues : ∀ key, str8MatchCi (lit "accept") key = false → str8MatchCi (lit "priority") key = false →
      str8MatchCi (lit "upgrade-insecure-requests") key = false → str8MatchCi (lit "sec-fetch-mode") key = false →
      str8MatchCi (lit "sec-fetch-dest") key = false → str8MatchCi (lit "sec-fetch-user") key = false →
      headerValues (secFetchAppend headers mode url referer) key = headerValues headers key ++
        if str8MatchCi (lit "sec-fetch-site") key then [secFetchSite url referer] else [] := by
    intro key h1 h2 h3 h4 h5 h6
    simp only [secFetchAppend]
    split <;> simp [headerValues_pushNew, headerValues_push, h1, h2, h3, h4, h5, h6]
  constructor
  · rw [hvalues _ (by decide) (by decide) (by decide) (by decide) (by decide) (by decide), hsite]
    rfl
  · rw [hvalues _ (by decide) (by decide) (by decide) (by decide) (by decide) (by decide), hreferer]
    rfl

/-- **`Sec-Fetch-Site` only degrades.** Along every chain from headers with one `Referer` and the value that
    `sec_fetch_append` computed: each request carries one value, no later one ranks lower, `none` and `cross-site`
    stay, and a relation becomes the worst of those to the URLs followed so far. -/
theorem secFetchSite_degrades {headers : HeaderList} {referer : Str8} {mode : FetchMode} {st : RedirectState}
    {rs : List Response} {sts : List RedirectState} (hsite : headerValues headers (lit "sec-fetch-site") = [])
    (hreferer : headerValues headers (lit "referer") = [referer])
    (hst : st.headers = secFetchAppend headers mode st.curUrl referer) (hchain : RedirectChain st rs sts) :
    st.site = secFetchSite st.curUrl referer ∧
      (∀ st' ∈ st :: sts, headerValues st'.headers (lit "sec-fetch-site") = [st'.site]) ∧
      (st :: sts).Pairwise Degrades ∧
      (st.site ≠ lit "none" →
        secSiteRank (sts.getLastD st).site =
          (sts.map fun s => secSiteRank (secFetchSite s.curUrl referer)).foldl max (secSiteRank st.site)) := by
  have hcar : Carries (secFetchSite st.curUrl referer) referer st.headers := by
    rw [hst]
    exact secFetchAppend_carries mode st.curUrl hsite hreferer
  obtain ⟨hall, hlast, hpair, hok⟩ := hcar.chain hchain
  refine ⟨hcar.site_eq, ?_, hpair, fun hne => ?_⟩
  · intro st' hmem
    obtain ⟨v, hv⟩ := hall st' hmem
    rw [hv.site_eq, hv.site]
  · rw [hcar.site_eq] at hne ⊢
    rcases secFetchSite_cases st.curUrl referer with ⟨href, hrok, hrel⟩ | hnone
    · rw [hlast, foldl_degrade_rank href ?_ hrel, List.map_map]
      · rfl
      · intro u hu
        obtain ⟨s, hs, rfl⟩ := List.mem_map.mp hu
        exact secFetchSite_relation href hrok (hok s hs)
    · exact absurd hnone hne

/-- A request for `https://a.test/x` from a page of the same origin, and an answer that leads elsewhere. -/
def sameOriginRequest : RedirectState where
  method := .get
  headers := secFetchAppend [⟨lit "referer", lit "https://a.test/", 0⟩] .cors (lit "https://a.test/x")
    (lit "https://a.test/")
  body := []
  curUrl  := lit "https://a.test/x"
  left := 5

def movedAway : Response := { ok := true, status := 302, headers := [⟨lit "location", lit "https://b.test/", 0⟩] }

def crossSiteRequest : RedirectState := (followHop sameOriginRequest movedAway).getD sameOriginRequest

theorem secFetchSite_degrades_away :
    secSiteRank sameOriginRequest.site = 1 ∧ secSiteRank crossSiteRequest.site = 3 ∧
      Degrades sameOriginRequest crossSiteRequest := by
  have hchain : RedirectChain sameOriginRequest [movedAway] [crossSiteRequest] :=
    .cons (by decide +kernel) (.nil _)
  obtain ⟨hfirst, -, hpair, hlast⟩ := @secFetchSite_degrades [⟨lit "referer", lit "https://a.test/", 0⟩]
    (lit "https://a.test/") .cors sameOriginRequest _ _ (by decide +kernel) (by decide +kernel) rfl hchain
  have hrank : secSiteRank sameOriginRequest.site = 1 := by
    rw [hfirst]
    decide +kernel
  refine ⟨hrank, ?_, (List.pairwise_cons.mp hpair).1 _ List.mem_cons_self⟩
  exact (hlast (by decide +kernel)).trans (by decide +kernel)

end HolyTls

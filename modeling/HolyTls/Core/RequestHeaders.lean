import HolyTls.Core.Header
import Mathlib.Data.List.Nodup

/-!
# `Core.RequestHeaders` — the headers of a request (`src/core/header_order.c`, `src/core/client.c`)

`build_request_headers` fills the caller's empty content-length slot, merges the caller's headers with the
defaults of the profile (`build_ordered_headers`), and adds an accept-encoding and a content-length that are
still missing. The list is three parts: the defaults that have a value, the caller's other headers that have
one, and what is added at the end (`buildRequestHeaders_parts`). No two of its names are equal, so "exactly
once" is a matter of what is in the list (`Distinct.filter_eq`).
-/

namespace HolyTls

variable {h : Header}

/-! ## The code -/

/-- `DefaultHeader`, without the HTTP/1.1 casing. -/
structure DefaultHeader where
  name : Str8
  value : Str8
deriving DecidableEq, Repr

/-- The first loop of `build_ordered_headers`; the loop inside looks up the caller's value. -/
def defaultsLoop (caller : HeaderList) : List DefaultHeader → HeaderList → HeaderList
  | [], out => out
  | d :: ds, out =>
    let value := (headerListGetCi caller d.name).getD d.value
    defaultsLoop caller ds (if value.length ≠ 0 then headerListPush out d.name value 0 else out)

/-- The loop inside the second one: a name of the table. -/
def isDefault (defaults : List DefaultHeader) (name : Str8) : Bool := defaults.any (fun d => str8MatchCi name d.name)

/-- The second loop. -/
def callerLoop (defaults : List DefaultHeader) : HeaderList → HeaderList → HeaderList
  | [], out => out
  | h :: hs, out =>
    if h.value.length = 0 then callerLoop defaults hs out
    else if isDefault defaults h.name then callerLoop defaults hs out
    else callerLoop defaults hs (headerListPush out h.name h.value 0)

/-- `build_ordered_headers`. -/
def buildOrderedHeaders (defaults : List DefaultHeader) (caller out : HeaderList) : HeaderList :=
  callerLoop defaults caller (defaultsLoop caller defaults out)

/-- `DEFAULT_ACCEPT_ENCODING`. -/
def defaultAcceptEncoding : Str8 := lit "gzip, deflate, br, zstd"

/-- The methods that send a content-length even without a body. -/
def Method.carriesBody (m : Method) : Bool := m == .post || m == .put || m == .patch

/-- The value for a content-length slot, empty if there is none. -/
def slotValue (body : Str8) (method : Method) : Str8 :=
  if body.length ≠ 0 then str8FromU64 body.length 10 0
  else if method.carriesBody then lit "0"
  else []

/-- The loop that fills the first empty content-length slot. -/
def fillSlot (cl : Str8) : HeaderList → HeaderList
  | [] => []
  | h :: hs =>
    if h.value.length == 0 && str8MatchCi h.name (lit "content-length") then
      (if cl.length ≠ 0 then { h with value := cl } else h) :: hs
    else h :: fillSlot cl hs

/-- The end of `build_request_headers`: the body, and the headers with a content-length. -/
def frameBody (body : Str8) (method : Method) (out : HeaderList) : Str8 × HeaderList :=
  if body.length ≠ 0 then
    (body, if !headerListHasCi out (lit "content-length")
      then headerListPush out (lit "content-length") (str8FromU64 body.length 10 0) 0 else out)
  else if method.carriesBody && !headerListHasCi out (lit "content-length") then
    ([], headerListPush out (lit "content-length") (lit "0") 0)
  else ([], out)

/-- `build_request_headers`: the body and the headers. -/
def buildRequestHeaders (defaults : List DefaultHeader) (caller : HeaderList) (body : Str8) (overrideDefaults : Bool)
    (method : Method) : Str8 × HeaderList :=
  let caller := fillSlot (slotValue body method) caller
  let out := buildOrderedHeaders (if overrideDefaults then [] else defaults) caller []
  let out := if !overrideDefaults && !headerListHasCi out (lit "accept-encoding")
    then headerListPush out (lit "accept-encoding") defaultAcceptEncoding 0 else out
  frameBody body method out

/-! ## Lists of distinct names -/

/-- No two headers have the same name, whatever the case. -/
def Distinct (l : HeaderList) : Prop := l.Pairwise (fun g h => lower g.name ≠ lower h.name)

section

variable {l : HeaderList} {h : Header} {name value : Str8}

theorem headerListHasCi_iff : headerListHasCi l name = true ↔ ∃ h ∈ l, lower h.name = lower name := by
  simp [headerListHasCi, headerListGetCi]

/-- In such a list a header is the only one of its name. -/
theorem Distinct.filter_eq (hl : Distinct l) (hmem : h ∈ l) (hname : lower h.name = lower name) :
    l.filter (fun x => str8MatchCi x.name name) = [h] := by
  induction l with
  | nil => cases hmem
  | cons x l ih =>
    obtain ⟨hx, hrest⟩ := List.pairwise_cons.mp hl
    rcases List.mem_cons.mp hmem with rfl | hmem
    · rw [List.filter_cons, if_pos (str8MatchCi_iff.mpr hname), List.filter_eq_nil_iff.mpr]
      intro y hy hmatch
      exact hx y hy (hname.trans (str8MatchCi_iff.mp hmatch).symm)
    · have hother : ¬ str8MatchCi x.name name = true := by
        intro hmatch
        exact hx h hmem ((str8MatchCi_iff.mp hmatch).trans hname.symm)
      rw [List.filter_cons, if_neg hother, ih hrest hmem]

theorem filter_eq_nil_of_name (hnone : ∀ h ∈ l, lower h.name ≠ lower name) :
    l.filter (fun x => str8MatchCi x.name name) = [] := by
  rw [List.filter_eq_nil_iff]
  intro h hh hmatch
  exact hnone h hh (str8MatchCi_iff.mp hmatch)

/-- The header that a lookup finds. -/
theorem Distinct.getCi_eq (hl : Distinct l) (hmem : h ∈ l) (hname : lower h.name = lower name) :
    headerListGetCi l name = some h.value := by
  rw [headerListGetCi, ← List.head?_filter, hl.filter_eq hmem hname]
  rfl

/-- What a header that is pushed only once adds. -/
theorem pushNew_added (l : HeaderList) (name value : Str8) :
    ∃ added, headerListPushNew l name value = l ++ added ∧
      (added = [] ∨ added = [{ name := name, value := value }]) ∧
      ((∃ h ∈ l, lower h.name = lower name) → added = []) := by
  unfold headerListPushNew
  split
  · exact ⟨[], (List.append_nil l).symm, .inl rfl, fun _ => rfl⟩
  · next hnone => exact ⟨_, rfl, .inr rfl, fun h => absurd (headerListHasCi_iff.mpr h) hnone⟩

theorem Distinct.pushNew (hl : Distinct l) (name value : Str8) : Distinct (headerListPushNew l name value) := by
  unfold headerListPushNew
  split
  · exact hl
  · next hnone =>
      refine List.pairwise_append.mpr ⟨hl, List.pairwise_singleton _ _, fun g hg h hh => ?_⟩
      rw [List.mem_singleton.mp hh]
      intro hname
      exact hnone (headerListHasCi_iff.mpr ⟨g, hg, hname⟩)

theorem mem_pushNew (l : HeaderList) (name value : Str8) :
    ∃ h ∈ headerListPushNew l name value, lower h.name = lower name := by
  unfold headerListPushNew
  split
  · next hsome => exact headerListHasCi_iff.mp hsome
  · exact ⟨_, List.mem_append_right _ (List.mem_singleton_self _), rfl⟩

end

/-! ## The merged list -/

/-- The value that goes with a default name. -/
def DefaultHeader.merged (caller : HeaderList) (d : DefaultHeader) : Str8 :=
  (headerListGetCi caller d.name).getD d.value

/-- The defaults that have a value. -/
def defaultPart (defaults : List DefaultHeader) (caller : HeaderList) : HeaderList :=
  (defaults.filter (fun d => d.merged caller ≠ [])).map (fun d => { name := d.name, value := d.merged caller })

/-- The other headers of the caller that have a value. -/
def callerPart (defaults : List DefaultHeader) (caller : HeaderList) : HeaderList :=
  (caller.filter (fun h => h.value ≠ [] ∧ isDefault defaults h.name = false)).map
    (fun h => { name := h.name, value := h.value })

section

variable {defaults : List DefaultHeader} {caller : HeaderList} {x : Header} {name : Str8}

theorem defaultsLoop_eq (caller : HeaderList) (defaults : List DefaultHeader) (out : HeaderList) :
    defaultsLoop caller defaults out = out ++ defaultPart defaults caller := by
  induction defaults generalizing out with
  | nil => exact (List.append_nil out).symm
  | cons d defaults ih =>
    rw [defaultsLoop, ih]
    by_cases hvalue : d.merged caller = []
    · have hlen : ((headerListGetCi caller d.name).getD d.value).length = 0 := List.length_eq_zero_iff.mpr hvalue
      simp [defaultPart, hvalue, hlen]
    · have hlen : ((headerListGetCi caller d.name).getD d.value).length ≠ 0 :=
        fun h => hvalue (List.length_eq_zero_iff.mp h)
      rw [if_pos hlen]
      simp [defaultPart, hvalue, headerListPush]
      rfl

theorem callerLoop_eq (defaults : List DefaultHeader) (caller out : HeaderList) :
    callerLoop defaults caller out = out ++ callerPart defaults caller := by
  induction caller generalizing out with
  | nil => exact (List.append_nil out).symm
  | cons h caller ih =>
    unfold callerLoop
    by_cases hvalue : h.value = []
    · rw [if_pos (List.length_eq_zero_iff.mpr hvalue), ih]
      simp [callerPart, hvalue]
    · rw [if_neg (fun hlen => hvalue (List.length_eq_zero_iff.mp hlen))]
      by_cases hdefault : isDefault defaults h.name = true
      · rw [if_pos hdefault, ih]
        simp [callerPart, hdefault]
      · rw [if_neg hdefault, ih]
        simp [callerPart, hdefault, hvalue, headerListPush]

/-- The two loops write the two parts. -/
theorem buildOrderedHeaders_eq (defaults : List DefaultHeader) (caller : HeaderList) :
    buildOrderedHeaders defaults caller [] = defaultPart defaults caller ++ callerPart defaults caller := by
  rw [buildOrderedHeaders, callerLoop_eq, defaultsLoop_eq, List.nil_append]

theorem isDefault_iff : isDefault defaults name = true ↔ ∃ d ∈ defaults, lower name = lower d.name := by
  simp [isDefault]

theorem mem_defaultPart : x ∈ defaultPart defaults caller ↔
    ∃ d ∈ defaults, d.merged caller ≠ [] ∧ x = { name := d.name, value := d.merged caller } := by
  simp only [defaultPart, List.mem_map, List.mem_filter, decide_eq_true_eq, and_assoc, @eq_comm _ x]

theorem mem_callerPart : x ∈ callerPart defaults caller ↔
    ∃ h ∈ caller, h.value ≠ [] ∧ isDefault defaults h.name = false ∧ x = { name := h.name, value := h.value } := by
  simp only [callerPart, List.mem_map, List.mem_filter, decide_eq_true_eq, and_assoc, @eq_comm _ x]

/-- No name is in both parts, nor twice in one. -/
theorem merged_distinct (hdefaults : defaults.Pairwise (fun d e => lower d.name ≠ lower e.name))
    (hcaller : Distinct caller) : Distinct (defaultPart defaults caller ++ callerPart defaults caller) := by
  refine List.pairwise_append.mpr ⟨?_, ?_, ?_⟩
  · exact List.pairwise_map.mpr (hdefaults.sublist List.filter_sublist)
  · exact List.pairwise_map.mpr (hcaller.sublist List.filter_sublist)
  · intro g hg h hh hname
    obtain ⟨d, hd, -, rfl⟩ := mem_defaultPart.mp hg
    obtain ⟨c, -, -, hother, rfl⟩ := mem_callerPart.mp hh
    have hdefault : isDefault defaults c.name = true := isDefault_iff.mpr ⟨d, hd, hname.symm⟩
    rw [hother] at hdefault
    cases hdefault

end

/-! ## The slot -/

/-- A header with the slot's value if it is a content-length. -/
def Header.fill (cl : Str8) (h : Header) : Header :=
  if lower h.name = lower (lit "content-length") then { h with value := cl } else h

section

variable {cl : Str8} {caller : HeaderList}

theorem Header.fill_name (cl : Str8) (h : Header) : (h.fill cl).name = h.name := by
  unfold Header.fill
  split <;> rfl

theorem Header.fill_of_ne (hname : lower h.name ≠ lower (lit "content-length")) : h.fill cl = h :=
  if_neg hname

/-- With distinct names there is one slot at most. -/
theorem fillSlot_eq (hcaller : Distinct caller)
    (hempty : ∀ h ∈ caller, lower h.name = lower (lit "content-length") → h.value = []) :
    fillSlot cl caller = caller.map (Header.fill cl) := by
  induction caller with
  | nil => rfl
  | cons h caller ih =>
    obtain ⟨hfirst, hrest⟩ := List.pairwise_cons.mp hcaller
    by_cases hname : lower h.name = lower (lit "content-length")
    · have hvalue := hempty h List.mem_cons_self hname
      have hslot : (h.value.length == 0 && str8MatchCi h.name (lit "content-length")) = true := by
        rw [hvalue, str8MatchCi_iff.mpr hname]
        rfl
      have hfill : (if cl.length ≠ 0 then { h with value := cl } else h) = h.fill cl := by
        unfold Header.fill
        rw [if_pos hname]
        cases cl with
        | nil => rw [if_neg (by simp), ← hvalue]
        | cons b cl => exact if_pos (by simp)
      have hothers : caller.map (Header.fill cl) = caller := by
        refine (List.map_congr_left (fun g hg => Header.fill_of_ne ?_)).trans (List.map_id caller)
        exact fun hg' => hfirst g hg (hname.trans hg'.symm)
      rw [fillSlot, if_pos hslot, hfill, List.map_cons, hothers]
    · have hslot : ¬ (h.value.length == 0 && str8MatchCi h.name (lit "content-length")) = true := by
        intro hslot
        exact hname (str8MatchCi_iff.mp (Bool.and_eq_true_iff.mp hslot).2)
      rw [fillSlot, if_neg hslot, List.map_cons, Header.fill_of_ne hname,
        ih hrest (fun g hg => hempty g (List.mem_cons_of_mem h hg))]

/-- Names and values other than the slot's are as before. -/
theorem getCi_fill (caller : HeaderList) {name : Str8} (h : lower name ≠ lower (lit "content-length")) :
    headerListGetCi (caller.map (Header.fill cl)) name = headerListGetCi caller name := by
  unfold headerListGetCi
  have hsame : (fun g : Header => str8MatchCi g.name name) ∘ Header.fill cl = fun g => str8MatchCi g.name name := by
    funext g
    exact congrArg (str8MatchCi · name) (g.fill_name cl)
  rw [List.find?_map, hsame]
  cases hfind : caller.find? (fun g => str8MatchCi g.name name) with
  | none => rfl
  | some g =>
    have hname : lower g.name = lower name := by simpa using List.find?_some hfind
    rw [Option.map_some, Header.fill_of_ne (hname ▸ h)]

theorem Distinct.fill (hcaller : Distinct caller) : Distinct (caller.map (Header.fill cl)) := by
  refine List.pairwise_map.mpr (hcaller.imp ?_)
  intro g h hne
  rwa [Header.fill_name, Header.fill_name]

theorem slotValue_eq {body : Str8} (h : body.length < 2 ^ 64) (method : Method) :
    slotValue body method = if body ≠ [] ∨ method.carriesBody = true then decimal body.length else [] := by
  unfold slotValue
  by_cases hbody : body = []
  · have hzero : lit "0" = decimal 0 := by decide
    simp [hbody, hzero]
  · have hlen : body.length ≠ 0 := fun h => hbody (List.length_eq_zero_iff.mp h)
    rw [if_pos hlen, if_pos (.inl hbody), str8FromU64_decimal h]

/-- The length does not wrap. -/
theorem frameBody_eq {body : Str8} (h : body.length < 2 ^ 64) (method : Method) (out : HeaderList) :
    frameBody body method out = (body, if body ≠ [] ∨ method.carriesBody = true
      then headerListPushNew out (lit "content-length") (decimal body.length) else out) := by
  unfold frameBody headerListPushNew
  by_cases hbody : body = []
  · have hzero : lit "0" = decimal 0 := by decide
    rw [hbody, hzero]
    cases method.carriesBody <;> cases headerListHasCi out (lit "content-length") <;> rfl
  · have hlen : body.length ≠ 0 := fun h => hbody (List.length_eq_zero_iff.mp h)
    have hdue : body ≠ [] ∨ method.carriesBody = true := .inl hbody
    rw [if_pos hlen, if_pos hdue, str8FromU64_decimal h]
    cases headerListHasCi out (lit "content-length") <;> rfl

end

/-! ## Whole requests -/

/-- What `build_request_headers` is given. The names of the table differ, and those of the caller, ignoring
    case; the table has no content-length, and the caller at most an empty one. -/
structure RequestParts where
  defaults : List DefaultHeader
  caller : HeaderList
  body : Str8
  overrideDefaults : Bool
  method : Method
  defaults_distinct : defaults.Pairwise (fun d e => lower d.name ≠ lower e.name)
  defaults_length : ∀ d ∈ defaults, lower d.name ≠ lower (lit "content-length")
  caller_distinct : Distinct caller
  caller_length : ∀ h ∈ caller, lower h.name = lower (lit "content-length") → h.value = []
  /-- `body_len` is a `U64` -/
  body_lt : body.length < 2 ^ 64

namespace RequestParts

variable (p : RequestParts)

variable {d : DefaultHeader} {x : Header}

/-- The request as the code builds it. -/
def build : Str8 × HeaderList := buildRequestHeaders p.defaults p.caller p.body p.overrideDefaults p.method

/-- The table that is used. -/
def table : List DefaultHeader := if p.overrideDefaults then [] else p.defaults

/-- A content-length is due. -/
def needsLength : Prop := p.body ≠ [] ∨ p.method.carriesBody = true

instance : Decidable p.needsLength := inferInstanceAs (Decidable (_ ∨ _))

/-- The caller's headers with the slot filled. -/
def filled : HeaderList := p.caller.map (Header.fill (slotValue p.body p.method))

/-- The merged list. -/
def merged : HeaderList := defaultPart p.table p.filled ++ callerPart p.table p.filled

/-- The merged list with an accept-encoding. -/
def encoded : HeaderList :=
  if p.overrideDefaults then p.merged else headerListPushNew p.merged (lit "accept-encoding") defaultAcceptEncoding

/-- The stages of the code. -/
theorem build_eq : p.build = (p.body, if p.needsLength
    then headerListPushNew p.encoded (lit "content-length") (decimal p.body.length) else p.encoded) := by
  have hencoded : (if !p.overrideDefaults && !headerListHasCi p.merged (lit "accept-encoding")
      then headerListPush p.merged (lit "accept-encoding") defaultAcceptEncoding 0 else p.merged) = p.encoded := by
    unfold encoded headerListPushNew
    cases p.overrideDefaults <;> cases headerListHasCi p.merged (lit "accept-encoding") <;> rfl
  have hmerged : buildOrderedHeaders (if p.overrideDefaults then [] else p.defaults)
      (fillSlot (slotValue p.body p.method) p.caller) [] = p.merged := by
    rw [fillSlot_eq p.caller_distinct p.caller_length, buildOrderedHeaders_eq]
    rfl
  unfold build buildRequestHeaders
  dsimp only
  rw [hmerged, hencoded]
  exact frameBody_eq p.body_lt p.method p.encoded

theorem mem_table (h : d ∈ p.table) : d ∈ p.defaults := by
  unfold table at h
  split at h
  · cases h
  · exact h

theorem table_distinct : p.table.Pairwise (fun d e => lower d.name ≠ lower e.name) := by
  unfold table
  split
  · exact List.Pairwise.nil
  · exact p.defaults_distinct

/-- A name of the table stands there once. -/
theorem table_inj {e : DefaultHeader} (hd : d ∈ p.table) (he : e ∈ p.table) (h : lower d.name = lower e.name) :
    d = e :=
  List.inj_on_of_nodup_map (List.pairwise_map.mpr p.table_distinct) hd he h

theorem filled_distinct : Distinct p.filled := p.caller_distinct.fill

theorem merged_distinct : Distinct p.merged := HolyTls.merged_distinct p.table_distinct p.filled_distinct

theorem encoded_distinct : Distinct p.encoded := by
  unfold encoded
  split
  · exact p.merged_distinct
  · exact p.merged_distinct.pushNew _ _

theorem build_distinct : Distinct p.build.2 := by
  rw [build_eq]
  dsimp only
  split
  · exact p.encoded_distinct.pushNew _ _
  · exact p.encoded_distinct

/-! ### What is added at the end -/

/-- The added accept-encoding. -/
def encodingHeader : Header := { name := lit "accept-encoding", value := defaultAcceptEncoding }

/-- The added content-length. -/
def lengthHeader : Header := { name := lit "content-length", value := decimal p.body.length }

/-- The two parts stay as they are; an accept-encoding and a content-length may follow. -/
theorem buildRequestHeaders_parts : ∃ added,
    p.build.2 = defaultPart p.table p.filled ++ callerPart p.table p.filled ++ added ∧
    (∀ x ∈ added, (x = encodingHeader ∧ p.overrideDefaults = false) ∨ (x = p.lengthHeader ∧ p.needsLength)) ∧
    ((∃ h ∈ p.merged, lower h.name = lower (lit "content-length")) →
      ∀ x ∈ added, lower x.name ≠ lower (lit "content-length")) := by
  obtain ⟨a, hencoded, ha⟩ : ∃ a, p.encoded = p.merged ++ a ∧
      ∀ x ∈ a, x = encodingHeader ∧ p.overrideDefaults = false := by
    unfold encoded
    split
    · exact ⟨[], (List.append_nil _).symm, fun x hx => absurd hx List.not_mem_nil⟩
    · next hoverride =>
        obtain ⟨a, ha, hcases, -⟩ := pushNew_added p.merged (lit "accept-encoding") defaultAcceptEncoding
        refine ⟨a, ha, fun x hx => ⟨?_, Bool.not_eq_true _ ▸ hoverride⟩⟩
        rcases hcases with rfl | rfl
        · cases hx
        · exact List.mem_singleton.mp hx
  have hencoding : ∀ x ∈ a, lower x.name ≠ lower (lit "content-length") := by
    intro x hx
    rw [(ha x hx).1]
    decide
  by_cases hneeds : p.needsLength
  · obtain ⟨b, hb, hcases, hhas⟩ := pushNew_added p.encoded (lit "content-length") (decimal p.body.length)
    refine ⟨a ++ b, ?_, fun x hx => ?_, ?_⟩
    · rw [build_eq, if_pos hneeds]
      dsimp only
      rw [hb, hencoded, List.append_assoc]
      rfl
    · rcases List.mem_append.mp hx with hx | hx
      · exact .inl (ha x hx)
      · rcases hcases with rfl | rfl
        · cases hx
        · exact .inr ⟨List.mem_singleton.mp hx, hneeds⟩
    · rintro ⟨h, hh, hname⟩
      rw [hhas ⟨h, hencoded ▸ List.mem_append_left a hh, hname⟩, List.append_nil]
      exact hencoding
  · refine ⟨a, ?_, fun x hx => .inl (ha x hx), fun _ => hencoding⟩
    rw [build_eq, if_neg hneeds]
    exact hencoded

theorem mem_build_of_merged (h : x ∈ p.merged) : x ∈ p.build.2 := by
  obtain ⟨added, hout, -⟩ := p.buildRequestHeaders_parts
  rw [hout]
  exact List.mem_append_left added h

/-! ### The content-length -/

theorem filled_value (hx : x ∈ p.filled) (hname : lower x.name = lower (lit "content-length")) :
    x.value = if p.needsLength then decimal p.body.length else [] := by
  obtain ⟨h, -, rfl⟩ := List.mem_map.mp hx
  rw [Header.fill_name] at hname
  rw [Header.fill, if_pos hname]
  exact slotValue_eq p.body_lt p.method

/-- A slot has the length of the body, and is dropped if none is due. -/
theorem merged_length (hx : x ∈ p.merged) (hname : lower x.name = lower (lit "content-length")) :
    x.value = decimal p.body.length ∧ p.needsLength := by
  rcases List.mem_append.mp hx with hx | hx
  · obtain ⟨d, hd, -, rfl⟩ := mem_defaultPart.mp hx
    exact absurd hname (p.defaults_length d (p.mem_table hd))
  · obtain ⟨h, hh, hvalue, -, rfl⟩ := mem_callerPart.mp hx
    have hslot := p.filled_value hh hname
    by_cases hneeds : p.needsLength
    · rw [if_pos hneeds] at hslot
      exact ⟨hslot, hneeds⟩
    · rw [if_neg hneeds] at hslot
      exact absurd hslot hvalue

theorem slot_mem_merged (hneeds : p.needsLength) (hh : h ∈ p.caller)
    (hname : lower h.name = lower (lit "content-length")) :
    ∃ x ∈ p.merged, lower x.name = lower (lit "content-length") := by
  have hmem : h.fill (slotValue p.body p.method) ∈ p.filled := List.mem_map_of_mem hh
  have hname' : lower (h.fill (slotValue p.body p.method)).name = lower (lit "content-length") := by
    rwa [Header.fill_name]
  have hvalue := p.filled_value hmem hname'
  rw [if_pos hneeds] at hvalue
  have hother : isDefault p.table (h.fill (slotValue p.body p.method)).name = false := by
    rw [Bool.eq_false_iff]
    intro hdefault
    obtain ⟨d, hd, hd'⟩ := isDefault_iff.mp hdefault
    exact p.defaults_length d (p.mem_table hd) (hd'.symm.trans hname')
  refine ⟨_, List.mem_append_right _ (mem_callerPart.mpr ⟨_, hmem, ?_, hother, rfl⟩), hname'⟩
  rw [hvalue]
  exact decimal_ne_nil _

theorem build_length (hx : x ∈ p.build.2) (hname : lower x.name = lower (lit "content-length")) :
    x.value = decimal p.body.length ∧ p.needsLength := by
  obtain ⟨added, hout, hadded, -⟩ := p.buildRequestHeaders_parts
  rw [hout] at hx
  rcases List.mem_append.mp hx with hx | hx
  · exact p.merged_length hx hname
  · rcases hadded x hx with ⟨rfl, -⟩ | ⟨rfl, hneeds⟩
    · exact absurd hname (by decide)
    · exact ⟨rfl, hneeds⟩

/-- The content-length is there once, or not at all. -/
theorem content_length_once : (p.build.2.filter (fun h => str8MatchCi h.name (lit "content-length"))).map (·.value) =
    if p.needsLength then [decimal p.body.length] else [] := by
  by_cases hneeds : p.needsLength
  · obtain ⟨x, hx, hname⟩ : ∃ x ∈ p.build.2, lower x.name = lower (lit "content-length") := by
      rw [build_eq, if_pos hneeds]
      exact mem_pushNew _ _ _
    rw [if_pos hneeds, p.build_distinct.filter_eq hx hname, List.map_singleton, (p.build_length hx hname).1]
  · rw [if_neg hneeds, filter_eq_nil_of_name (fun h hh hname => hneeds (p.build_length hh hname).2), List.map_nil]

/-! ### The headers of the caller and of the table -/

/-- So is every header of the caller that has a value. -/
theorem caller_once (hh : h ∈ p.caller) (hvalue : h.value ≠ []) :
    (p.build.2.filter (fun x => str8MatchCi x.name h.name)).map (·.value) = [h.value] := by
  have hname : lower h.name ≠ lower (lit "content-length") := fun hname => hvalue (p.caller_length h hh hname)
  have hmem : h ∈ p.filled := Header.fill_of_ne hname ▸ List.mem_map_of_mem (f := Header.fill _) hh
  obtain ⟨x, hx, hxname, hxvalue⟩ : ∃ x ∈ p.merged, lower x.name = lower h.name ∧ x.value = h.value := by
    by_cases hdefault : isDefault p.table h.name = true
    · obtain ⟨d, hd, hd'⟩ := isDefault_iff.mp hdefault
      have hmerged : d.merged p.filled = h.value := by
        rw [DefaultHeader.merged, p.filled_distinct.getCi_eq hmem hd', Option.getD_some]
      exact ⟨_, List.mem_append_left _ (mem_defaultPart.mpr ⟨d, hd, hmerged ▸ hvalue, rfl⟩), hd'.symm, hmerged⟩
    · rw [Bool.not_eq_true] at hdefault
      exact ⟨_, List.mem_append_right _ (mem_callerPart.mpr ⟨h, hmem, hvalue, hdefault, rfl⟩), rfl, rfl⟩
  rw [p.build_distinct.filter_eq (p.mem_build_of_merged hx) hxname, List.map_singleton, hxvalue]

theorem default_merged (hd : d ∈ p.defaults) : d.merged p.filled = d.merged p.caller := by
  unfold DefaultHeader.merged filled
  rw [getCi_fill _ (p.defaults_length d hd)]

theorem default_once (htable : p.overrideDefaults = false) (hd : d ∈ p.defaults)
    (hname : lower d.name ≠ lower (lit "accept-encoding")) :
    p.build.2.filter (fun x => str8MatchCi x.name d.name) =
      if d.merged p.caller = [] then [] else [{ name := d.name, value := d.merged p.caller }] := by
  have hd' : d ∈ p.table := by
    unfold table
    rwa [htable]
  split
  · next hvalue =>
      obtain ⟨added, hout, hadded, -⟩ := p.buildRequestHeaders_parts
      refine filter_eq_nil_of_name (fun x hx hxname => ?_)
      rw [hout] at hx
      rcases List.mem_append.mp hx with hx | hx
      · rcases List.mem_append.mp hx with hx | hx
        · -- another default has another name, and this one has no value
          obtain ⟨e, he, hevalue, rfl⟩ := mem_defaultPart.mp hx
          obtain rfl := p.table_inj he hd' hxname
          exact hevalue ((p.default_merged hd).trans hvalue)
        · obtain ⟨h, -, -, hother, rfl⟩ := mem_callerPart.mp hx
          rw [isDefault_iff.mpr ⟨d, hd', hxname⟩] at hother
          cases hother
      · rcases hadded x hx with ⟨rfl, -⟩ | ⟨rfl, -⟩
        · exact hname hxname.symm
        · exact p.defaults_length d hd hxname.symm
  · next hvalue =>
      rw [← p.default_merged hd] at hvalue ⊢
      exact p.build_distinct.filter_eq
        (p.mem_build_of_merged (List.mem_append_left _ (mem_defaultPart.mpr ⟨d, hd', hvalue, rfl⟩))) rfl

theorem accept_encoding_mem (htable : p.overrideDefaults = false) :
    ∃ h ∈ p.build.2, lower h.name = lower (lit "accept-encoding") := by
  obtain ⟨h, hh, hname⟩ : ∃ h ∈ p.encoded, lower h.name = lower (lit "accept-encoding") := by
    unfold encoded
    rw [htable]
    exact mem_pushNew _ _ _
  refine ⟨h, ?_, hname⟩
  rw [build_eq]
  dsimp only
  split
  · obtain ⟨added, hout, -⟩ := pushNew_added p.encoded (lit "content-length") (decimal p.body.length)
    rw [hout]
    exact List.mem_append_left added hh
  · exact hh

/-- Overridden, the table adds nothing. -/
theorem override_only (htable : p.overrideDefaults = true) (hx : x ∈ p.build.2) :
    lower x.name = lower (lit "content-length") ∨ ∃ h ∈ p.caller, x.name = h.name ∧ x.value = h.value := by
  obtain ⟨added, hout, hadded, -⟩ := p.buildRequestHeaders_parts
  have hnil : p.table = [] := by
    unfold table
    rw [htable]
    rfl
  rw [hout, hnil] at hx
  rcases List.mem_append.mp hx with hx | hx
  · obtain ⟨h, hh, -, -, rfl⟩ := mem_callerPart.mp (show x ∈ callerPart [] p.filled from hx)
    obtain ⟨g, hg, rfl⟩ := List.mem_map.mp hh
    by_cases hname : lower g.name = lower (lit "content-length")
    · exact .inl ((congrArg lower (g.fill_name _)).trans hname)
    · rw [Header.fill_of_ne hname]
      exact .inr ⟨g, hg, rfl, rfl⟩
  · rcases hadded x hx with ⟨-, hoff⟩ | ⟨rfl, -⟩
    · rw [htable] at hoff
      cases hoff
    · exact .inl rfl

end RequestParts

/-- The headers of a request are framed correctly and none is lost. -/
structure Framed (p : RequestParts) (out : HeaderList) : Prop where
  /-- one content-length, the length of the body, where it is due, and none otherwise -/
  content_length : (out.filter (fun h => str8MatchCi h.name (lit "content-length"))).map (·.value) =
    if p.body ≠ [] ∨ p.method ∈ [.post, .put, .patch] then [decimal p.body.length] else []
  /-- a header of the caller that has a value is there once, with it -/
  caller_kept : ∀ h ∈ p.caller, h.value ≠ [] →
    (out.filter (fun x => str8MatchCi x.name h.name)).map (·.value) = [h.value]
  /-- no name twice -/
  distinct : Distinct out
  /-- a default takes the caller's value, and is dropped if that is empty -/
  defaults_kept : p.overrideDefaults = false → ∀ d ∈ p.defaults, lower d.name ≠ lower (lit "accept-encoding") →
    out.filter (fun x => str8MatchCi x.name d.name) =
      if d.merged p.caller = [] then [] else [{ name := d.name, value := d.merged p.caller }]
  accept_encoding : p.overrideDefaults = false → ∃ h ∈ out, lower h.name = lower (lit "accept-encoding")
  overridden : p.overrideDefaults = true → ∀ x ∈ out,
    lower x.name = lower (lit "content-length") ∨ ∃ h ∈ p.caller, x.name = h.name ∧ x.value = h.value
  /-- the table's names in its order, then the caller's others in theirs, then what was missing: the fallback
      accept-encoding only where neither part has one and the defaults are not overridden, and a content-length
      only where the caller has no slot for it -/
  ordered : ∃ front middle added, out = front ++ middle ++ added ∧
    (front.map (·.name)).Sublist (p.table.map (·.name)) ∧
    (middle.map (·.name)).Sublist ((p.caller.filter (fun h => isDefault p.table h.name = false)).map (·.name)) ∧
    (∀ x ∈ added, x = RequestParts.encodingHeader ∨ x = p.lengthHeader) ∧
    (RequestParts.encodingHeader ∈ added → p.overrideDefaults = false ∧
      ∀ h ∈ front ++ middle, lower h.name ≠ lower (lit "accept-encoding")) ∧
    ((∃ h ∈ p.caller, lower h.name = lower (lit "content-length")) →
      ∀ x ∈ added, lower x.name ≠ lower (lit "content-length"))

theorem carriesBody_iff (m : Method) : m.carriesBody = true ↔ m ∈ [.post, .put, .patch] := by
  cases m <;> decide

namespace RequestParts

variable (p : RequestParts)

theorem build_ordered : ∃ front middle added, p.build.2 = front ++ middle ++ added ∧
    (front.map (·.name)).Sublist (p.table.map (·.name)) ∧
    (middle.map (·.name)).Sublist ((p.caller.filter (fun h => isDefault p.table h.name = false)).map (·.name)) ∧
    (∀ x ∈ added, x = encodingHeader ∨ x = p.lengthHeader) ∧
    (encodingHeader ∈ added → p.overrideDefaults = false ∧
      ∀ h ∈ front ++ middle, lower h.name ≠ lower (lit "accept-encoding")) ∧
    ((∃ h ∈ p.caller, lower h.name = lower (lit "content-length")) →
      ∀ x ∈ added, lower x.name ≠ lower (lit "content-length")) := by
  obtain ⟨added, hout, hadded, hslot⟩ := p.buildRequestHeaders_parts
  refine ⟨_, _, added, hout, ?_, ?_, fun x hx => (hadded x hx).imp And.left And.left, fun hx => ⟨?_, ?_⟩, ?_⟩
  · rw [defaultPart, List.map_map]
    exact List.filter_sublist.map _
  · have hnames : (p.filled.filter (fun h => isDefault p.table h.name = false)).map (·.name) =
        (p.caller.filter (fun h => isDefault p.table h.name = false)).map (·.name) := by
      rw [filled, List.filter_map, List.map_map]
      simp only [Function.comp_def, Header.fill_name]
    rw [← hnames, callerPart, List.map_map]
    refine List.Sublist.map _ (List.monotone_filter_right _ ?_)
    intro h hh
    simp only [decide_eq_true_eq] at hh ⊢
    exact hh.2
  · rcases hadded _ hx with ⟨-, hkept⟩ | ⟨heq, -⟩
    · exact hkept
    · exact absurd (congrArg Header.name heq) (show encodingHeader.name ≠ lit "content-length" by decide)
  · intro h hh
    have hdistinct := p.build_distinct
    rw [hout] at hdistinct
    exact (List.pairwise_append.mp hdistinct).2.2 h hh _ hx
  · rintro ⟨h, hh, hname⟩ x hx
    rcases hadded x hx with ⟨rfl, -⟩ | ⟨-, hneeds⟩
    · decide
    · exact hslot (p.slot_mem_merged hneeds hh hname) x hx

end RequestParts

/-- **Request headers are framed correctly and lose nothing**, for every table, caller, body, method and
    override; and the body is returned as it was given. -/
theorem request_headers_framed (p : RequestParts) : p.build.1 = p.body ∧ Framed p p.build.2 := by
  refine ⟨by rw [p.build_eq], ?_⟩
  refine { content_length := ?_
           caller_kept := fun h hh hvalue => p.caller_once hh hvalue
           distinct := p.build_distinct
           defaults_kept := fun htable d hd hname => p.default_once htable hd hname
           accept_encoding := p.accept_encoding_mem
           overridden := fun htable x hx => p.override_only htable hx
           ordered := p.build_ordered }
  rw [p.content_length_once]
  simp only [RequestParts.needsLength, carriesBody_iff]

/-- The slot is filled in place; a default without a value is left out, one of the caller's takes its slot. -/
example : (buildRequestHeaders
      [⟨lit "user-agent", lit "UA"⟩, ⟨lit "cookie", []⟩, ⟨lit "accept-encoding", lit "gzip"⟩]
      [⟨lit "x-first", lit "a", 0⟩, ⟨lit "Content-Length", [], 0⟩, ⟨lit "User-Agent", lit "me", 0⟩,
        ⟨lit "x-last", lit "b", 0⟩]
      (lit "hello") false .post).2 =
    [⟨lit "user-agent", lit "me", 0⟩, ⟨lit "accept-encoding", lit "gzip", 0⟩, ⟨lit "x-first", lit "a", 0⟩,
      ⟨lit "Content-Length", lit "5", 0⟩, ⟨lit "x-last", lit "b", 0⟩] := by
  decide +kernel

end HolyTls

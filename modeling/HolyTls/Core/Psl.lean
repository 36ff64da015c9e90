import Mathlib.Data.List.GetD
import HolyTls.Base.Str8

/-!
# `Core.Psl` — the public-suffix test (`src/core/psl.c`)

The three rule tables are generated from the public suffix list and are far too large to embed; they are
the parameter `PslTables`, and every result that mentions the test holds for all tables.
-/

namespace HolyTls

/-- `strcmp` on the strings before the terminating NUL: bytes compare unsigned. -/
def strcmp : Str8 → Str8 → Ordering
  | [], [] => .eq
  | [], _ :: _ => .lt
  | _ :: _, [] => .gt
  | a :: as, b :: bs => if a < b then .lt else if b < a then .gt else strcmp as bs

/-- The generated tables: exceptions (`!rule`), exact rules, and the parents of wildcard rules. -/
structure PslTables where
  exception : List Str8
  exact : List Str8
  wildcard : List Str8

/-- The binary search of `psl_table_has` on the half-open range `[lo, hi)`; `fuel` bounds its length. -/
def pslTableHasLoop (table : List Str8) (key : Str8) : Nat → Nat → Nat → Bool
  | 0, _, _ => false
  | fuel + 1, lo, hi =>
    if lo < hi then
      let mid := lo + (hi - lo) / 2
      match strcmp key (table.getD mid []) with
      | .eq => true
      | .lt => pslTableHasLoop table key fuel lo mid
      | .gt => pslTableHasLoop table key fuel (mid + 1) hi
    else false

/-- `psl_table_has`. -/
def pslTableHas (table : List Str8) (key : Str8) : Bool :=
  pslTableHasLoop table key table.length 0 table.length

/-- `psl_is_public_suffix`. The lower-cased copy `d` is a C string: it ends at the first NUL. -/
def pslIsPublicSuffix (psl : PslTables) (domain : Str8) : Bool :=
  if domain.isEmpty || domain.length ≥ 256 then false
  else
    let d := lower domain
    let d := if d.getLast? == some 46 then d.dropLast else d  -- one trailing dot is tolerated
    if d.isEmpty then false
    else
      let d := fmtS d
      if pslTableHas psl.exception d then false
      else if pslTableHas psl.exact d then true
      else
        match str8IndexOf d 46 with
        | none => true  -- an unlisted single label
        | some dot => pslTableHas psl.wildcard (str8Skip d (dot + 1))

/-! ## The tables are sets of names -/

theorem strcmp_eq_compare (a b : Str8) : strcmp a b = compare a b := by
  induction a generalizing b with
  | nil =>
    cases b with
    | nil | cons y b => rfl
  | cons x a ih =>
    cases b with
    | nil => rfl
    | cons y b =>
      have hbyte : compare x y = if x < y then .lt else if y < x then .gt else .eq := by
        show compareOfLessAndEq x y = _
        unfold compareOfLessAndEq
        grind
      rw [strcmp, List.compare_cons_cons, ih, hbyte]
      split_ifs <;> rfl

/-- Sorted by byte order. -/
def PslSorted (table : List Str8) : Prop := table.Pairwise fun a b => strcmp a b ≠ .gt

/-- The search finds what stands between `lo` and `hi`. -/
theorem pslTableHasLoop_iff {table : List Str8} (hsorted : PslSorted table) (key : Str8) {fuel lo hi : Nat}
    (hfuel : hi - lo ≤ fuel) (hhi : hi ≤ table.length) :
    pslTableHasLoop table key fuel lo hi = true ↔ ∃ k, lo ≤ k ∧ k < hi ∧ table.getD k [] = key := by
  have hle : ∀ i j, i ≤ j → j < table.length → (compare (table.getD i []) (table.getD j [])).isLE = true := by
    intro i j hij hj
    rcases Nat.lt_or_eq_of_le hij with hlt | rfl
    · have hpair := List.pairwise_iff_getElem.mp hsorted i j (Nat.lt_trans hlt hj) hj hlt
      rw [strcmp_eq_compare] at hpair
      rw [List.getD_eq_getElem _ _ (Nat.lt_trans hlt hj), List.getD_eq_getElem _ _ hj]
      exact Ordering.isLE_iff_ne_gt.mpr hpair
    · exact Std.ReflCmp.isLE_rfl
  induction fuel generalizing lo hi with
  | zero =>
    simp only [pslTableHasLoop, Bool.false_eq_true, false_iff]
    rintro ⟨k, hlo, hk, -⟩
    omega
  | succ fuel ih =>
    rw [pslTableHasLoop]
    by_cases hlt : lo < hi
    · rw [if_pos hlt]
      dsimp only
      generalize hmid : lo + (hi - lo) / 2 = mid
      rw [strcmp_eq_compare]
      cases hcmp : compare key (table.getD mid []) with
      | eq =>
        have hkey := Std.LawfulEqCmp.eq_of_compare hcmp
        simp only [true_iff]
        exact ⟨mid, by omega, by omega, hkey.symm⟩
      | lt =>
        -- everything from `mid` on is above the key
        have hleft := @ih lo mid (by omega) (by omega)
        refine hleft.trans ⟨?_, ?_⟩
        · rintro ⟨k, hlo, hk, hkey⟩
          exact ⟨k, hlo, by omega, hkey⟩
        · rintro ⟨k, hlo, hk, rfl⟩
          refine ⟨k, hlo, Nat.lt_of_not_le fun hge => ?_, rfl⟩
          have hself := Std.TransCmp.lt_of_lt_of_isLE hcmp (hle mid k hge (by omega))
          simp at hself
      | gt =>
        have hright := @ih (mid + 1) hi (by omega) hhi
        refine hright.trans ⟨?_, ?_⟩
        · rintro ⟨k, hlo, hk, hkey⟩
          exact ⟨k, by omega, hk, hkey⟩
        · rintro ⟨k, hlo, hk, rfl⟩
          refine ⟨k, Nat.lt_of_not_le fun hge => ?_, hk, rfl⟩
          have hself := Std.TransCmp.lt_of_isLE_of_lt (hle k mid hge (by omega)) (Std.OrientedCmp.lt_of_gt hcmp)
          simp at hself
    · rw [if_neg hlt]
      simp only [Bool.false_eq_true, false_iff]
      rintro ⟨k, hlo, hk, -⟩
      omega

theorem pslTableHas_iff {table : List Str8} (hsorted : PslSorted table) (key : Str8) :
    pslTableHas table key = true ↔ key ∈ table := by
  rw [pslTableHas, pslTableHasLoop_iff hsorted key (Nat.sub_le _ _) (Nat.le_refl _)]
  constructor
  · rintro ⟨k, -, hk, rfl⟩
    rw [List.getD_eq_getElem _ _ hk]
    exact List.getElem_mem hk
  · intro hmem
    obtain ⟨k, hk, rfl⟩ := List.getElem_of_mem hmem
    exact ⟨k, Nat.zero_le k, hk, List.getD_eq_getElem _ _ hk⟩

/-! ## The algorithm of the list -/

/-- The labels of a name, from the left. -/
def pslLabels (name : Str8) : List Str8 := name.splitOn 46

/-- A rule of the list. -/
inductive PslRule
  | exact (name : Str8)
  | wildcard (parent : Str8)
  | exception (name : Str8)

/-- The number of labels of a rule. -/
def PslRule.length : PslRule → Nat
  | .exact name | .exception name => (pslLabels name).length
  | .wildcard parent => (pslLabels parent).length + 1

/-- The rightmost labels of the domain are those of the rule; a wildcard stands for one label more. -/
def PslRule.Matches (domain : List Str8) : PslRule → Prop
  | .exact name | .exception name => pslLabels name <:+ domain
  | .wildcard parent => pslLabels parent <:+ domain ∧ (pslLabels parent).length < domain.length

/-- The rules that the tables list. -/
def PslTables.Lists (psl : PslTables) : PslRule → Prop
  | .exact name => name ∈ psl.exact
  | .wildcard parent => parent ∈ psl.wildcard
  | .exception name => name ∈ psl.exception

/-- How many labels of the domain its public suffix has. A matching exception prevails and gives up its leftmost
    label; otherwise the longest matching rule prevails, and `*` when there is none. -/
inductive PslTables.SuffixLength (psl : PslTables) (domain : List Str8) : Nat → Prop
  | exception {name : Str8} (listed : name ∈ psl.exception) (hmatch : (PslRule.exception name).Matches domain) :
      SuffixLength psl domain ((PslRule.exception name).length - 1)
  | longest {rule : PslRule} (none : ∀ name ∈ psl.exception, ¬ (PslRule.exception name).Matches domain)
      (listed : psl.Lists rule) (hmatch : rule.Matches domain)
      (most : ∀ other, psl.Lists other → other.Matches domain → other.length ≤ rule.length) :
      SuffixLength psl domain rule.length
  | default (none : ∀ rule, psl.Lists rule → ¬ rule.Matches domain) : SuffixLength psl domain 1

/-- The whole domain is its public suffix. -/
def PslTables.IsPublicSuffix (psl : PslTables) (domain : List Str8) : Prop := psl.SuffixLength domain domain.length

/-- Below an exception no rule starts again: no name there is an exact rule or the child of a wildcard parent. -/
def PslTables.NothingBelowExceptions (psl : PslTables) : Prop :=
  ∀ e ∈ psl.exception, ∀ name, pslLabels e <:+ pslLabels name → name ≠ e →
    name ∉ psl.exact ∧ ∀ parent ∈ psl.wildcard, ∀ l, pslLabels name ≠ l :: pslLabels parent

/-- The domain in lower case, without one trailing dot. -/
def pslName (domain : Str8) : Str8 :=
  if (lower domain).getLast? = some 46 then (lower domain).dropLast else lower domain

theorem pslLabels_inj {a b : Str8} (h : pslLabels a = pslLabels b) : a = b := by
  have hjoin := congrArg [46].intercalate h
  rwa [pslLabels, pslLabels, List.intercalate_splitOn, List.intercalate_splitOn] at hjoin

theorem pslLabels_ne_nil (name : Str8) : pslLabels name ≠ [] := List.splitOn_ne_nil 46 name

theorem PslRule.length_le {rule : PslRule} {domain : List Str8} (h : rule.Matches domain) :
    rule.length ≤ domain.length := by
  cases rule with
  | exact name | exception name => exact List.IsSuffix.length_le h
  | wildcard parent => exact h.2

theorem PslRule.length_pos (rule : PslRule) : 0 < rule.length := by
  cases rule with
  | exact name | exception name => exact List.length_pos_iff.mpr (pslLabels_ne_nil name)
  | wildcard parent => exact Nat.succ_pos _

/-- Without a matching exception, a domain is a public suffix when a listed rule is as long as it is, or when it is a
    single label. -/
theorem PslTables.isPublicSuffix_iff {psl : PslTables} {domain : List Str8} (hne : domain ≠ []) :
    psl.IsPublicSuffix domain ↔ (∀ name ∈ psl.exception, ¬ (PslRule.exception name).Matches domain) ∧
      (domain.length = 1 ∨ ∃ rule, psl.Lists rule ∧ rule.Matches domain ∧ rule.length = domain.length) := by
  have hpos := List.length_pos_iff.mpr hne
  unfold PslTables.IsPublicSuffix
  constructor
  · intro h
    generalize hlen : domain.length = n at h
    cases h with
    | exception listed hmatch =>
      have hle := PslRule.length_le hmatch
      have := PslRule.length_pos (.exception ‹_›)
      omega
    | @longest rule none listed hmatch most => exact ⟨none, .inr ⟨rule, listed, hmatch, rfl⟩⟩
    | default none => exact ⟨fun name hname => none (.exception name) hname, .inl rfl⟩
  · rintro ⟨hnone, hcase⟩
    by_cases hrule : ∃ rule, psl.Lists rule ∧ rule.Matches domain ∧ rule.length = domain.length
    · obtain ⟨rule, hlisted, hmatch, hlen⟩ := hrule
      have hmost := PslTables.SuffixLength.longest hnone hlisted hmatch
        (fun other _ hother => hlen ▸ PslRule.length_le hother)
      rwa [hlen] at hmost
    · have hone := hcase.resolve_right hrule
      rw [hone]
      refine .default fun rule hlisted hmatch => hrule ⟨rule, hlisted, hmatch, ?_⟩
      have hle := PslRule.length_le hmatch
      have := rule.length_pos
      omega

/-- A listed rule as long as the name is the name itself, or the wildcard of its parent. -/
theorem PslTables.fullRule_iff {psl : PslTables} {d : Str8} :
    (∃ rule, psl.Lists rule ∧ rule.Matches (pslLabels d) ∧ rule.length = (pslLabels d).length) ↔
      d ∈ psl.exception ∨ d ∈ psl.exact ∨ ∃ parent ∈ psl.wildcard, ∃ l, pslLabels d = l :: pslLabels parent := by
  constructor
  · rintro ⟨name | parent | name, hlisted, hmatch, hlen⟩
    · exact .inr (.inl (pslLabels_inj (List.IsSuffix.eq_of_length hmatch hlen) ▸ hlisted))
    · obtain ⟨⟨front, hfront⟩, -⟩ := hmatch
      have hone : front.length = 1 := by
        have := congrArg List.length hfront
        rw [List.length_append] at this
        simp only [PslRule.length] at hlen
        omega
      obtain ⟨l, rfl⟩ := List.length_eq_one_iff.mp hone
      exact .inr (.inr ⟨parent, hlisted, l, hfront.symm⟩)
    · exact .inl (pslLabels_inj (List.IsSuffix.eq_of_length hmatch hlen) ▸ hlisted)
  · rintro (h | h | ⟨parent, h, l, hl⟩)
    · exact ⟨.exception d, h, List.suffix_rfl, rfl⟩
    · exact ⟨.exact d, h, List.suffix_rfl, rfl⟩
    · exact ⟨.wildcard parent, h, ⟨hl ▸ List.suffix_cons l _, by rw [hl]; exact Nat.lt_succ_self _⟩, by rw [hl]; rfl⟩

theorem mem_pslName {domain : Str8} {b : UInt8} (h : b ∈ pslName domain) : ∃ c ∈ domain, charToLower c = b := by
  unfold pslName at h
  apply List.mem_map.mp
  split at h
  · exact List.mem_of_mem_dropLast h
  · exact h

theorem pslName_no_nul {domain : Str8} (hnul : 0 ∉ domain) : ∀ b ∈ pslName domain, b ≠ 0 := by
  rintro b hb rfl
  obtain ⟨c, hc, hlow⟩ := mem_pslName hb
  unfold charToLower at hlow
  split at hlow
  · next hupper =>
      have halpha := charIsAlpha_charToLower c
      rw [charToLower, if_pos hupper, hlow, charIsAlpha, charIsAlpha, hupper] at halpha
      cases halpha
  · exact hnul (hlow ▸ hc)

/-- What the code tests, in terms of labels. -/
theorem pslIsPublicSuffix_eq {psl : PslTables} {domain : Str8} (hexception : PslSorted psl.exception)
    (hexact : PslSorted psl.exact) (hwildcard : PslSorted psl.wildcard) (hpos : 1 ≤ domain.length)
    (hlen : domain.length ≤ 255) (hnul : 0 ∉ domain) (hne : pslName domain ≠ []) :
    pslIsPublicSuffix psl domain = true ↔ pslName domain ∉ psl.exception ∧ (pslName domain ∈ psl.exact ∨
      (pslLabels (pslName domain)).length = 1 ∨
        ∃ parent ∈ psl.wildcard, ∃ l, pslLabels (pslName domain) = l :: pslLabels parent) := by
  have hsize : (domain.isEmpty || decide (domain.length ≥ 256)) = false := by
    simp only [Bool.or_eq_false_iff, List.isEmpty_eq_false_iff, decide_eq_false_iff_not]
    exact ⟨List.length_pos_iff.mp hpos, by omega⟩
  have hname : (if (lower domain).getLast? == some 46 then (lower domain).dropLast else lower domain) =
      pslName domain := by
    simp [pslName]
  simp only [pslIsPublicSuffix, hsize, hname, Bool.false_eq_true, if_false, List.isEmpty_iff, hne,
    fmtS_eq_self (pslName_no_nul hnul), pslTableHas_iff hexception, pslTableHas_iff hexact]
  generalize pslName domain = d
  by_cases hexc : d ∈ psl.exception
  · simp [hexc]
  by_cases hex : d ∈ psl.exact
  · simp [hexc, hex]
  simp only [hexc, hex, if_false, not_false_eq_true, true_and, false_or]
  cases hdot : str8IndexOf d 46 with
  | none =>
    have hsingle : pslLabels d = [d] := List.splitOn_eq_singleton (str8IndexOf_eq_none.mp hdot)
    simp [hsingle]
  | some dot =>
    have hcut : pslLabels d = d.take dot :: pslLabels (d.drop (dot + 1)) := by
      rw [pslLabels, pslLabels, ← List.splitOn_append_cons_self_of_not_mem (not_mem_take_of_str8IndexOf hdot),
        ← (str8IndexOf_cut hdot).2.1, List.take_append_drop]
    have hmore : (pslLabels d).length ≠ 1 := by
      simp [hcut, pslLabels_ne_nil]
    rw [pslTableHas_iff hwildcard, or_iff_right hmore, str8Skip]
    constructor
    · exact fun h => ⟨_, h, _, hcut⟩
    · rintro ⟨parent, hparent, l, hl⟩
      rw [hcut] at hl
      exact pslLabels_inj (List.cons.inj hl).2 ▸ hparent

/-- **The test is the algorithm of the list.** -/
theorem pslIsPublicSuffix_iff {psl : PslTables} {domain : Str8} (hexception : PslSorted psl.exception)
    (hexact : PslSorted psl.exact) (hwildcard : PslSorted psl.wildcard) (hbelow : psl.NothingBelowExceptions)
    (hpos : 1 ≤ domain.length) (hlen : domain.length ≤ 255) (hnul : 0 ∉ domain)
    (hlabels : ∀ l ∈ pslLabels (pslName domain), l ≠ []) :
    pslIsPublicSuffix psl domain = true ↔ psl.IsPublicSuffix (pslLabels (pslName domain)) := by
  have hne : pslName domain ≠ [] := by
    intro hnil
    rw [hnil] at hlabels
    exact hlabels [] List.mem_cons_self rfl
  rw [pslIsPublicSuffix_eq hexception hexact hwildcard hpos hlen hnul hne,
    PslTables.isPublicSuffix_iff (pslLabels_ne_nil _), PslTables.fullRule_iff]
  generalize pslName domain = d
  constructor
  · rintro ⟨hexc, hrule⟩
    refine ⟨fun e he hmatch => ?_, by tauto⟩
    have hed : d ≠ e := fun hed => hexc (hed ▸ he)
    obtain ⟨hno, hnochild⟩ := hbelow e he d hmatch hed
    rcases hrule with h | hone | ⟨parent, hparent, l, hl⟩
    · exact hno h
    · -- a single label is below no other name
      have hlen := List.length_pos_iff.mpr (pslLabels_ne_nil e)
      have hle := List.IsSuffix.length_le hmatch
      exact hed (pslLabels_inj (List.IsSuffix.eq_of_length hmatch (by omega)).symm)
    · exact hnochild parent hparent l hl
  · rintro ⟨hnone, hrule⟩
    have hexc : d ∉ psl.exception := fun h => hnone d h List.suffix_rfl
    exact ⟨hexc, by tauto⟩

/-- The rules `com`, `*.ck` and `!www.ck`. -/
def ckTables : PslTables where
  exception := [lit "www.ck"]
  exact     := [lit "com"]
  wildcard  := [lit "ck"]

theorem ckTables_nothingBelow : ckTables.NothingBelowExceptions := by
  intro e he name hsuffix hne
  obtain rfl : e = lit "www.ck" := by simpa [ckTables] using he
  have hlen : 2 < (pslLabels name).length := by
    have hle : 2 ≤ (pslLabels name).length := hsuffix.length_le
    refine Nat.lt_of_le_of_ne hle fun heq => hne (pslLabels_inj ?_)
    exact (hsuffix.eq_of_length heq).symm
  refine ⟨fun hmem => ?_, fun parent hparent l hl => ?_⟩
  · rw [show name = lit "com" by simpa [ckTables] using hmem] at hlen
    exact absurd hlen (by decide +kernel)
  · rw [hl, show parent = lit "ck" by simpa [ckTables] using hparent, List.length_cons] at hlen
    exact absurd hlen (by decide +kernel)

theorem pslIsPublicSuffix_iff_ck : ckTables.IsPublicSuffix (pslLabels (pslName (lit "Foo.CK."))) :=
  (pslIsPublicSuffix_iff (by simp [PslSorted, ckTables]) (by simp [PslSorted, ckTables])
    (by simp [PslSorted, ckTables]) ckTables_nothingBelow (by decide) (by decide) (by decide +kernel)
    (by decide +kernel)).mp (by decide +kernel)

end HolyTls

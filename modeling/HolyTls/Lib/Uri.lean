import Mathlib.Tactic
import Mathlib.Data.List.DropRight

/-!
# `Lib.Uri` — references and their resolution, after RFC 3986

A reference is split into scheme, authority, path and query (the fragment is left out), put together again
(`Ref.text`, section 5.3), and resolved against a base (`resolve`, section 5.2.2 without the removal of dot
segments). Splitting loses nothing but the fragment (`Ref.text_parse`).
-/

namespace Uri

abbrev Bytes := List UInt8

def isAlpha (c : UInt8) : Bool := (65 ≤ c && c ≤ 90) || (97 ≤ c && c ≤ 122)

/-- `ALPHA / DIGIT / "+" / "-" / "."` -/
def isSchemeChar (c : UInt8) : Bool := isAlpha c || (48 ≤ c && c ≤ 57) || c == 43 || c == 45 || c == 46

/-- The components of a reference without its fragment. -/
structure Ref where
  scheme : Option Bytes
  authority : Option Bytes
  path : Bytes
  query : Option Bytes
deriving DecidableEq, Repr

/-- Everything before the first `#`. -/
def dropFragment (s : Bytes) : Bytes := s.takeWhile (· != 35)

/-- A scheme is a letter and scheme characters up to a colon. -/
def cutScheme (s : Bytes) : Option Bytes × Bytes :=
  match s.dropWhile isSchemeChar with
  | 58 :: rest => if s.head?.any isAlpha then (some (s.takeWhile isSchemeChar), rest) else (none, s)
  | _ => (none, s)

/-- An authority follows `//` and ends before the next `/`. -/
def cutAuthority (s : Bytes) : Option Bytes × Bytes :=
  match s with
  | 47 :: 47 :: rest => (some (rest.takeWhile (· != 47)), rest.dropWhile (· != 47))
  | _ => (none, s)

/-- A query follows the first `?`. -/
def cutQuery (s : Bytes) : Bytes × Option Bytes := (s.takeWhile (· != 63), (s.dropWhile (· != 63)).tail?)

/-- The components of a reference. -/
def Ref.parse (s : Bytes) : Ref :=
  let hier := cutQuery (dropFragment s)
  let rest := cutScheme hier.1
  { scheme := rest.1, authority := (cutAuthority rest.2).1, path := (cutAuthority rest.2).2, query := hier.2 }

def schemeText : Option Bytes → Bytes
  | some s => s ++ [58]
  | none => []

def authorityText : Option Bytes → Bytes
  | some a => 47 :: 47 :: a
  | none => []

def queryText : Option Bytes → Bytes
  | some q => 63 :: q
  | none => []

/-- The components put together. -/
def Ref.text (r : Ref) : Bytes := schemeText r.scheme ++ authorityText r.authority ++ r.path ++ queryText r.query

/-- A path relative to that of the base: it takes the place of what follows the last `/`. -/
def merge (base : Ref) (path : Bytes) : Bytes :=
  if base.authority.isSome ∧ base.path = [] then 47 :: path else base.path.rdropWhile (· != 47) ++ path

/-- The reference that `r` stands for, seen from `base`. -/
def resolve (base r : Ref) : Ref :=
  if r.scheme.isSome then r
  else if r.authority.isSome then { r with scheme := base.scheme }
  else if r.path = [] then
    { base with query := if r.query.isSome then r.query else base.query }
  else if r.path.head? = some 47 then { r with scheme := base.scheme, authority := base.authority }
  else { base with path := merge base r.path, query := r.query }

/-- The URI that `ref` stands for, seen from `base`, as text. -/
def target (base ref : Bytes) : Bytes := (resolve (Ref.parse base) (Ref.parse ref)).text

/-! ## Splitting loses nothing -/

theorem cutScheme_text (s : Bytes) : schemeText (cutScheme s).1 ++ (cutScheme s).2 = s := by
  have hsplit := List.takeWhile_append_dropWhile (p := isSchemeChar) (l := s)
  unfold cutScheme
  split
  · next rest hrest =>
      rw [hrest] at hsplit
      split
      · simpa [schemeText] using hsplit
      · rfl
  · rfl

theorem cutAuthority_text (s : Bytes) : authorityText (cutAuthority s).1 ++ (cutAuthority s).2 = s := by
  unfold cutAuthority
  split
  · simp [authorityText, List.takeWhile_append_dropWhile]
  · rfl

theorem cutQuery_text (s : Bytes) :
    (cutQuery s).1 ++ queryText (cutQuery s).2 = s := by
  have hsplit := List.takeWhile_append_dropWhile (p := (· != 63)) (l := s)
  cases hd : s.dropWhile (· != 63) with
  | nil =>
    rw [hd] at hsplit
    simpa [cutQuery, queryText, hd] using hsplit
  | cons c q =>
    have hc : c = 63 := by
      have hne : s.dropWhile (· != (63 : UInt8)) ≠ [] := by simp [hd]
      simpa [hd] using List.head_dropWhile_not (· != (63 : UInt8)) hne
    rw [hd, hc] at hsplit
    simpa [cutQuery, queryText, hd] using hsplit

/-- **The components put together are the reference without its fragment.** -/
theorem Ref.text_parse (s : Bytes) : (Ref.parse s).text = dropFragment s := by
  have hquery := cutQuery_text (dropFragment s)
  have hscheme := cutScheme_text (cutQuery (dropFragment s)).1
  have hauth := cutAuthority_text (cutScheme (cutQuery (dropFragment s)).1).2
  unfold Ref.parse Ref.text
  rw [List.append_assoc _ _ (cutAuthority _).2, hauth, hscheme, hquery]

/-! ## Where the cuts fall -/

theorem dropFragment_append {s : Bytes} (h : 35 ∉ s) (t : Bytes) : dropFragment (s ++ t) = s ++ dropFragment t := by
  have hall : ∀ b ∈ s, (b != 35) = true := fun b hb => bne_iff_ne.mpr fun hc => h (hc ▸ hb)
  exact List.takeWhile_append_of_pos hall

theorem cutQuery_append {s : Bytes} (h : 63 ∉ s) (t : Bytes) :
    cutQuery (s ++ t) = (s ++ (cutQuery t).1, (cutQuery t).2) := by
  have hall : ∀ b ∈ s, (b != 63) = true := fun b hb => bne_iff_ne.mpr fun hc => h (hc ▸ hb)
  rw [cutQuery, List.takeWhile_append_of_pos hall, List.dropWhile_append_of_pos hall]
  rfl

theorem cutScheme_append {s : Bytes} (hchars : ∀ b ∈ s, isSchemeChar b = true) (hhead : s.head?.any isAlpha = true)
    (t : Bytes) : cutScheme (s ++ 58 :: t) = (some s, t) := by
  have hstop : isSchemeChar 58 = false := by decide
  have htake : (s ++ 58 :: t).takeWhile isSchemeChar = s := by
    rw [List.takeWhile_append_of_pos hchars, List.takeWhile_cons_of_neg (by simp [hstop]), List.append_nil]
  have hdrop : (s ++ 58 :: t).dropWhile isSchemeChar = 58 :: t := by
    rw [List.dropWhile_append_of_pos hchars, List.dropWhile_cons_of_neg (by simp [hstop])]
  have hhead' : (s ++ 58 :: t).head?.any isAlpha = true := by
    cases s with
    | nil => simp at hhead
    | cons c s => simpa using hhead
  unfold cutScheme
  rw [hdrop, htake]
  simp only [hhead', if_true]

theorem cutAuthority_append {a t : Bytes} (ha : 47 ∉ a) (ht : ∀ b ∈ t.head?, b = 47) :
    cutAuthority (47 :: 47 :: (a ++ t)) = (some a, t) := by
  have hall : ∀ b ∈ a, (b != 47) = true := fun b hb => bne_iff_ne.mpr fun hc => ha (hc ▸ hb)
  have hstop : t.takeWhile (· != 47) = [] ∧ t.dropWhile (· != 47) = t := by
    cases t with
    | nil => exact ⟨rfl, rfl⟩
    | cons b t =>
      obtain rfl : b = 47 := ht b rfl
      exact ⟨rfl, rfl⟩
  simp only [cutAuthority]
  rw [List.takeWhile_append_of_pos hall, List.dropWhile_append_of_pos hall, hstop.1, hstop.2, List.append_nil]

theorem isSchemeChar_ne {b c : UInt8} (h : isSchemeChar b = true) (hc : isSchemeChar c = false) : b ≠ c := by
  rintro rfl
  rw [h] at hc
  cases hc

/-- The components of an absolute reference with an authority; `t` is what follows the authority. -/
theorem Ref.parse_absolute {s a t : Bytes} (hchars : ∀ b ∈ s, isSchemeChar b = true)
    (hhead : s.head?.any isAlpha = true) (ha : ∀ b ∈ a, b ≠ 35 ∧ b ≠ 47 ∧ b ≠ 63)
    (ht : ∀ b ∈ t.head?, b = 35 ∨ b = 47 ∨ b = 63) :
    Ref.parse (s ++ 58 :: 47 :: 47 :: (a ++ t)) =
      { scheme := some s, authority := some a
        path := (cutQuery (dropFragment t)).1, query := (cutQuery (dropFragment t)).2 } := by
  have hpre : ∀ c, c = 35 ∨ c = 63 → c ∉ s ++ 58 :: 47 :: 47 :: a := by
    intro c hc hmem
    rcases List.mem_append.mp hmem with h | h
    · exact isSchemeChar_ne (hchars c h) (by rcases hc with rfl | rfl <;> decide) rfl
    · have hne := ha c
      rcases hc with rfl | rfl <;> simp_all
  have htext : s ++ 58 :: 47 :: 47 :: (a ++ t) = (s ++ 58 :: 47 :: 47 :: a) ++ t := by simp
  have hpath : ∀ b ∈ (cutQuery (dropFragment t)).1.head?, b = 47 := by
    cases t with
    | nil => simp [dropFragment, cutQuery]
    | cons b t =>
      rcases ht b rfl with rfl | rfl | rfl <;> simp [dropFragment, cutQuery]
  have hrest : (s ++ 58 :: 47 :: 47 :: a) ++ (cutQuery (dropFragment t)).1
      = s ++ 58 :: (47 :: 47 :: (a ++ (cutQuery (dropFragment t)).1)) := by simp
  unfold Ref.parse
  rw [htext, dropFragment_append (hpre 35 (.inl rfl)), cutQuery_append (hpre 63 (.inr rfl))]
  simp only [hrest, cutScheme_append hchars hhead, cutAuthority_append (fun h => (ha 47 h).2.1 rfl) hpath]

/-- The components of a reference with no scheme that does not start with `//`. -/
theorem Ref.parse_relative {s : Bytes} (hscheme : (Ref.parse s).scheme = none) (hslash : ¬ [47, 47] <+: s) :
    Ref.parse s = { scheme := none, authority := none
                    path := (cutQuery (dropFragment s)).1, query := (cutQuery (dropFragment s)).2 } := by
  have hcut : cutScheme (cutQuery (dropFragment s)).1 = (none, (cutQuery (dropFragment s)).1) := by
    have htext := cutScheme_text (cutQuery (dropFragment s)).1
    have hnone : (cutScheme (cutQuery (dropFragment s)).1).1 = none := hscheme
    rw [hnone] at htext
    exact Prod.ext hnone htext
  have hauth : cutAuthority (cutQuery (dropFragment s)).1 = (none, (cutQuery (dropFragment s)).1) := by
    unfold cutAuthority
    split
    · next rest hrest =>
        refine absurd ?_ hslash
        have hpre : (cutQuery (dropFragment s)).1 <+: s :=
          (List.takeWhile_prefix _).trans (List.takeWhile_prefix _)
        rw [hrest] at hpre
        exact (List.prefix_append [47, 47] rest).trans hpre
    · rfl
  unfold Ref.parse
  simp only [hcut, hauth]

end Uri

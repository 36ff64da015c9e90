import HolyTls.Base.Str8

/-!
# `Core.Header` — headers, methods and responses (`src/core/header.c`, `src/core/client.h`)

A `HeaderList` is an array because insertion order and case are part of the fingerprint; here it is the
list of its entries, and `header_list_push` appends one.
-/

namespace HolyTls

/-- `Header`: name in its original case, value, flags. -/
structure Header where
  name : Str8
  value : Str8
  flags : UInt8 := 0
deriving DecidableEq, Repr

abbrev HeaderList := List Header

/-- `header_list_push`. -/
def headerListPush (list : HeaderList) (name value : Str8) (flags : UInt8) : HeaderList :=
  list ++ [{ name := name, value := value, flags := flags }]

/-- `header_list_get_ci`: the value of the first entry with that name. -/
def headerListGetCi (list : HeaderList) (name : Str8) : Option Str8 :=
  (list.find? (fun h => str8MatchCi h.name name)).map (·.value)

/-- `header_list_has_ci`. -/
def headerListHasCi (list : HeaderList) (name : Str8) : Bool := (headerListGetCi list name).isSome

/-- A header that is pushed unless the list has one of that name. -/
def headerListPushNew (list : HeaderList) (name value : Str8) : HeaderList :=
  if headerListHasCi list name then list else headerListPush list name value 0

/-- `Method`. -/
inductive Method
  | get
  | post
  | put
  | delete
  | head
  | patch
  | options
deriving DecidableEq, Repr

/-- The fields of a `Response` that the modelled code reads or fills: `ok`, the status, the headers, the
    body and the error text of a failure. -/
structure Response where
  ok : Bool
  status : Int := 0
  headers : HeaderList := []
  body : Str8 := []
  error : Str8 := []
deriving DecidableEq, Repr

/-! ## Crumbs -/

/-- The loop of `cookie_crumbs`: `rest` is still to be split, `out` and `n` are what was written and counted
    so far. Each turn but the last skips two bytes, so `fuel` need not exceed the length. -/
def cookieCrumbsLoop (cap : Nat) : Nat → Str8 → List Str8 → Nat → List Str8 × Nat
  | 0, _, out, n => (out, n)
  | fuel + 1, rest, out, n =>
    let at? := str8Find rest (lit "; ")
    let crumb := (at?.map (str8Prefix rest)).getD rest
    let out' := if crumb ≠ [] ∧ n < cap then out ++ [crumb] else out
    let n' := if crumb ≠ [] then n + 1 else n
    match at? with
    | none => (out', n')
    | some i => cookieCrumbsLoop cap fuel (str8Skip rest (i + 2)) out' n'

/-- `cookie_crumbs`: the crumbs written to an array of `cap` entries, and how many there are. -/
def cookieCrumbs (value : Str8) (cap : Nat) : List Str8 × Nat := cookieCrumbsLoop cap (value.length + 1) value [] 0

/-- The crumbs of what is still to be split. -/
def crumbsFrom : Nat → Str8 → List Str8
  | 0, _ => []
  | fuel + 1, rest =>
    match str8Find rest (lit "; ") with
    | none => if rest = [] then [] else [rest]
    | some i => (if rest.take i = [] then [] else [rest.take i]) ++ crumbsFrom fuel (rest.drop (i + 2))

/-- The crumbs of a Cookie value. -/
def crumbs (value : Str8) : List Str8 := crumbsFrom (value.length + 1) value

section

variable {cap fuel n : Nat} {rest value c : Str8} {out : List Str8}

theorem cookieCrumbsLoop_eq : cookieCrumbsLoop cap fuel rest out n =
    (out ++ (crumbsFrom fuel rest).take (cap - n), n + (crumbsFrom fuel rest).length) := by
  induction fuel generalizing rest out n with
  | zero => simp [cookieCrumbsLoop, crumbsFrom]
  | succ fuel ih =>
    -- one crumb, if it is not empty, before the crumbs `l` that come after it
    have hone : ∀ (crumb : Str8) (l : List Str8),
        ((if crumb ≠ [] ∧ n < cap then out ++ [crumb] else out) ++ l.take (cap - if crumb ≠ [] then n + 1 else n),
          (if crumb ≠ [] then n + 1 else n) + l.length) =
        (out ++ ((if crumb = [] then [] else [crumb]) ++ l).take (cap - n),
          n + ((if crumb = [] then [] else [crumb]) ++ l).length) := by
      intro crumb l
      by_cases hc : crumb = []
      · simp [hc]
      · by_cases hn : n < cap
        · have hsub : cap - n = (cap - (n + 1)) + 1 := by omega
          simp [hc, hn, hsub]
          omega
        · have hsub : cap - n = 0 := by omega
          have hsub' : cap - (n + 1) = 0 := by omega
          simp [hc, hn, hsub, hsub']
          omega
    unfold cookieCrumbsLoop crumbsFrom
    cases str8Find rest (lit "; ") with
    | none =>
      have h := hone rest []
      simp only [List.take_nil, List.append_nil, List.length_nil, Nat.add_zero] at h
      exact h
    | some i =>
      dsimp only
      rw [ih]
      exact hone (rest.take i) _

theorem cookieCrumbs_eq (value : Str8) :
    (cookieCrumbs value 0).2 = (crumbs value).length ∧
      (cookieCrumbs value (cookieCrumbs value 0).2).1 = crumbs value := by
  have hcount : (cookieCrumbs value 0).2 = (crumbs value).length := by
    rw [cookieCrumbs, cookieCrumbsLoop_eq, Nat.zero_add, crumbs]
  refine ⟨hcount, ?_⟩
  rw [hcount, cookieCrumbs, cookieCrumbsLoop_eq, List.nil_append, Nat.sub_zero]
  exact List.take_length

theorem crumbsFrom_whole (h : c ∈ crumbsFrom fuel rest) : c ≠ [] ∧ ¬ lit "; " <:+: c := by
  induction fuel generalizing rest with
  | zero => cases h
  | succ fuel ih =>
    unfold crumbsFrom at h
    cases hfind : str8Find rest (lit "; ") with
    | none =>
      rw [hfind] at h
      dsimp only at h
      split at h
      · cases h
      · next hne =>
          rw [List.mem_singleton.mp h]
          exact ⟨hne, str8Find_eq_none.mp hfind⟩
    | some i =>
      rw [hfind] at h
      dsimp only at h
      rcases List.mem_append.mp h with h | h
      · split at h
        · cases h
        · next hne =>
            rw [List.mem_singleton.mp h]
            exact ⟨hne, str8Find_first hfind (by decide)⟩
      · exact ih h

/-- A value is its only crumb when it is not empty and holds no separator. -/
theorem crumbs_eq_singleton : crumbs value = [value] ↔ value ≠ [] ∧ ¬ lit "; " <:+: value := by
  constructor
  · intro h
    exact crumbsFrom_whole (h ▸ List.mem_singleton_self value)
  · rintro ⟨hne, hsep⟩
    unfold crumbs crumbsFrom
    rw [str8Find_eq_none.mpr hsep]
    exact if_neg hne

end

end HolyTls

import Mathlib.Data.List.Perm.Basic

/-!
# `Lib.Claim` — items claimed by a list of keys

Each key of a list claims the first item of that key that is still there, if there is one. What is claimed, in
the order of the keys, and what is left are determined by ranks: the item of rank `j` among those of its key is
claimed by the occurrence of rank `j` among those of the key (`Claims.claimed_eq`, `Claims.unclaimed_eq`). The
claimed items before the rest are a permutation that keeps the order within every key (`Claims.perm`,
`Claims.filter_eq`), and claiming from that list again gives the same (`Claims.again`).
-/

namespace HolyTls.Claim

variable {α κ : Type} {key : α → κ}

/-- `Claims key ks l c r`: from the items `l` the keys `ks` claim `c` and leave `r`. -/
inductive Claims (key : α → κ) : List κ → List α → List α → List α → Prop
  | done {l : List α} : Claims key [] l [] l
  | skip {k : κ} {ks : List κ} {l c r : List α} : (∀ y ∈ l, key y ≠ k) → Claims key ks l c r →
      Claims key (k :: ks) l c r
  | take {k : κ} {ks : List κ} {x : α} {a b c r : List α} : (∀ y ∈ a, key y ≠ k) → key x = k →
      Claims key ks (a ++ b) c r → Claims key (k :: ks) (a ++ x :: b) (x :: c) r

section

variable {ks : List κ} {l c r : List α}

theorem Claims.perm (h : Claims key ks l c r) : (c ++ r).Perm l := by
  induction h with
  | done => exact List.Perm.refl _
  | skip _ _ ih => exact ih
  | @take k ks x a b c r _ _ _ ih => exact (ih.cons x).trans List.perm_middle.symm

theorem Claims.again (h : Claims key ks l c r) : Claims key ks (c ++ r) c r := by
  induction h with
  | done => exact .done
  | skip hnone h ih => exact .skip (fun y hy => hnone y (h.perm.mem_iff.mp hy)) ih
  | take _ hx _ ih => exact .take (fun _ hy => absurd hy List.not_mem_nil) hx ih

end

variable [DecidableEq κ]

/-! ## Ranks -/

/-- Each item with the number of items of its key before it; `before` are the keys already passed. -/
def ranked (key : α → κ) : List κ → List α → List (α × Nat)
  | _, [] => []
  | before, x :: l => (x, before.count (key x)) :: ranked key (key x :: before) l

/-- The items that the keys claim: the key of rank `j` among its equals claims the item of rank `j`. -/
def claimed (key : α → κ) (ks : List κ) (l : List α) : List α :=
  (ranked id [] ks).filterMap (fun p => (l.filter (fun x => key x = p.1))[p.2]?)

/-- The items whose rank is too high for the keys. -/
def unclaimed (key : α → κ) (ks : List κ) (l : List α) : List α :=
  ((ranked key [] l).filter (fun p => ks.count (key p.1) ≤ p.2)).map (·.1)

theorem ranked_fst (key : α → κ) (before : List κ) (l : List α) : (ranked key before l).map (·.1) = l := by
  induction l generalizing before with
  | nil => rfl
  | cons x l ih => rw [ranked, List.map_cons, ih]

theorem unclaimed_sublist (key : α → κ) (ks : List κ) (l : List α) : (unclaimed key ks l).Sublist l := by
  have h := (List.filter_sublist (p := fun p => ks.count (key p.1) ≤ p.2) (l := ranked key [] l)).map (·.1)
  rwa [ranked_fst] at h

theorem ranked_append (before : List κ) (a b : List α) :
    ranked key before (a ++ b) = ranked key before a ++ ranked key ((a.map key).reverse ++ before) b := by
  induction a generalizing before with
  | nil => rfl
  | cons x a ih => simp [ranked, ih]

/-- One more `k` before raises the ranks of the items of that key. -/
theorem ranked_bump (k : κ) {before before' : List κ}
    (h : ∀ j, before'.count j = before.count j + if k = j then 1 else 0) (l : List α) :
    ranked key before' l = (ranked key before l).map (fun p => (p.1, p.2 + if k = key p.1 then 1 else 0)) := by
  induction l generalizing before before' with
  | nil => rfl
  | cons x l ih =>
    have hnext : ∀ j, (key x :: before').count j = (key x :: before).count j + if k = j then 1 else 0 := by
      intro j
      rw [List.count_cons, List.count_cons, h j]
      omega
    rw [ranked, ranked, List.map_cons, ih hnext, h (key x)]

theorem ranked_cons_before (k : κ) (before : List κ) (l : List α) :
    ranked key (k :: before) l = (ranked key before l).map (fun p => (p.1, p.2 + if k = key p.1 then 1 else 0)) := by
  refine ranked_bump k (fun j => ?_) l
  rw [List.count_cons]
  simp

theorem claimed_cons (k : κ) (ks : List κ) (l : List α) :
    claimed key (k :: ks) l = (l.filter (fun x => key x = k))[0]?.toList ++
      (ranked id [] ks).filterMap (fun p => (l.filter (fun x => key x = p.1))[p.2 + if k = p.1 then 1 else 0]?) := by
  rw [claimed, ranked, List.filterMap_cons]
  rw [show ranked id (id k :: []) ks = _ from ranked_cons_before k [] ks, List.filterMap_map]
  simp only [List.count_nil, id]
  cases (l.filter (fun x => key x = k))[0]? <;> rfl

/-! ## What is claimed and what is left -/

section

variable {ks : List κ} {l c r a b : List α} {x : α} {k : κ}

theorem filter_eq_nil_of_ne (h : ∀ y ∈ l, key y ≠ k) : l.filter (fun y => key y = k) = [] := by
  rw [List.filter_eq_nil_iff]
  intro y hy
  simpa using h y hy

/-- An item that is first of its key and the others of that key. -/
theorem filter_first (h : ∀ y ∈ a, key y ≠ k) (hx : key x = k) :
    (a ++ x :: b).filter (fun y => key y = k) = x :: (a ++ b).filter (fun y => key y = k) := by
  simp [List.filter_append, filter_eq_nil_of_ne h, hx]

/-- The items of another key. -/
theorem filter_other (j : κ) (hx : key x ≠ j) :
    (a ++ x :: b).filter (fun y => key y = j) = (a ++ b).filter (fun y => key y = j) := by
  simp [List.filter_append, hx]

theorem Claims.claimed_eq (h : Claims key ks l c r) : c = claimed key ks l := by
  induction h with
  | done => rfl
  | @skip k ks l c r hnone _ ih =>
    rw [claimed_cons, filter_eq_nil_of_ne hnone, ih, claimed]
    refine List.filterMap_congr (fun p _ => ?_)
    by_cases hk : k = p.1
    · simp [← hk, filter_eq_nil_of_ne hnone]
    · simp [hk]
  | @take k ks x a b c r hfirst hx _ ih =>
    rw [claimed_cons, filter_first hfirst hx, ih, claimed]
    refine congrArg (x :: ·) (List.filterMap_congr (fun p _ => ?_))
    by_cases hk : k = p.1
    · rw [← hk, filter_first hfirst hx]
      simp
    · rw [filter_other p.1 (hx ▸ hk)]
      simp [hk]

theorem unclaimed_nil (l : List α) : unclaimed key [] l = l := by
  unfold unclaimed
  simp [ranked_fst]

/-- A key that no item has claims nothing. -/
theorem unclaimed_skip (ks : List κ) (h : ∀ y ∈ l, key y ≠ k) : unclaimed key (k :: ks) l = unclaimed key ks l := by
  unfold unclaimed
  refine congrArg (List.map _) (List.filter_congr (fun p hp => ?_))
  have hmem : p.1 ∈ l := ranked_fst key [] l ▸ List.mem_map_of_mem hp
  rw [List.count_cons_of_ne (Ne.symm (h p.1 hmem))]

/-- A key that claims `x` leaves to the other keys what they find without it. -/
theorem unclaimed_take (ks : List κ) (h : ∀ y ∈ a, key y ≠ k) (hx : key x = k) :
    unclaimed key (k :: ks) (a ++ x :: b) = unclaimed key ks (a ++ b) := by
  have hrank : (a.map key).count k = 0 := by
    rw [List.count_eq_zero]
    intro hmem
    obtain ⟨y, hy, hyk⟩ := List.mem_map.mp hmem
    exact h y hy hyk
  have hfront : (ranked key [] a).filter (fun p => (k :: ks).count (key p.1) ≤ p.2) =
      (ranked key [] a).filter (fun p => ks.count (key p.1) ≤ p.2) := by
    refine List.filter_congr (fun p hp => ?_)
    have hmem : p.1 ∈ a := ranked_fst key [] a ▸ List.mem_map_of_mem hp
    rw [List.count_cons_of_ne (Ne.symm (h p.1 hmem))]
  -- behind `x` both the rank of an item of its key and the number of keys for it are one higher
  have hback : ∀ l : List (α × Nat), (l.map (fun p => (p.1, p.2 + if k = key p.1 then 1 else 0))).filter
      (fun p => (k :: ks).count (key p.1) ≤ p.2) =
        (l.filter (fun p => ks.count (key p.1) ≤ p.2)).map (fun p => (p.1, p.2 + if k = key p.1 then 1 else 0)) := by
    intro l
    rw [List.filter_map]
    refine congrArg (List.map _) (List.filter_congr (fun p _ => ?_))
    simp [List.count_cons]
  unfold unclaimed
  rw [ranked_append, ranked_append, ranked, hx, ranked_cons_before, List.filter_append, List.filter_append, hfront,
    List.filter_cons_of_neg (by simp [hx, hrank]), hback, List.map_append, List.map_append, List.map_map]
  rfl

theorem Claims.unclaimed_eq (h : Claims key ks l c r) : r = unclaimed key ks l := by
  induction h with
  | done => exact (unclaimed_nil _).symm
  | skip hnone _ ih => rw [unclaimed_skip _ hnone, ih]
  | take hfirst hx _ ih => rw [unclaimed_take _ hfirst hx, ih]

/-- The items of a key keep their order. -/
theorem Claims.filter_eq (h : Claims key ks l c r) (j : κ) :
    (c ++ r).filter (fun x => key x = j) = l.filter (fun x => key x = j) := by
  induction h with
  | done => rfl
  | skip _ _ ih => exact ih
  | @take k ks x a b c r hfirst hx _ ih =>
    rw [List.cons_append, List.filter_cons, ih]
    by_cases hj : key x = j
    · rw [← hj, filter_first (hx ▸ hfirst) rfl]
      simp
    · rw [filter_other j hj]
      simp [hj]

end

end HolyTls.Claim

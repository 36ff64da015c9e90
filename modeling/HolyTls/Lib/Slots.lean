import Mathlib.Tactic

/-!
# `Lib.Slots` — tables of slots that are searched from the front

An array whose slots are occupied or not, and carry a key. `Keyed occ key l` says that no two occupied slots
share a key; writing a slot keeps it when no other slot holds the new key (`Keyed.set`). `leastIdx` is the loop
that picks a victim: the first slot with the smallest measure. `swapRemove` gives up a slot in an array without gaps.
-/

namespace Slots

variable {α κ : Type}

/-! ## One occupied slot per key -/

/-- No two occupied slots share a key. -/
def Keyed (occ : α → Bool) (key : α → κ) (l : List α) : Prop :=
  ∀ (i j : Nat) (a b : α), l[i]? = some a → l[j]? = some b → occ a = true → occ b = true → key a = key b → i = j

variable {occ : α → Bool} {key : α → κ} {l : List α} {e : α} {i : Nat}

/-- What stands in a table of which one slot has been written. -/
theorem getElem?_set_cases {j : Nat} {b : α} (h : (l.set i e)[j]? = some b) :
    j = i ∧ b = e ∨ j ≠ i ∧ l[j]? = some b := by
  rw [List.getElem?_set] at h
  split at h
  · next hij =>
      split at h
      · cases h
        exact .inl ⟨hij.symm, rfl⟩
      · cases h
  · next hij => exact .inr ⟨fun hji => hij hji.symm, h⟩

theorem Keyed.set (h : Keyed occ key l)
    (hnew : ∀ j b, j ≠ i → l[j]? = some b → occ b = true → occ e = true → key b ≠ key e) :
    Keyed occ key (l.set i e) := by
  intro j k a b ha hb hoa hob hkey
  rcases getElem?_set_cases ha with ⟨rfl, rfl⟩ | ⟨hj, ha'⟩ <;>
    rcases getElem?_set_cases hb with ⟨rfl, rfl⟩ | ⟨hk, hb'⟩
  · rfl
  · exact absurd hkey.symm (hnew k b hk hb' hob hoa)
  · exact absurd hkey (hnew j a hj ha' hoa hob)
  · exact h j k a b ha' hb' hoa hob hkey

/-- A slot may be emptied, or written under the key it has. -/
theorem Keyed.set_same (h : Keyed occ key l) {a : α} (ha : l[i]? = some a)
    (hsame : occ e = true → occ a = true ∧ key a = key e) : Keyed occ key (l.set i e) := by
  apply h.set
  intro j b hj hb hob hoe hkey
  obtain ⟨hoa, hka⟩ := hsame hoe
  exact hj (h j i b a hb ha hob hoa (hkey.trans hka.symm))

variable {p : α → Bool}

/-- A slot in its place: what is before it, and what after it. -/
theorem split_of_getElem? {a : α} (h : l[i]? = some a) :
    ∃ pre post, l = pre ++ a :: post ∧ pre.length = i := by
  obtain ⟨hi, rfl⟩ := List.getElem?_eq_some_iff.mp h
  refine ⟨l.take i, l.drop (i + 1), ?_, List.length_take_of_le hi.le⟩
  rw [List.getElem_cons_drop, List.take_append_drop]

theorem set_split (pre post : List α) (a b : α) : (pre ++ a :: post).set pre.length b = pre ++ b :: post := by
  simp

theorem modify_split (pre post : List α) (a : α) (f : α → α) :
    (pre ++ a :: post).modify pre.length f = pre ++ f a :: post := by
  rw [List.modify_eq_set_getElem?]
  simp

theorem getElem?_split (pre post : List α) (a : α) : (pre ++ a :: post)[pre.length]? = some a := by
  simp

/-- What a search has found. -/
theorem findIdx?_some (h : l.findIdx? p = some i) : ∃ a, l[i]? = some a ∧ p a = true := by
  obtain ⟨hi, hp, -⟩ := List.findIdx?_eq_some_iff_getElem.mp h
  exact ⟨l[i], List.getElem?_eq_getElem hi, hp⟩

/-! ## The slot with the smallest measure -/

/-- From slot `i` on, with `b` the best so far: a later slot has to be strictly better. -/
def leastLoop (measure : α → Nat) : List α → Nat → Nat → Nat → Nat
  | [], _, b, _ => b
  | x :: xs, i, b, m => if measure x < m then leastLoop measure xs (i + 1) i (measure x)
      else leastLoop measure xs (i + 1) b m

/-- The first slot with the smallest measure. -/
def leastIdx (measure : α → Nat) : List α → Nat
  | [] => 0
  | x :: xs => leastLoop measure xs 1 0 (measure x)

variable {measure : α → Nat}

variable (measure) in
/-- The loop ends at the best so far, or at a slot it has passed, whose measure nothing undercuts. -/
theorem leastLoop_spec (xs : List α) (i b m : Nat) :
    (leastLoop measure xs i b m = b ∧ ∀ x ∈ xs, m ≤ measure x) ∨
      ∃ j y, leastLoop measure xs i b m = i + j ∧ xs[j]? = some y ∧ measure y < m ∧
        ∀ x ∈ xs, measure y ≤ measure x := by
  induction xs generalizing i b m with
  | nil => exact .inl ⟨rfl, fun x hx => by cases hx⟩
  | cons x xs ih =>
    rw [leastLoop]
    split
    · next hlt =>
        rcases ih (i + 1) i (measure x) with ⟨heq, hall⟩ | ⟨j, y, heq, hy, hym, hall⟩
        · refine .inr ⟨0, x, by omega, rfl, hlt, ?_⟩
          intro z hz
          rcases List.mem_cons.mp hz with rfl | hz
          · exact le_rfl
          · exact hall z hz
        · refine .inr ⟨j + 1, y, by omega, hy, by omega, ?_⟩
          intro z hz
          rcases List.mem_cons.mp hz with rfl | hz
          · exact hym.le
          · exact hall z hz
    · next hge =>
        rcases ih (i + 1) b m with ⟨heq, hall⟩ | ⟨j, y, heq, hy, hym, hall⟩
        · refine .inl ⟨heq, ?_⟩
          intro z hz
          rcases List.mem_cons.mp hz with rfl | hz
          · exact not_lt.mp hge
          · exact hall z hz
        · refine .inr ⟨j + 1, y, by omega, hy, hym, ?_⟩
          intro z hz
          rcases List.mem_cons.mp hz with rfl | hz
          · omega
          · exact hall z hz

variable (measure) in
theorem leastIdx_spec (hl : l ≠ []) :
    ∃ y, l[leastIdx measure l]? = some y ∧ ∀ x ∈ l, measure y ≤ measure x := by
  match l, hl with
  | x :: xs, _ =>
    rw [leastIdx]
    rcases leastLoop_spec measure xs 1 0 (measure x) with ⟨heq, hall⟩ | ⟨j, y, heq, hy, hym, hall⟩
    · rw [heq]
      refine ⟨x, rfl, ?_⟩
      intro z hz
      rcases List.mem_cons.mp hz with rfl | hz
      · exact le_rfl
      · exact hall z hz
    · rw [heq, Nat.add_comm]
      refine ⟨y, hy, ?_⟩
      intro z hz
      rcases List.mem_cons.mp hz with rfl | hz
      · exact hym.le
      · exact hall z hz

/-! ## Giving up a slot by moving the last one into it -/

/-- `a[i] = a[--count]` at the first place where `p` holds. -/
def swapRemove (p : α → Bool) (l : List α) : List α :=
  match l.findIdx? p, l.getLast? with
  | some i, some x => (l.set i x).dropLast
  | _, _ => l

@[grind →]
theorem mem_of_mem_swapRemove {l : List α} {x : α} (h : x ∈ swapRemove p l) : x ∈ l := by
  unfold swapRemove at h
  split at h
  · next i y hi hy =>
      rcases List.mem_or_eq_of_mem_set (List.mem_of_mem_dropLast h) with hx | hx
      · exact hx
      · exact hx ▸ List.mem_of_getLast? hy
  · exact h

/-- Only a place where `p` holds is given up. -/
theorem mem_swapRemove_of_not {l : List α} {x : α} (hx : x ∈ l) (hp : p x = false) : x ∈ swapRemove p l := by
  unfold swapRemove
  split
  · next i y hi hy =>
      obtain ⟨hlt, hpi, -⟩ := List.findIdx?_eq_some_iff_getElem.mp hi
      obtain ⟨j, hj, rfl⟩ := List.mem_iff_getElem.mp hx
      have hne : i ≠ j := by
        rintro rfl
        rw [hpi] at hp
        cases hp
      rw [List.getLast?_eq_getElem?, List.getElem?_eq_some_iff] at hy
      obtain ⟨hlast, rfl⟩ := hy
      rw [List.mem_iff_getElem]
      -- the last element has moved to place `i`
      by_cases hjl : j = l.length - 1
      · refine ⟨i, ?_, ?_⟩
        · rw [List.length_dropLast, List.length_set]
          omega
        · simp [List.getElem_dropLast, hjl]
      · refine ⟨j, ?_, ?_⟩
        · rw [List.length_dropLast, List.length_set]
          omega
        · rw [List.getElem_dropLast, List.getElem_set_ne hne]
  · exact hx

/-- `swapRemove` gives up the first element where `p` holds, up to the order. -/
theorem swapRemove_perm (p : α → Bool) (l : List α) : (swapRemove p l).Perm (l.eraseP p) := by
  by_cases hex : ∃ a ∈ l, p a = true
  · obtain ⟨a, hmem, hp⟩ := hex
    obtain ⟨b, l₁, l₂, hpre, hb, rfl, herase⟩ := List.exists_of_eraseP hmem hp
    have hidx : (l₁ ++ b :: l₂).findIdx? p = some l₁.length := by
      rw [List.findIdx?_append, List.findIdx?_eq_none_iff.mpr (fun x hx => by simpa using hpre x hx),
        List.findIdx?_cons, hb]
      simp
    rw [herase]
    unfold swapRemove
    rw [hidx]
    rcases List.eq_nil_or_concat l₂ with rfl | ⟨l₂, y, rfl⟩
    · simp
    · have hsplit : l₁ ++ b :: l₂.concat y = (l₁ ++ b :: l₂) ++ [y] := by simp
      have hset : ((l₁ ++ b :: l₂) ++ [y]).set l₁.length y = (l₁ ++ y :: l₂) ++ [y] := by simp
      rw [hsplit, List.getLast?_concat]
      dsimp only
      rw [hset, List.dropLast_concat, List.concat_eq_append]
      exact (List.perm_append_singleton y l₂).symm.append_left l₁
  · have hno : ∀ a ∈ l, ¬ p a = true := fun a ha hp => hex ⟨a, ha, hp⟩
    have hidx : l.findIdx? p = none := List.findIdx?_eq_none_iff.mpr (fun a ha => by simpa using hno a ha)
    unfold swapRemove
    rw [hidx, List.eraseP_of_forall_not hno]

/-! ## Arrays without gaps, looked up by key -/

section Lookup

variable [DecidableEq κ] {a b : α} {k : κ}

/-- The first slot with the key `k`. -/
def lookup (key : α → κ) (k : κ) (l : List α) : Option α := l.find? (fun a => key a = k)

theorem lookup_eq_none : lookup key k l = none ↔ ∀ a ∈ l, key a ≠ k := by
  simp [lookup]

/-- Where keys are distinct, the slot of a key is the one that has it. -/
theorem lookup_eq_some (hn : (l.map key).Nodup) : lookup key k l = some a ↔ a ∈ l ∧ key a = k := by
  constructor
  · intro h
    exact ⟨List.mem_of_find?_eq_some h, by simpa using List.find?_some h⟩
  · rintro ⟨ha, rfl⟩
    cases hl : lookup key (key a) l with
    | none => exact absurd rfl (lookup_eq_none.mp hl a ha)
    | some b =>
      have hb : key b = key a := by simpa using List.find?_some hl
      rw [List.inj_on_of_nodup_map hn (List.mem_of_find?_eq_some hl) ha hb]

/-- A lookup sees only the slots with its key. -/
theorem lookup_congr {l' : List α} (hn : (l.map key).Nodup) (hn' : (l'.map key).Nodup)
    (h : ∀ a, key a = k → (a ∈ l' ↔ a ∈ l)) : lookup key k l' = lookup key k l := by
  apply Option.ext
  intro a
  rw [lookup_eq_some hn, lookup_eq_some hn']
  exact and_congr_left (fun hk => h a hk)

omit [DecidableEq κ] in
theorem map_set_key (ha : l[i]? = some a) (hb : key b = key a) : (l.set i b).map key = l.map key := by
  apply List.ext_getElem?
  intro j
  rw [List.map_set, List.getElem?_set]
  split
  · next hij =>
      subst hij
      rw [List.getElem?_map, ha, if_pos (by simpa using (List.getElem?_eq_some_iff.mp ha).1), hb]
      rfl
  · rfl

/-- Writing a slot under the key it has. -/
theorem lookup_set (hn : (l.map key).Nodup) (ha : l[i]? = some a) (hb : key b = key a) :
    lookup key k (l.set i b) = if k = key a then some b else lookup key k l := by
  have hn' : ((l.set i b).map key).Nodup := (map_set_key ha hb).symm ▸ hn
  split
  · next hk =>
      rw [lookup_eq_some hn', hk]
      exact ⟨List.mem_set (List.getElem?_eq_some_iff.mp ha).1 b, hb⟩
  · next hk =>
      apply lookup_congr hn hn'
      intro c hc
      constructor
      · intro hm
        rcases List.mem_or_eq_of_mem_set hm with hm | rfl
        · exact hm
        · exact absurd (hc.symm.trans hb) hk
      · intro hm
        obtain ⟨j, hj⟩ := List.mem_iff_getElem?.mp hm
        have hji : i ≠ j := by
          rintro rfl
          rw [ha] at hj
          cases hj
          exact hk hc.symm
        exact List.mem_of_getElem? ((List.getElem?_set_ne hji).trans hj)

omit [DecidableEq κ] in
theorem nodup_append_new (hn : (l.map key).Nodup) (hb : ∀ a ∈ l, key a ≠ key b) :
    ((l ++ [b]).map key).Nodup := by
  rw [List.map_append, List.map_singleton, List.nodup_append]
  refine ⟨hn, List.nodup_singleton _, ?_⟩
  intro x hx y hy
  obtain ⟨a, ha, rfl⟩ := List.mem_map.mp hx
  rw [List.mem_singleton.mp hy]
  exact hb a ha

theorem lookup_append_new (hb : ∀ a ∈ l, key a ≠ key b) :
    lookup key k (l ++ [b]) = if k = key b then some b else lookup key k l := by
  rw [lookup, List.find?_append]
  split
  · next hk =>
      subst hk
      rw [show l.find? (fun a => key a = key b) = none from lookup_eq_none.mpr hb]
      simp
  · next hk =>
      rw [List.find?_singleton, if_neg (by simpa using fun h => hk h.symm), Option.or_none]
      rfl

theorem lookup_map {f : α → α} (hf : ∀ a, key (f a) = key a) :
    lookup key k (l.map f) = (lookup key k l).map f := by
  rw [lookup, lookup, List.find?_map]
  simp only [Function.comp_def, hf]

omit [DecidableEq κ] in
theorem nodup_swapRemove (hn : (l.map key).Nodup) : ((swapRemove p l).map key).Nodup :=
  ((swapRemove_perm p l).map key).nodup_iff.mpr (hn.sublist (List.eraseP_sublist.map key))

/-- Giving up the slot of `r` leaves every other key alone. -/
theorem lookup_swapRemove (hn : (l.map key).Nodup) (r : κ) :
    lookup key k (swapRemove (fun a => key a == r) l) = if k = r then none else lookup key k l := by
  have hn' := nodup_swapRemove hn (p := fun a => key a == r)
  split
  · next hk =>
      subst hk
      rw [lookup_eq_none]
      intro a ha hak
      -- a slot with the key is the one that was erased
      have hmem := (swapRemove_perm _ l).mem_iff.mp ha
      obtain ⟨b, l₁, l₂, hpre, hb, rfl, herase⟩ :=
        List.exists_of_eraseP (p := fun a => key a == k) (List.eraseP_subset hmem) (by simpa using hak)
      rw [herase] at hmem
      rw [List.map_append, List.map_cons, List.nodup_middle, List.nodup_cons] at hn
      have hkb : key b = k := by simpa using hb
      exact hn.1 (hkb.trans hak.symm ▸ List.map_append ▸ List.mem_map_of_mem hmem)
  · next hk =>
      apply lookup_congr hn hn'
      intro a hak
      constructor
      · exact mem_of_mem_swapRemove
      · intro ha
        exact mem_swapRemove_of_not ha (by simpa [hak] using hk)

end Lookup

end Slots

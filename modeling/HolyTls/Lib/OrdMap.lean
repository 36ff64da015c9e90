import Mathlib.Tactic
import Mathlib.Data.List.Nodup

/-!
# `Lib.OrdMap` — insertion-ordered finite maps

A finite map whose entries carry their own key and keep the order in which their keys were first inserted:
writing an existing key replaces its entry **in place**, writing a new key appends. `OrdMap key` bundles
the entries with the fact that no two of them share a key, so the operations below can only build such
lists.

Seen as an array, overwriting or deleting the position of a key is `put` or `erase` (`set_eq_upsert`,
`eraseIdx_eq_filter`), and compacting in place is `filter` (`compact_eq`).
-/

namespace OrdMap

variable {α κ : Type} [DecidableEq κ] {key : α → κ}

/-! ## Replace in place or append -/

/-- Replace the first entry with `a`'s key by `a`, or append `a`. -/
def upsert (key : α → κ) (a : α) : List α → List α
  | [] => [a]
  | b :: bs => if key b = key a then a :: bs else b :: upsert key a bs

variable {l : List α}

theorem upsert_of_not_mem {a : α} (h : key a ∉ l.map key) : upsert key a l = l ++ [a] := by
  induction l with
  | nil => rfl
  | cons b bs ih =>
    have hb : key b ≠ key a := by
      intro hk
      exact h (by simp [hk])
    have hbs : key a ∉ bs.map key := fun hm => h (by simp at hm ⊢; exact .inr hm)
    rw [upsert, if_neg hb, ih hbs, List.cons_append]

/-- A present key is replaced where it stands. -/
theorem upsert_of_mem {a : α} (h : key a ∈ l.map key) :
    ∃ pre old post, l = pre ++ old :: post ∧ key old = key a ∧ key a ∉ pre.map key ∧
      upsert key a l = pre ++ a :: post := by
  induction l with
  | nil => simp at h
  | cons b bs ih =>
    by_cases hb : key b = key a
    · exact ⟨[], b, bs, rfl, hb, by simp, by rw [upsert, if_pos hb]; rfl⟩
    · have hbs : key a ∈ bs.map key := by
        rw [List.map_cons, List.mem_cons] at h
        exact h.resolve_left (fun hk => hb hk.symm)
      obtain ⟨pre, old, post, rfl, hold, hpre, hup⟩ := ih hbs
      refine ⟨b :: pre, old, post, rfl, hold, ?_, ?_⟩
      · rw [List.map_cons, List.mem_cons, not_or]
        exact ⟨fun hk => hb hk.symm, hpre⟩
      · rw [upsert, if_neg hb, hup]; rfl

theorem map_upsert (a : α) (l : List α) :
    (upsert key a l).map key = if key a ∈ l.map key then l.map key else l.map key ++ [key a] := by
  split
  · next h =>
      obtain ⟨pre, old, post, rfl, hold, -, hup⟩ := upsert_of_mem h
      rw [hup]
      simp [hold]
  · next h => rw [upsert_of_not_mem h]; simp

theorem nodup_upsert {a : α} (h : (l.map key).Nodup) : ((upsert key a l).map key).Nodup := by
  rw [map_upsert]
  split
  · exact h
  · next hn =>
      rw [List.nodup_append]
      refine ⟨h, List.nodup_singleton _, ?_⟩
      rintro x hx y hy rfl
      rw [List.mem_singleton] at hy
      exact hn (hy ▸ hx)

/-- Writing a key leaves the entries of all other keys, and their order, alone. -/
theorem upsert_filter_ne (a : α) (l : List α) :
    (upsert key a l).filter (fun b => key b ≠ key a) = l.filter (fun b => key b ≠ key a) := by
  by_cases h : key a ∈ l.map key
  · obtain ⟨pre, old, post, rfl, hold, -, hup⟩ := upsert_of_mem h
    rw [hup]
    simp [hold]
  · rw [upsert_of_not_mem h]
    simp

/-! ## The bundled map -/

end OrdMap

/-- Entries with pairwise distinct keys, in the order their keys were first inserted. -/
structure OrdMap {α κ : Type} (key : α → κ) where
  entries : List α
  nodup : (entries.map key).Nodup

namespace OrdMap

variable {α κ : Type} {key : α → κ}

/-- An entry is determined by its key. -/
theorem eq_of_key_eq (m : OrdMap key) {a b : α} (ha : a ∈ m.entries) (hb : b ∈ m.entries)
    (hk : key a = key b) : a = b :=
  List.inj_on_of_nodup_map m.nodup ha hb hk

variable {l : List α} {p : α → Bool}

/-- A failed search says the key is absent. -/
theorem not_mem_of_findIdx?_eq_none {a : α} (hp : ∀ b, p b = true ↔ key b = key a) (h : l.findIdx? p = none) :
    key a ∉ l.map key := by
  intro hm
  obtain ⟨b, hb, hk⟩ := List.mem_map.mp hm
  have := List.findIdx?_eq_none_iff.mp h b hb
  rw [(hp b).mpr hk] at this
  cases this

variable [DecidableEq κ]

def empty : OrdMap key := ⟨[], List.nodup_nil⟩

/-- Write `a` under its key. -/
def put (m : OrdMap key) (a : α) : OrdMap key := ⟨upsert key a m.entries, nodup_upsert m.nodup⟩

/-- Keep the entries that satisfy `p`. -/
def keep (m : OrdMap key) (p : α → Bool) : OrdMap key :=
  ⟨m.entries.filter p, m.nodup.sublist (List.filter_sublist.map key)⟩

/-- Delete the entry of key `k`. -/
def erase (m : OrdMap key) (k : κ) : OrdMap key := m.keep (fun a => key a ≠ k)

theorem mem_put {m : OrdMap key} {a b : α} :
    b ∈ (m.put a).entries ↔ b = a ∨ (b ∈ m.entries ∧ key b ≠ key a) := by
  have hframe : ∀ b, (b ∈ (m.put a).entries ∧ key b ≠ key a) ↔ (b ∈ m.entries ∧ key b ≠ key a) := by
    intro b
    have hfilter : (m.put a).entries.filter (fun b => key b ≠ key a) =
        m.entries.filter (fun b => key b ≠ key a) := upsert_filter_ne a m.entries
    have := congrArg (fun l => b ∈ l) hfilter
    simpa using this
  have hmem : a ∈ (m.put a).entries := by
    show a ∈ upsert key a m.entries
    by_cases h : key a ∈ m.entries.map key
    · obtain ⟨pre, old, post, -, -, -, hup⟩ := upsert_of_mem h
      rw [hup]; simp
    · rw [upsert_of_not_mem h]; simp
  constructor
  · intro hb
    by_cases hk : key b = key a
    · exact .inl ((m.put a).eq_of_key_eq hb hmem hk)
    · exact .inr ((hframe b).mp ⟨hb, hk⟩)
  · rintro (rfl | h)
    · exact hmem
    · exact ((hframe b).mpr h).1

/-! ## The array view -/

/-- Overwriting the first position that holds `a`'s key is `upsert`. -/
theorem set_eq_upsert {a : α} {i : Nat} (hp : ∀ b, p b = true ↔ key b = key a) (h : l.findIdx? p = some i) :
    l.set i a = upsert key a l := by
  induction l generalizing i with
  | nil => simp at h
  | cons b bs ih =>
    by_cases hb : key b = key a
    · have : i = 0 := by
        rw [List.findIdx?_cons, if_pos ((hp b).mpr hb)] at h
        simpa using h.symm
      subst this
      rw [upsert, if_pos hb]; rfl
    · have hpb : p b = false := by
        rw [← Bool.not_eq_true, hp]; exact hb
      rw [List.findIdx?_cons, hpb] at h
      obtain ⟨j, hj, rfl⟩ : ∃ j, bs.findIdx? p = some j ∧ j + 1 = i := by simpa using h
      rw [List.set_cons_succ, ih hj, upsert, if_neg hb]

/-- Deleting the first position that holds key `k` deletes every entry of that key. -/
theorem eraseIdx_eq_filter {k : κ} {i : Nat} (hn : (l.map key).Nodup) (hp : ∀ b, p b = true ↔ key b = k)
    (h : l.findIdx? p = some i) :
    l.eraseIdx i = l.filter (fun b => key b ≠ k) := by
  induction l generalizing i with
  | nil => simp at h
  | cons b bs ih =>
    rw [List.map_cons, List.nodup_cons] at hn
    by_cases hb : key b = k
    · have : i = 0 := by
        rw [List.findIdx?_cons, if_pos ((hp b).mpr hb)] at h
        simpa using h.symm
      subst this
      have hrest : ∀ c ∈ bs, key c ≠ k := by
        intro c hc hk
        exact hn.1 (List.mem_map.mpr ⟨c, hc, hk.trans hb.symm⟩)
      have hself : bs.filter (fun c => key c ≠ k) = bs :=
        List.filter_eq_self.mpr (fun c hc => decide_eq_true (hrest c hc))
      rw [List.eraseIdx_cons_zero, List.filter_cons_of_neg (by simp [hb]), hself]
    · have hpb : p b = false := by
        rw [← Bool.not_eq_true, hp]; exact hb
      rw [List.findIdx?_cons, hpb] at h
      obtain ⟨j, hj, rfl⟩ : ∃ j, bs.findIdx? p = some j ∧ j + 1 = i := by simpa using h
      rw [List.eraseIdx_cons_succ, ih hn.2 hj]
      simp [hb]

theorem filter_eq_self_of_findIdx?_eq_none {k : κ} (hp : ∀ b, p b = true ↔ key b = k)
    (h : l.findIdx? p = none) :
    l.filter (fun b => key b ≠ k) = l := by
  rw [List.filter_eq_self]
  intro b hb
  have hpb := List.findIdx?_eq_none_iff.mp h b hb
  have : ¬ key b = k := by rw [← hp b, hpb]; simp
  simpa using this

/-- Compacting an array in place: from position `i` on, delete what satisfies `p` and step over the rest.
    `n` counts the positions still to be looked at. -/
def compact (p : α → Bool) : Nat → Nat → List α → List α
  | 0, _, v => v
  | n + 1, i, v =>
    match v[i]? with
    | none => v
    | some a => if p a then compact p n i (v.eraseIdx i) else compact p n (i + 1) v

/-- In-place compaction is `filter` behind the positions already passed. -/
theorem compact_eq (p : α → Bool) (n : Nat) (pre rest : List α) (hn : n = rest.length) :
    compact p n pre.length (pre ++ rest) = pre ++ rest.filter (fun a => !p a) := by
  induction n generalizing pre rest with
  | zero =>
    obtain rfl : rest = [] := List.length_eq_zero_iff.mp hn.symm
    simp [compact]
  | succ n ih =>
    cases rest with
    | nil => simp at hn
    | cons a rest =>
      have hget : (pre ++ a :: rest)[pre.length]? = some a := by simp
      have hlen : n = rest.length := by simpa using hn
      rw [compact, hget]
      by_cases ha : p a = true
      · have herase : (pre ++ a :: rest).eraseIdx pre.length = pre ++ rest := by
          rw [List.eraseIdx_append_of_length_le (le_refl _)]
          simp
        simp only [ha, if_true, herase]
        rw [ih pre rest hlen]
        simp [ha]
      · rw [Bool.not_eq_true] at ha
        simp only [ha, Bool.false_eq_true, if_false]
        have := ih (pre ++ [a]) rest hlen
        simp only [List.length_append, List.length_singleton, List.append_assoc,
          List.singleton_append] at this
        rw [this]
        simp [ha]

theorem compact_all (p : α → Bool) (v : List α) :
    compact p v.length 0 v = v.filter (fun a => !p a) := by
  simpa using compact_eq p v.length [] v rfl

end OrdMap

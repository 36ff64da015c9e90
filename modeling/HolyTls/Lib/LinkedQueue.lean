import Mathlib.Tactic

/-!
# `Lib.LinkedQueue` — intrusive queues

A queue whose nodes carry their own `next` pointer, with a pointer to the first and to the last node. The
pointers live in a heap that several queues share, so every operation is a function of the heap and of the
ends of the queue; `Holds next q l` says that `q` is, in the heap `next`, the queue of the nodes `l`. Each
operation is described by what it does to that list, and `Holds.of_eq_on` is the frame rule: a queue does not
notice a change to nodes of others.
-/

namespace LinkedQueue

variable {ν : Type}

/-- From `p`, the `next` pointers lead through the nodes `l` to the end. -/
def Chain (next : ν → Option ν) : Option ν → List ν → Prop
  | p, [] => p = none
  | p, x :: xs => p = some x ∧ Chain next (next x) xs

/-- The pointers to the first and the last node. -/
structure Ends (ν : Type) where
  head : Option ν := none
  tail : Option ν := none

/-- `q` is the queue of the nodes `l`. -/
structure Holds (next : ν → Option ν) (q : Ends ν) (l : List ν) : Prop where
  chain : Chain next q.head l
  tail : q.tail = l.getLast?
  nodup : l.Nodup

/-! ## Operations -/

/-- Append the nodes of `sub`: `if (tail) tail->next = sub.head; else head = sub.head; tail = sub.tail`. -/
def link [DecidableEq ν] (next : ν → Option ν) (q sub : Ends ν) : (ν → Option ν) × Ends ν :=
  match q.tail with
  | some t => (Function.update next t sub.head, { head := q.head, tail := sub.tail })
  | none => (next, { head := sub.head, tail := sub.tail })

/-- Append one node, whose own pointer is cleared first. -/
def push [DecidableEq ν] (next : ν → Option ν) (q : Ends ν) (x : ν) : (ν → Option ν) × Ends ν :=
  link (Function.update next x none) q { head := some x, tail := some x }

/-- `while (cx && n < max) { prev = cx; cx = cx->next; n++; }`, with `max - n` rounds to go. -/
def walk (next : ν → Option ν) : Nat → Option ν → Option ν → Nat → Option ν × Option ν × Nat
  | 0, cx, prev, n => (cx, prev, n)
  | _ + 1, none, prev, n => (none, prev, n)
  | k + 1, some x, _, n => walk next k (next x) (some x) (n + 1)

/-- Detach up to `max` nodes from the front: the heap, what stays queued, and how many were detached. The
    detached nodes are the chain from the old head. -/
def takeUpTo [DecidableEq ν] (next : ν → Option ν) (q : Ends ν) (max : Nat) : (ν → Option ν) × Ends ν × Nat :=
  let w := walk next max q.head none 0
  let next' := match w.2.1 with
    | some prev => Function.update next prev none
    | none => next
  (next', { head := w.1, tail := if w.1.isNone then none else q.tail }, w.2.2)

/-- Follow the chain from `p`, for up to `fuel` nodes. -/
def follow (next : ν → Option ν) : Nat → Option ν → List ν
  | 0, _ => []
  | _ + 1, none => []
  | fuel + 1, some x => x :: follow next fuel (next x)

/-! ## Chains -/

section

variable {next next' : ν → Option ν} {p : Option ν} {l l' : List ν} {x : ν} {q sub : Ends ν}

theorem Chain.head_eq (h : Chain next p l) : p = l.head? := by
  cases l with
  | nil => exact h
  | cons x xs => exact h.1

/-- A chain depends on the pointers of its own nodes only. -/
theorem Chain.of_eq_on (h : Chain next p l) (heq : ∀ x ∈ l, next' x = next x) : Chain next' p l := by
  induction l generalizing p with
  | nil => exact h
  | cons x xs ih =>
    refine ⟨h.1, ?_⟩
    rw [heq x List.mem_cons_self]
    exact ih h.2 (fun y hy => heq y (List.mem_cons_of_mem x hy))

/-- The chain from the node after the first `l`. -/
theorem Chain.append_right (h : Chain next p (l ++ l')) : ∃ q, Chain next q l' := by
  induction l generalizing p with
  | nil => exact ⟨p, h⟩
  | cons x xs ih => exact ih h.2

theorem follow_chain (h : Chain next p l) {fuel : Nat} (hfuel : l.length ≤ fuel) : follow next fuel p = l := by
  induction l generalizing p fuel with
  | nil =>
    cases h
    cases fuel <;> rfl
  | cons x xs ih =>
    obtain ⟨rfl, h⟩ := h
    obtain ⟨fuel, rfl⟩ := Nat.exists_eq_succ_of_ne_zero (Nat.ne_of_gt (Nat.zero_lt_of_lt hfuel))
    rw [follow, ih h (Nat.le_of_succ_le_succ hfuel)]

/-- The walk stops at the end or after `k` nodes. -/
theorem walk_chain (h : Chain next p l) (k : Nat) (prev : Option ν) (n : Nat) :
    walk next k p prev n = ((l.drop k).head?, ((l.take k).getLast?).or prev, n + min k l.length) := by
  induction k generalizing p l prev n with
  | zero =>
    rw [walk, h.head_eq]
    simp
  | succ k ih =>
    cases l with
    | nil =>
      cases h
      simp [walk]
    | cons x xs =>
      obtain ⟨rfl, h⟩ := h
      rw [walk, ih h]
      refine Prod.ext rfl (Prod.ext ?_ ?_)
      · show ((xs.take k).getLast?).or (some x) = ((x :: xs).take (k + 1)).getLast?.or prev
        rw [List.take_succ_cons, List.getLast?_cons]
        cases (xs.take k).getLast? <;> rfl
      · show n + 1 + min k xs.length = n + min (k + 1) (xs.length + 1)
        omega

theorem Holds.empty : Holds next {} ([] : List ν) := ⟨rfl, rfl, List.nodup_nil⟩

theorem Holds.of_eq_on (h : Holds next q l) (heq : ∀ x ∈ l, next' x = next x) : Holds next' q l :=
  ⟨h.chain.of_eq_on heq, h.tail, h.nodup⟩

theorem Holds.head_isNone (h : Holds next q l) : q.head.isNone = l.isEmpty := by
  rw [h.chain.head_eq]
  cases l <;> rfl

variable [DecidableEq ν]

theorem update_eq_on (hx : x ∉ l) (p' : Option ν) : ∀ y ∈ l, Function.update next x p' y = next y := by
  intro y hy
  apply Function.update_of_ne
  rintro rfl
  exact hx hy

theorem Chain.of_update (h : Chain next p l) (hx : x ∉ l) (p' : Option ν) :
    Chain (Function.update next x p') p l :=
  h.of_eq_on (update_eq_on hx p')

/-- Putting a chain behind the last node of another. -/
theorem Chain.link (h : Chain next p (l ++ [x])) (hnodup : (l ++ [x]).Nodup) {p' : Option ν} (h' : Chain next p' l')
    (hdisj : ∀ y ∈ l', y ∉ l ++ [x]) : Chain (Function.update next x p') p (l ++ [x] ++ l') := by
  induction l generalizing p with
  | nil =>
    refine ⟨h.1, ?_⟩
    rw [Function.update_self]
    exact h'.of_update (fun hx => hdisj x hx (by simp)) p'
  | cons y l ih =>
    have hne : y ≠ x := by
      rintro rfl
      simp at hnodup
    refine ⟨h.1, ?_⟩
    rw [Function.update_of_ne hne]
    exact ih h.2 (List.nodup_cons.mp hnodup).2 (fun z hz hmem => hdisj z hz (List.mem_cons_of_mem y hmem))

theorem Chain.cut (h : Chain next p (l ++ x :: l')) (hnodup : (l ++ x :: l').Nodup) :
    Chain (Function.update next x none) p (l ++ [x]) := by
  induction l generalizing p with
  | nil => exact ⟨h.1, by rw [Function.update_self]; rfl⟩
  | cons y l ih =>
    have hne : y ≠ x := by
      rintro rfl
      simp at hnodup
    refine ⟨h.1, ?_⟩
    rw [Function.update_of_ne hne]
    exact ih h.2 (List.nodup_cons.mp hnodup).2

/-! ## Queues -/

/-- **Appending a queue to a queue.** -/
theorem Holds.link (h : Holds next q l) (h' : Holds next sub l') (hdisj : ∀ y ∈ l', y ∉ l) (hne : l' ≠ []) :
    Holds (LinkedQueue.link next q sub).1 (LinkedQueue.link next q sub).2 (l ++ l') := by
  have hnodup : (l ++ l').Nodup :=
    List.nodup_append.mpr ⟨h.nodup, h'.nodup, fun y hy z hz hyz => hdisj z hz (hyz ▸ hy)⟩
  have hlast : (l ++ l').getLast? = l'.getLast? := by
    rw [List.getLast?_append]
    obtain ⟨y, hy⟩ := Option.isSome_iff_exists.mp (List.getLast?_isSome.mpr hne)
    rw [hy]
    rfl
  unfold LinkedQueue.link
  rcases List.eq_nil_or_concat l with rfl | ⟨init, t, rfl⟩
  · have htail : q.tail = none := h.tail
    rw [htail]
    exact ⟨h'.chain, by rw [hlast]; exact h'.tail, hnodup⟩
  · have htail : q.tail = some t := by rw [h.tail]; simp
    rw [htail]
    refine ⟨?_, by rw [hlast]; exact h'.tail, hnodup⟩
    rw [List.concat_eq_append] at *
    exact h.chain.link h.nodup h'.chain hdisj

/-- What linking changes in the heap: nothing outside the first queue. -/
theorem link_eq_on (h : Holds next q l) {y : ν} (hy : y ∉ l) : (link next q sub).1 y = next y := by
  unfold link
  cases ht : q.tail with
  | none => rfl
  | some t =>
    have hmem : t ∈ l := List.mem_of_getLast? (h.tail.symm.trans ht)
    apply Function.update_of_ne
    rintro rfl
    exact hy hmem

/-- **Appending a node.** -/
theorem Holds.push (h : Holds next q l) (hx : x ∉ l) :
    Holds (LinkedQueue.push next q x).1 (LinkedQueue.push next q x).2 (l ++ [x]) := by
  refine Holds.link (h.of_eq_on (update_eq_on hx none)) ?_ ?_
    (List.cons_ne_nil x [])
  · exact ⟨⟨rfl, Function.update_self _ _ _⟩, rfl, List.nodup_singleton x⟩
  · intro y hy
    rw [List.mem_singleton.mp hy]
    exact hx

theorem push_eq_on (h : Holds next q l) (hx : x ∉ l) {y : ν} (hy : y ∉ l) (hyx : y ≠ x) :
    (push next q x).1 y = next y := by
  rw [push, link_eq_on (h.of_eq_on (update_eq_on hx none)) hy]
  exact Function.update_of_ne hyx _ _

/-- **Detaching from the front**: what is left is queued, what was detached is a chain from the old head. -/
theorem Holds.takeUpTo (h : Holds next q l) {max : Nat} (hmax : 0 < max) :
    Holds (LinkedQueue.takeUpTo next q max).1 (LinkedQueue.takeUpTo next q max).2.1 (l.drop max) ∧
      Chain (LinkedQueue.takeUpTo next q max).1 q.head (l.take max) ∧
      (LinkedQueue.takeUpTo next q max).2.2 = min max l.length := by
  have hdrop : (l.drop max).Nodup := (List.drop_sublist max l).nodup h.nodup
  have hsplit : l.take max ++ l.drop max = l := List.take_append_drop max l
  unfold LinkedQueue.takeUpTo
  rw [walk_chain h.chain]
  dsimp only
  rw [Option.or_none]
  -- the tail stays the last node unless nothing is left
  have htail : (if (l.drop max).head?.isNone = true then none else q.tail) = (l.drop max).getLast? := by
    cases hd : l.drop max with
    | nil => rfl
    | cons y ys =>
      rw [List.head?_cons, if_neg (by simp), h.tail, ← hsplit, hd, List.getLast?_append]
      simp [List.getLast?_cons]
  rcases List.eq_nil_or_concat (l.take max) with hnil | ⟨init, t, hinit⟩
  · have hl : l = [] := by
      rcases List.take_eq_nil_iff.mp hnil with h0 | h0
      · omega
      · exact h0
    subst hl
    have hhead : q.head = none := h.chain
    simp only [List.take_nil, List.drop_nil, List.getLast?_nil, List.head?_nil]
    exact ⟨⟨rfl, rfl, List.nodup_nil⟩, hhead, by simp⟩
  · rw [List.concat_eq_append] at hinit
    have hlast : (l.take max).getLast? = some t := by rw [hinit]; simp
    have hwhole : init ++ t :: l.drop max = l := by
      rw [← List.singleton_append, ← List.append_assoc, ← hinit, hsplit]
    have hchain : Chain next q.head (init ++ t :: l.drop max) := by rw [hwhole]; exact h.chain
    have hnodup : (init ++ t :: l.drop max).Nodup := by rw [hwhole]; exact h.nodup
    rw [hlast]
    dsimp only
    refine ⟨⟨?_, htail, hdrop⟩, ?_, by simp⟩
    · have htmem : t ∉ l.drop max := (List.nodup_cons.mp (List.nodup_append.mp hnodup).2.1).1
      have hrest : Chain next (l.drop max).head? (l.drop max) := by
        have hchain' : Chain next q.head ((init ++ [t]) ++ l.drop max) := by
          rw [List.append_assoc, List.singleton_append]
          exact hchain
        obtain ⟨p', hp'⟩ := hchain'.append_right
        rwa [hp'.head_eq] at hp'
      exact hrest.of_update htmem none
    · rw [hinit]
      exact hchain.cut hnodup

end

end LinkedQueue

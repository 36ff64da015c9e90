import Mathlib.Tactic

/-!
# `Lib.Runs` — runs of a machine whose steps meet a condition

A machine is a partial step function: `step s e` is the state after the event `e`, or `none` when `e`
cannot happen in `s`. `Reach init step ok` are the states that runs from `init` lead to when every step
meets the condition `ok` on the event and the state before it; with `ok` always true these are all
reachable states. An invariant has to survive only the steps that meet the condition.

The last section is about **logs**, the lists of effects a machine leaves behind: `QuietAfter p q` says
that nothing of kind `q` comes after something of kind `p`, `Each P` that every entry meets `P`, which may
look at what came before it.
-/

namespace Runs

variable {σ ε : Type}

/-- The states reached by runs all of whose steps meet `ok`. -/
inductive Reach (init : σ → Prop) (step : σ → ε → Option σ) (ok : σ → ε → Prop) : σ → Prop
  | start {s : σ} (h : init s) : Reach init step ok s
  | next {s s' : σ} {e : ε} (h : Reach init step ok s) (hok : ok s e) (hs : step s e = some s') :
      Reach init step ok s'

variable {init : σ → Prop} {step : σ → ε → Option σ} {ok : σ → ε → Prop}

/-- What holds at the start and survives every step that meets the condition holds in every state
    reached. -/
theorem Reach.invariant {I : σ → Prop} (hinit : ∀ s, init s → I s)
    (hstep : ∀ s e s', I s → ok s e → step s e = some s' → I s') {s : σ}
    (h : Reach init step ok s) : I s := by
  induction h with
  | start h => exact hinit _ h
  | next _ hok hs ih => exact hstep _ _ _ ih hok hs

/-- The events of a list, one after the other. -/
theorem Reach.foldlM {s s' : σ} {es : List ε} (h : Reach init step (fun _ _ => True) s)
    (hes : es.foldlM step s = some s') : Reach init step (fun _ _ => True) s' := by
  induction es generalizing s with
  | nil =>
    cases hes
    exact h
  | cons e es ih =>
    rw [List.foldlM_cons] at hes
    obtain ⟨s₁, hs, hrest⟩ := Option.bind_eq_some_iff.mp hes
    exact ih (.next h trivial hs) hrest

/-! ## Traces

A relation `step s o s'` says that one step leads from `s` to `s'` and shows the events `o`. -/

variable {ω : Type}

/-- Steps in a row, with all the events they show. -/
inductive Trace (step : σ → List ω → σ → Prop) : σ → List ω → σ → Prop
  | refl (s : σ) : Trace step s [] s
  | head {s s₁ s₂ : σ} {o o' : List ω} (h : step s o s₁) (ht : Trace step s₁ o' s₂) :
      Trace step s (o ++ o') s₂

namespace Trace

variable {move : σ → List ω → σ → Prop} {s s₁ s₂ : σ} {o o' : List ω}

theorem single (h : move s o s₁) : Trace move s o s₁ := by
  have ht := Trace.head h (Trace.refl s₁)
  rwa [List.append_nil] at ht

theorem trans (h : Trace move s o s₁) (h' : Trace move s₁ o' s₂) : Trace move s (o ++ o') s₂ := by
  induction h with
  | refl s => exact h'
  | head hm _ ih =>
    rw [List.append_assoc]
    exact Trace.head hm (ih h')

theorem mono {move' : σ → List ω → σ → Prop} (himp : ∀ s o s', move s o s' → move' s o s')
    (h : Trace move s o s₁) : Trace move' s o s₁ := by
  induction h with
  | refl s => exact Trace.refl s
  | head hm _ ih => exact Trace.head (himp _ _ _ hm) ih

/-- A reflexive and transitive relation that every step respects holds between the ends of a trace. -/
theorem related {R : σ → σ → Prop} (hrefl : ∀ s, R s s) (htrans : ∀ a b c, R a b → R b c → R a c)
    (hstep : ∀ s o s', move s o s' → R s s') (h : Trace move s o s₁) : R s s₁ := by
  induction h with
  | refl s => exact hrefl s
  | head hm _ ih => exact htrans _ _ _ (hstep _ _ _ hm) ih

theorem preserves {P : σ → Prop} (hstep : ∀ s o s', move s o s' → P s → P s') (h : Trace move s o s₁)
    (hP : P s) : P s₁ :=
  related (R := fun s s' => P s → P s') (fun _ h => h) (fun _ _ _ h h' hP => h' (h hP)) hstep h hP

/-- What every step preserves, as long as the events seen so far meet `C`, a trace preserves. The
    invariant may speak about the events so far; `C` has to be about prefixes. -/
theorem invariant {I : List ω → σ → Prop} {C : List ω → Prop}
    (hpre : ∀ l l', C (l ++ l') → C l)
    (hstep : ∀ l s o s', I l s → move s o s' → C (l ++ o) → I (l ++ o) s')
    (h : Trace move s o s₁) : ∀ l, I l s → C (l ++ o) → I (l ++ o) s₁ := by
  induction h with
  | refl s =>
    intro l hI _
    rwa [List.append_nil]
  | @head s s₁ s₂ o o' hm _ ih =>
    intro l hI hC
    rw [← List.append_assoc] at hC ⊢
    exact ih (l ++ o) (hstep l _ _ _ hI hm (hpre _ _ hC)) hC

/-- Where steps show one event at a time, a trace can be cut at an event. -/
theorem split (hone : ∀ s o s', move s o s' → o.length ≤ 1) {a b : List ω} {x : ω}
    (h : Trace move s o s₁) (ho : o = a ++ x :: b) :
    ∃ u v, Trace move s a u ∧ move u [x] v ∧ Trace move v b s₁ := by
  induction h generalizing a with
  | refl s => exact absurd ho.symm (List.append_ne_nil_of_right_ne_nil a (List.cons_ne_nil x b))
  | @head s s' s₂ e o' hm htail ih =>
    match e, hone s e s' hm, hm with
    | [], _, hm =>
      obtain ⟨u, v, hu, hx, hv⟩ := ih ho
      exact ⟨u, v, Trace.head hm hu, hx, hv⟩
    | [y], _, hm =>
      cases a with
      | nil =>
        obtain ⟨rfl, rfl⟩ := List.cons.inj ho
        exact ⟨s, s', Trace.refl s, hm, htail⟩
      | cons z a =>
        obtain ⟨rfl, ho'⟩ := List.cons.inj ho
        obtain ⟨u, v, hu, hx, hv⟩ := ih ho'
        exact ⟨u, v, Trace.head hm hu, hx, hv⟩
    | _ :: _ :: _, hle, _ => exact absurd hle (by simp)

/-! Where every step shows exactly one event, a trace can be cut anywhere. -/

theorem nil_inv (hone : ∀ s o s', move s o s' → o.length = 1) (h : Trace move s [] s₁) : s₁ = s := by
  generalize ho : ([] : List ω) = o at h
  cases h with
  | refl s => rfl
  | head hm _ =>
    have hlen := congrArg List.length ho
    rw [List.length_append, hone _ _ _ hm] at hlen
    simp only [List.length_nil] at hlen
    omega

theorem cons_inv (hone : ∀ s o s', move s o s' → o.length = 1) {x : ω} (h : Trace move s (x :: o) s₁) :
    ∃ u, move s [x] u ∧ Trace move u o s₁ := by
  generalize ho : x :: o = o' at h
  cases h with
  | refl s => cases ho
  | @head s s' _ e _ hm ht =>
    obtain ⟨y, rfl⟩ := List.length_eq_one_iff.mp (hone _ _ _ hm)
    obtain ⟨rfl, rfl⟩ := List.cons.inj ho
    exact ⟨s', hm, ht⟩

theorem append_inv (hone : ∀ s o s', move s o s' → o.length = 1) (h : Trace move s (o ++ o') s₁) :
    ∃ u, Trace move s o u ∧ Trace move u o' s₁ := by
  induction o generalizing s with
  | nil => exact ⟨s, Trace.refl s, h⟩
  | cons x o ih =>
    obtain ⟨u, hm, ht⟩ := cons_inv hone h
    obtain ⟨v, hv, hv'⟩ := ih ht
    exact ⟨v, Trace.head hm hv, hv'⟩

end Trace

/-! ## Logs -/

variable {α : Type}

/-- Nothing of kind `q` comes after something of kind `p`. -/
def QuietAfter (p q : α → Bool) : List α → Prop
  | [] => True
  | x :: l => (p x = true → ∀ y ∈ l, q y = false) ∧ QuietAfter p q l

variable {p q : α → Bool} {x : α} {l : List α}

/-- A new entry keeps the log quiet when it is not of kind `q`. -/
theorem QuietAfter.snoc_other (h : QuietAfter p q l) (hx : q x = false) : QuietAfter p q (l ++ [x]) := by
  induction l with
  | nil => exact ⟨fun _ y hy => (by cases hy), trivial⟩
  | cons a l ih =>
    refine ⟨fun ha y hy => ?_, ih h.2⟩
    rcases List.mem_append.mp hy with hy | hy
    · exact h.1 ha y hy
    · rw [List.mem_singleton.mp hy]
      exact hx

/-- A new entry keeps the log quiet when nothing of kind `p` happened yet. -/
theorem QuietAfter.snoc_first (h : QuietAfter p q l) (hp : ∀ y ∈ l, p y = false) :
    QuietAfter p q (l ++ [x]) := by
  induction l with
  | nil => exact ⟨fun _ y hy => (by cases hy), trivial⟩
  | cons a l ih =>
    refine ⟨fun ha => ?_, ih h.2 (fun y hy => hp y (List.mem_cons_of_mem a hy))⟩
    rw [hp a List.mem_cons_self] at ha
    cases ha

theorem QuietAfter.append_other {l' : List α} (h : QuietAfter p q l) (hq : ∀ x ∈ l', q x = false) :
    QuietAfter p q (l ++ l') := by
  induction l' using List.reverseRecOn with
  | nil => rwa [List.append_nil]
  | append_singleton l' x ih =>
    rw [← List.append_assoc]
    exact (ih (fun y hy => hq y (by simp [hy]))).snoc_other (hq x (by simp))

instance decidableQuietAfter (p q : α → Bool) : (l : List α) → Decidable (QuietAfter p q l)
  | [] => isTrue trivial
  | _ :: l => @instDecidableAnd _ _ inferInstance (decidableQuietAfter p q l)

theorem QuietAfter.left {l' : List α} (h : QuietAfter p q (l ++ l')) : QuietAfter p q l := by
  induction l with
  | nil => trivial
  | cons a l ih => exact ⟨fun ha y hy => h.1 ha y (List.mem_append_left l' hy), ih h.2⟩

/-- A last entry of kind `q` comes after nothing of kind `p`. -/
theorem QuietAfter.last (h : QuietAfter p q (l ++ [x])) (hx : q x = true) : ∀ y ∈ l, p y = false := by
  induction l with
  | nil => exact fun y hy => (by cases hy)
  | cons a l ih =>
    intro y hy
    rcases List.mem_cons.mp hy with rfl | hy
    · by_contra hp
      have hq := h.1 (by simpa using hp) x (by simp)
      rw [hx] at hq
      cases hq
    · exact ih h.2 y hy

/-- Every entry of the log meets `P`, given what came before it. -/
def Each (P : List α → α → Prop) (l : List α) : Prop := ∀ a x b, l = a ++ x :: b → P a x

variable {P : List α → α → Prop} {l' : List α}

theorem Each.nil : Each P [] := fun a _ _ h => absurd h.symm (List.append_ne_nil_of_right_ne_nil a (by simp))

theorem Each.left (h : Each P (l ++ l')) : Each P l := by
  rintro a x b rfl
  exact h a x (b ++ l') (by simp)

theorem Each.last (h : Each P (l ++ [x])) : P l x := h l x [] rfl

theorem Each.snoc (h : Each P l) (hx : P l x) : Each P (l ++ [x]) := by
  intro a y b heq
  rcases List.eq_nil_or_concat b with rfl | ⟨b, z, rfl⟩
  · obtain ⟨hl, hxy⟩ := List.append_inj' heq rfl
    cases hxy
    exact hl ▸ hx
  · rw [List.concat_eq_append, ← List.cons_append, ← List.append_assoc] at heq
    exact h a y b (List.append_inj' heq rfl).1

/-- The log grows by at most one entry. -/
theorem Each.append (h : Each P l) (hone : l'.length ≤ 1) (hx : ∀ x ∈ l', P l x) : Each P (l ++ l') := by
  match l', hone with
  | [], _ => rwa [List.append_nil]
  | [x], _ => exact h.snoc (hx x List.mem_cons_self)

theorem Each.of_mem (h : Each P (l ++ l')) (hone : l'.length ≤ 1) (hx : x ∈ l') : P l x := by
  match l', hone with
  | [y], _ =>
    cases List.mem_singleton.mp hx
    exact h.last

theorem Each.iff_get : Each P l ↔ ∀ i : Fin l.length, P (l.take i) (l.get i) := by
  constructor
  · intro h i
    refine h _ _ (l.drop (i + 1)) ?_
    rw [List.get_eq_getElem, List.getElem_cons_drop, List.take_append_drop]
  · rintro h a x b rfl
    simpa using h ⟨a.length, by simp⟩

instance [∀ a x, Decidable (P a x)] : Decidable (Each P l) := decidable_of_iff _ Each.iff_get.symm

end Runs

import Mathlib.Algebra.BigOperators.Intervals
import Mathlib.Tactic

/-!
# `Lib.Calendar` — the proleptic Gregorian calendar

Days are counted from 1970-01-01 by adding up the lengths of years and months, and a day number is turned
back into a date by taking them off again. The count of the days before a year has the usual closed form
(`daysBeforeYear_eq`), from which the count of any formula that works with eras or shifted years can be
checked by arithmetic.
-/

namespace Calendar

def isLeap (y : Nat) : Bool := y % 4 == 0 && (y % 100 != 0 || y % 400 == 0)

def yearDays (y : Nat) : Nat := if isLeap y then 366 else 365

/-- The length of a month, 1 to 12. -/
def monthDays (y m : Nat) : Nat :=
  if m = 2 then (if isLeap y then 29 else 28)
  else if m = 4 ∨ m = 6 ∨ m = 9 ∨ m = 11 then 30
  else 31

/-- The days from 1970-01-01 to the first day of the year. -/
def daysBeforeYear (y : Nat) : Nat := ∑ k ∈ Finset.Ico 1970 y, yearDays k

/-- The days of the year before the month. -/
def daysBeforeMonth (y m : Nat) : Nat := ∑ k ∈ Finset.Ico 1 m, monthDays y k

/-- The number of a day, 0 for 1970-01-01. -/
def dayCount (y m d : Nat) : Nat := daysBeforeYear y + daysBeforeMonth y m + (d - 1)

/-- A date that exists. -/
structure Valid (y m d : Nat) : Prop where
  year : 1970 ≤ y
  month : 1 ≤ m ∧ m ≤ 12
  day : 1 ≤ d ∧ d ≤ monthDays y m

/-! ## Sums -/

theorem daysBeforeYear_succ {y : Nat} (hy : 1970 ≤ y) : daysBeforeYear (y + 1) = daysBeforeYear y + yearDays y :=
  Finset.sum_Ico_succ_top hy _

theorem daysBeforeMonth_succ (y : Nat) {m : Nat} (hm : 1 ≤ m) :
    daysBeforeMonth y (m + 1) = daysBeforeMonth y m + monthDays y m :=
  Finset.sum_Ico_succ_top hm _

theorem isLeap_iff {y : Nat} : isLeap y = true ↔ y % 4 = 0 ∧ (y % 100 ≠ 0 ∨ y % 400 = 0) := by
  simp [isLeap]

theorem yearDays_pos (y : Nat) : 365 ≤ yearDays y := by
  unfold yearDays
  split <;> omega

/-- The closed form: 365 days for every year, and the leap days up to the year before. -/
theorem daysBeforeYear_eq {y : Nat} (hy : 1970 ≤ y) :
    daysBeforeYear y + 719162 = 365 * (y - 1) + (y - 1) / 4 - (y - 1) / 100 + (y - 1) / 400 := by
  induction y, hy using Nat.le_induction with
  | base => decide
  | succ y hy ih =>
    rw [daysBeforeYear_succ hy, yearDays]
    by_cases hleap : isLeap y = true
    · have h := isLeap_iff.mp hleap
      rw [if_pos hleap]
      omega
    · have h : ¬ (y % 4 = 0 ∧ (y % 100 ≠ 0 ∨ y % 400 = 0)) := fun hy => hleap (isLeap_iff.mpr hy)
      rw [if_neg hleap]
      omega

theorem daysBeforeMonth_eq (y : Nat) {m : Nat} (hm : 1 ≤ m) (hm' : m ≤ 12) :
    daysBeforeMonth y m = ([0, 31, 59, 90, 120, 151, 181, 212, 243, 273, 304, 334][m - 1]?.getD 0) +
      if 2 < m ∧ isLeap y = true then 1 else 0 := by
  have hsum : ∀ m, daysBeforeMonth y m = ∑ k ∈ Finset.Ico 1 m, monthDays y k := fun _ => rfl
  rw [hsum]
  by_cases hleap : isLeap y = true <;> interval_cases m <;>
    simp [Finset.sum_Ico_eq_sum_range, Finset.sum_range_succ, monthDays, hleap]

theorem daysBeforeMonth_end (y : Nat) : daysBeforeMonth y 13 = yearDays y := by
  rw [daysBeforeMonth_succ y (by omega), daysBeforeMonth_eq y (by omega) (by omega), monthDays, yearDays]
  by_cases hleap : isLeap y = true <;> simp [hleap]

/-! ## The date of a day -/

/-- Take whole years off `n` days, from the year `y` on. -/
def splitYears : Nat → Nat → Nat → Nat × Nat
  | 0, y, n => (y, n)
  | fuel + 1, y, n => if n < yearDays y then (y, n) else splitYears fuel (y + 1) (n - yearDays y)

/-- Take whole months off `n` days of the year `y`, from the month `m` on. -/
def splitMonths (y : Nat) : Nat → Nat → Nat → Nat × Nat
  | 0, m, n => (m, n)
  | fuel + 1, m, n => if n < monthDays y m then (m, n) else splitMonths y fuel (m + 1) (n - monthDays y m)

/-- Year, month and day of a day number. -/
def dateOf (n : Nat) : Nat × Nat × Nat :=
  let (y, r) := splitYears n 1970 n
  let (m, r) := splitMonths y 11 1 r
  (y, m, r + 1)

theorem splitYears_spec {fuel y n : Nat} (hfuel : n ≤ fuel) (hy : 1970 ≤ y) :
    1970 ≤ (splitYears fuel y n).1 ∧ (splitYears fuel y n).2 < yearDays (splitYears fuel y n).1 ∧
      daysBeforeYear (splitYears fuel y n).1 + (splitYears fuel y n).2 = daysBeforeYear y + n := by
  induction fuel generalizing y n with
  | zero =>
    have hpos := yearDays_pos y
    refine ⟨hy, ?_, rfl⟩
    show n < yearDays y
    omega
  | succ fuel ih =>
    unfold splitYears
    by_cases hn : n < yearDays y
    · rw [if_pos hn]
      exact ⟨hy, hn, rfl⟩
    · have hpos := yearDays_pos y
      obtain ⟨h1, h2, h3⟩ := ih (n := n - yearDays y) (y := y + 1) (by omega) (by omega)
      rw [if_neg hn]
      refine ⟨h1, h2, ?_⟩
      rw [h3, daysBeforeYear_succ hy]
      omega

theorem splitMonths_spec {y fuel m n : Nat} (hm : 1 ≤ m) (hfuel : m + fuel = 12)
    (hn : daysBeforeMonth y m + n < yearDays y) :
    (1 ≤ (splitMonths y fuel m n).1 ∧ (splitMonths y fuel m n).1 ≤ 12) ∧
      (splitMonths y fuel m n).2 < monthDays y (splitMonths y fuel m n).1 ∧
      daysBeforeMonth y (splitMonths y fuel m n).1 + (splitMonths y fuel m n).2 = daysBeforeMonth y m + n := by
  induction fuel generalizing m n with
  | zero =>
    -- December is what is left of the year
    obtain rfl : m = 12 := by omega
    have hend := daysBeforeMonth_end y
    rw [daysBeforeMonth_succ y hm] at hend
    refine ⟨⟨hm, le_refl 12⟩, ?_, rfl⟩
    show n < monthDays y 12
    omega
  | succ fuel ih =>
    unfold splitMonths
    by_cases hlt : n < monthDays y m
    · rw [if_pos hlt]
      exact ⟨⟨hm, by omega⟩, hlt, rfl⟩
    · have hsucc := daysBeforeMonth_succ y hm
      obtain ⟨h1, h2, h3⟩ := ih (n := n - monthDays y m) (m := m + 1) (by omega) (by omega) (by omega)
      rw [if_neg hlt]
      refine ⟨h1, h2, ?_⟩
      rw [h3, hsucc]
      omega

/-- **The date of a day exists and has that number.** -/
theorem dateOf_spec (n : Nat) :
    Valid (dateOf n).1 (dateOf n).2.1 (dateOf n).2.2 ∧ dayCount (dateOf n).1 (dateOf n).2.1 (dateOf n).2.2 = n := by
  obtain ⟨hy, hr, hyears⟩ := splitYears_spec (le_refl n) (le_refl 1970)
  have hzero : daysBeforeYear 1970 = 0 := rfl
  have hone : ∀ y, daysBeforeMonth y 1 = 0 := fun _ => rfl
  obtain ⟨hm, hd, hmonths⟩ := splitMonths_spec (y := (splitYears n 1970 n).1) (le_refl 1) (rfl : 1 + 11 = 12)
    (n := (splitYears n 1970 n).2) (by rw [hone]; omega)
  rw [hone, Nat.zero_add] at hmonths
  refine ⟨⟨hy, hm, Nat.succ_pos _, hd⟩, ?_⟩
  show daysBeforeYear (splitYears n 1970 n).1 +
    daysBeforeMonth (splitYears n 1970 n).1 (splitMonths (splitYears n 1970 n).1 11 1 (splitYears n 1970 n).2).1 +
    (splitMonths (splitYears n 1970 n).1 11 1 (splitYears n 1970 n).2).2 = n
  omega

theorem dateOf_year_lt {n y : Nat} (h : n < daysBeforeYear y) : (dateOf n).1 < y := by
  obtain ⟨-, hcount⟩ := dateOf_spec n
  by_contra hge
  have hmono : daysBeforeYear y ≤ daysBeforeYear (dateOf n).1 :=
    Finset.sum_le_sum_of_subset (Finset.Ico_subset_Ico (le_refl _) (Nat.le_of_not_lt hge))
  rw [dayCount] at hcount
  omega

end Calendar

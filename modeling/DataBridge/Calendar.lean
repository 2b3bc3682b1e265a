import Mathlib.Algebra.BigOperators.Intervals
import Mathlib.Algebra.Order.BigOperators.Group.Finset
import Mathlib.Tactic.Common

/-!
# The Gregorian calendar

A day number counts days from the first of January of the year 1, as the ordinals of
Python's `date` do, from zero. `locate` finds the unit, a year or a month, that a day
falls into; later days fall into later units, or later into the same one
(`locate_lt_iff`).
-/

namespace Calendar

/-! ## Units of varying width -/

/-- The unit that holds `rest`, and the place in it; the units from `unit` on have the
widths `width`. -/
def locate (width : Nat → Nat) : (fuel : Nat) → (unit : Nat) → (rest : Nat) → Nat × Nat
  | 0, unit, rest => (unit, rest)
  | fuel + 1, unit, rest =>
    if rest < width unit then (unit, rest) else locate width fuel (unit + 1) (rest - width unit)

section Locate

variable {width : Nat → Nat}

/-- The start of a unit. -/
def before (width : Nat → Nat) (first unit : Nat) : Nat := ∑ k ∈ Finset.Ico first unit, width k

theorem before_succ {first unit : Nat} (h : first ≤ unit) :
    before width first (unit + 1) = before width first unit + width unit :=
  Finset.sum_Ico_succ_top h width

theorem before_mono {first unit later : Nat} (h : unit ≤ later) :
    before width first unit ≤ before width first later :=
  Finset.sum_le_sum_of_subset (Finset.Ico_subset_Ico_right h)

/-- `locate` splits a place at the start of its unit. -/
theorem locate_spec {fuel unit rest : Nat} (fits : rest < before width unit (unit + fuel + 1)) :
    unit ≤ (locate width fuel unit rest).1 ∧ (locate width fuel unit rest).1 ≤ unit + fuel ∧
      (locate width fuel unit rest).2 < width (locate width fuel unit rest).1 ∧
      rest = before width unit (locate width fuel unit rest).1 + (locate width fuel unit rest).2 := by
  induction fuel generalizing unit rest with
  | zero =>
    rw [Nat.add_zero, before_succ (le_refl unit)] at fits
    simp only [before, Finset.Ico_self, Finset.sum_empty, Nat.zero_add] at fits
    simp [locate, before, fits]
  | succ fuel ih =>
    rw [locate]
    split
    · rename_i inside
      simp [before, inside]
    · rename_i beyond
      have first : before width unit (unit + (fuel + 1) + 1) =
          width unit + before width (unit + 1) (unit + 1 + fuel + 1) := by
        rw [show unit + (fuel + 1) + 1 = unit + 1 + fuel + 1 by omega]
        exact Finset.sum_eq_sum_Ico_succ_bot (by omega) width
      obtain ⟨low, high, inside, split⟩ :=
        ih (show rest - width unit < before width (unit + 1) (unit + 1 + fuel + 1) by omega)
      refine ⟨by omega, by omega, inside, ?_⟩
      have start : before width unit (locate width fuel (unit + 1) (rest - width unit)).1 =
          width unit + before width (unit + 1)
            (locate width fuel (unit + 1) (rest - width unit)).1 :=
        Finset.sum_eq_sum_Ico_succ_bot (by omega) width
      omega

/-- Places are ordered by their units, and inside a unit. -/
theorem lt_iff_of_split {first u u' r r' i j : Nat} (low : first ≤ u) (low' : first ≤ u')
    (inside : r < width u) (inside' : r' < width u') (hi : i = before width first u + r)
    (hj : j = before width first u' + r') : i < j ↔ u < u' ∨ (u = u' ∧ r < r') := by
  rcases Nat.lt_trichotomy u u' with earlier | rfl | later
  · have start : before width first (u + 1) ≤ before width first u' := before_mono earlier
    rw [before_succ low] at start
    omega
  · omega
  · have start : before width first (u' + 1) ≤ before width first u := before_mono later
    rw [before_succ low'] at start
    omega

end Locate

/-! ## Years and months -/

def isLeap (year : Nat) : Bool := year % 4 = 0 && (year % 100 ≠ 0 || year % 400 = 0)

def daysInYear (year : Nat) : Nat := if isLeap year then 366 else 365

def daysInMonth (year month : Nat) : Nat :=
  if month = 2 then if isLeap year then 29 else 28
  else if month = 4 ∨ month = 6 ∨ month = 9 ∨ month = 11 then 30
  else 31

theorem before_year (year : Nat) :
    before daysInYear 1 (year + 1) = 365 * year + year / 4 - year / 100 + year / 400 := by
  induction year with
  | zero => rfl
  | succ year ih =>
    rw [before_succ (by omega), ih]
    unfold daysInYear isLeap
    split
    · rename_i leap
      simp only [Bool.and_eq_true, Bool.or_eq_true, decide_eq_true_eq] at leap
      omega
    · rename_i common
      simp only [Bool.and_eq_true, Bool.or_eq_true, decide_eq_true_eq] at common
      omega

theorem before_month (year : Nat) : before (daysInMonth year) 1 13 = daysInYear year := by
  unfold before daysInYear daysInMonth
  cases isLeap year <;> rfl

/-- The year of a day, and the day in the year. -/
def yearOf (day : Nat) : Nat × Nat := locate daysInYear day 1 day

/-- The month of a day of a year, and the day in the month. -/
def monthOf (year day : Nat) : Nat × Nat := locate (daysInMonth year) 11 1 day

theorem yearOf_spec (day : Nat) : 1 ≤ (yearOf day).1 ∧ (yearOf day).2 < daysInYear (yearOf day).1 ∧
    day = before daysInYear 1 (yearOf day).1 + (yearOf day).2 := by
  have fits : day < before daysInYear 1 (1 + day + 1) := by
    rw [before_year]
    omega
  obtain ⟨low, -, inside, split⟩ := locate_spec fits
  exact ⟨low, inside, split⟩

theorem yearOf_lt_iff (day day' : Nat) : day < day' ↔ (yearOf day).1 < (yearOf day').1 ∨
    ((yearOf day).1 = (yearOf day').1 ∧ (yearOf day).2 < (yearOf day').2) := by
  obtain ⟨low, inside, split⟩ := yearOf_spec day
  obtain ⟨low', inside', split'⟩ := yearOf_spec day'
  exact lt_iff_of_split low low' inside inside' split split'

/-- The years of Python's `date` end with 9999. -/
theorem yearOf_le {day : Nat} (h : day < 3652059) : (yearOf day).1 ≤ 9999 := by
  obtain ⟨-, -, split⟩ := yearOf_spec day
  by_contra later
  have start : before daysInYear 1 (9999 + 1) ≤ before daysInYear 1 (yearOf day).1 :=
    before_mono (by omega)
  rw [before_year] at start
  omega

theorem monthOf_spec {year day : Nat} (h : day < daysInYear year) :
    1 ≤ (monthOf year day).1 ∧ (monthOf year day).1 ≤ 12 ∧
      (monthOf year day).2 < daysInMonth year (monthOf year day).1 ∧
      day = before (daysInMonth year) 1 (monthOf year day).1 + (monthOf year day).2 := by
  have fits : day < before (daysInMonth year) 1 (1 + 11 + 1) := by
    rw [before_month]
    exact h
  exact locate_spec fits

theorem monthOf_lt_iff {year day day' : Nat} (h : day < daysInYear year)
    (h' : day' < daysInYear year) : day < day' ↔ (monthOf year day).1 < (monthOf year day').1 ∨
      ((monthOf year day).1 = (monthOf year day').1 ∧ (monthOf year day).2 < (monthOf year day').2) := by
  obtain ⟨low, -, inside, split⟩ := monthOf_spec h
  obtain ⟨low', -, inside', split'⟩ := monthOf_spec h'
  exact lt_iff_of_split low low' inside inside' split split'

theorem daysInMonth_le (year month : Nat) : daysInMonth year month ≤ 31 := by
  unfold daysInMonth
  split
  · split <;> omega
  · split <;> omega

end Calendar

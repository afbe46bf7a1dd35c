/-
**The proleptic Gregorian calendar.**

Days are counted from 1970-01-01. `yearOf day` guesses the year from the mean length of a year and
corrects the guess by one; `yearOf_spec` says that it is the year the day lies in.

* `Date.ofDay`, `Date.toDay` — the civil date of a day and back (`Date.toDay_ofDay`).
-/

import Mathlib.Tactic.Common
import Mathlib.Tactic.Linarith

namespace Calendar

/-- Leap years. -/
def isLeap (year : Int) : Bool :=
  year % 4 == 0 && (year % 100 != 0 || year % 400 == 0)

/-- The number of days from 0001-01-01 to the first day of a year. -/
def daysBeforeYear (year : Int) : Int :=
  365 * (year - 1) + (year - 1) / 4 - (year - 1) / 100 + (year - 1) / 400

/-- The number of days from 0001-01-01 to 1970-01-01. -/
def unixDay : Int := 719162

theorem daysBeforeYear_succ (year : Int) :
    daysBeforeYear (year + 1) = daysBeforeYear year + if isLeap year then 366 else 365 := by
  unfold daysBeforeYear isLeap
  by_cases four : year % 4 = 0
  · by_cases hundred : year % 100 = 0
    · by_cases cycle : year % 400 = 0
      · simp only [four, hundred, cycle, beq_self_eq_true, bne_self_eq_false, Bool.or_true,
          Bool.and_true, if_true]
        omega
      · simp only [four, hundred, beq_self_eq_true, bne_self_eq_false, Bool.false_or, Bool.true_and,
          beq_iff_eq, cycle, if_false]
        omega
    · have nonzero : (year % 100 != 0) = true := by simpa using hundred
      simp only [four, nonzero, beq_self_eq_true, Bool.true_or, Bool.and_true, if_true]
      omega
  · have nonzero : (year % 4 == 0) = false := by simpa using four
    simp only [nonzero, Bool.false_and, Bool.false_eq_true, if_false]
    omega

/-- The year a day lies in. -/
def yearOf (day : Int) : Int :=
  let days := day + unixDay
  let guess := 400 * days / 146097 + 1
  if days < daysBeforeYear guess then guess - 1
  else if daysBeforeYear (guess + 1) ≤ days then guess + 1
  else guess

theorem yearOf_spec (day : Int) :
    daysBeforeYear (yearOf day) ≤ day + unixDay ∧
      day + unixDay < daysBeforeYear (yearOf day + 1) := by
  unfold yearOf
  generalize day + unixDay = days
  simp only
  split
  · unfold daysBeforeYear at *
    omega
  · split
    · unfold daysBeforeYear at *
      omega
    · unfold daysBeforeYear at *
      omega

/-! ### Months -/

/-- The lengths of the months. -/
def monthLengths (leap : Bool) : List Int :=
  [31, if leap then 29 else 28, 31, 30, 31, 30, 31, 31, 30, 31, 30, 31]

/-- Walk through the months from number `month`: the month and the day of the month of the `n`-th
day from there. -/
def walkMonths : List Int → Nat → Int → Nat × Int
  | [], month, n => (month, n + 1)
  | length :: lengths, month, n =>
      if n < length then (month, n + 1) else walkMonths lengths (month + 1) (n - length)

/-- The days before a month, counted from month number `month`. -/
def daysBeforeMonth : List Int → Nat → Nat → Int
  | [], _, _ => 0
  | length :: lengths, month, target =>
      if target ≤ month then 0 else length + daysBeforeMonth lengths (month + 1) target

theorem le_walkMonths (lengths : List Int) (month : Nat) (n : Int) :
    month ≤ (walkMonths lengths month n).1 := by
  induction lengths generalizing month n with
  | nil => exact le_rfl
  | cons length lengths ih =>
      rw [walkMonths]
      split
      · exact le_rfl
      · exact le_trans (Nat.le_succ month) (ih (month + 1) (n - length))

/-- The days before the month and the day of the month give the day back. -/
theorem daysBeforeMonth_walkMonths (lengths : List Int) (month : Nat) (n : Int) :
    daysBeforeMonth lengths month (walkMonths lengths month n).1 +
      (walkMonths lengths month n).2 = n + 1 := by
  induction lengths generalizing month n with
  | nil => simp [walkMonths, daysBeforeMonth]
  | cons length lengths ih =>
      rw [walkMonths]
      split
      · simp [daysBeforeMonth]
      · have later := le_walkMonths lengths (month + 1) (n - length)
        have rest := ih (month + 1) (n - length)
        rw [daysBeforeMonth, if_neg (by omega)]
        omega

theorem walkMonths_bounds (lengths : List Int) (short : ∀ length ∈ lengths, length ≤ 31)
    (month : Nat) (n : Int) (first : 0 ≤ n) (inside : n < lengths.sum) :
    (walkMonths lengths month n).1 < month + lengths.length ∧
      1 ≤ (walkMonths lengths month n).2 ∧ (walkMonths lengths month n).2 ≤ 31 := by
  induction lengths generalizing month n with
  | nil =>
      rw [List.sum_nil] at inside
      omega
  | cons length lengths ih =>
      have here := short length List.mem_cons_self
      rw [walkMonths, List.length_cons]
      split
      · show month < month + (lengths.length + 1) ∧ 1 ≤ n + 1 ∧ n + 1 ≤ 31
        omega
      · rw [List.sum_cons] at inside
        have rest := ih (fun other member => short other (List.mem_cons_of_mem _ member))
          (month + 1) (n - length) (by omega) (by omega)
        exact ⟨by omega, rest.2⟩

/-! ### Dates -/

/-- A civil date. -/
structure Date where
  year : Int
  month : Nat
  dayOfMonth : Int
  deriving DecidableEq, Repr

/-- The civil date of a day. -/
def Date.ofDay (day : Int) : Date :=
  let year := yearOf day
  let walked := walkMonths (monthLengths (isLeap year)) 1 (day + unixDay - daysBeforeYear year)
  ⟨year, walked.1, walked.2⟩

/-- The day of a civil date. -/
def Date.toDay (date : Date) : Int :=
  daysBeforeYear date.year + daysBeforeMonth (monthLengths (isLeap date.year)) 1 date.month +
    date.dayOfMonth - 1 - unixDay

/-- **A day is given back by its date.** -/
theorem Date.toDay_ofDay (day : Int) : (Date.ofDay day).toDay = day := by
  have walked := daysBeforeMonth_walkMonths (monthLengths (isLeap (yearOf day))) 1
    (day + unixDay - daysBeforeYear (yearOf day))
  simp only [Date.ofDay, Date.toDay]
  omega

/-- Months are 1 to 12, days of the month 1 to 31. -/
theorem Date.ofDay_bounds (day : Int) :
    (Date.ofDay day).month < 13 ∧ 1 ≤ (Date.ofDay day).dayOfMonth ∧
      (Date.ofDay day).dayOfMonth ≤ 31 := by
  have year := yearOf_spec day
  rw [daysBeforeYear_succ] at year
  refine walkMonths_bounds _ ?_ 1 _ (by omega) ?_
  · cases isLeap (yearOf day) <;> decide
  · cases leap : isLeap (yearOf day) with
    | false =>
        rw [leap] at year
        have total : (monthLengths false).sum = 365 := by decide
        rw [total]
        simp only [Bool.false_eq_true, if_false] at year
        omega
    | true =>
        rw [leap] at year
        have total : (monthLengths true).sum = 366 := by decide
        rw [total]
        simp only [if_true] at year
        omega

/-- The last day of February, and the day after it. -/
example : Date.ofDay 19782 = ⟨2024, 2, 29⟩ ∧ Date.ofDay 19783 = ⟨2024, 3, 1⟩ := by decide

end Calendar

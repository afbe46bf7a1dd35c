/-
**Civil dates and their texts.**

* `Date.ofDay_toDay` — a valid date is given back by its day.
* `Date.parse` — a text `2006-01-02` is read as the date it is the text of (`parse_iff`).
-/

import Mathlib.Algebra.Order.BigOperators.Group.List
import Wuflow.Calendar.Rfc3339
import Wuflow.Codec.Join

namespace Calendar

/-! ### Valid dates -/

/-- The length of a month; nothing for a number that no month has. -/
def monthLength (year : Int) (month : Nat) : Int := ((monthLengths (isLeap year))[month - 1]?).getD 0

/-- A day of the calendar. -/
structure Date.Valid (date : Date) : Prop where
  month : 1 ≤ date.month
  first : 1 ≤ date.dayOfMonth
  last : date.dayOfMonth ≤ monthLength date.year date.month

/-- The date has a year of four digits. -/
def Date.Written (date : Date) : Prop := 0 ≤ date.year ∧ date.year ≤ 9999

theorem walkMonths_daysBeforeMonth {lengths : List Int} (positive : ∀ length ∈ lengths, 0 ≤ length)
    {month target : Nat} (later : month ≤ target) {n : Int} (first : 0 ≤ n)
    (last : n < (lengths[target - month]?).getD 0) :
    walkMonths lengths month (daysBeforeMonth lengths month target + n) = (target, n + 1) ∧
      daysBeforeMonth lengths month target + n < lengths.sum ∧ 0 ≤ daysBeforeMonth lengths month target := by
  induction lengths generalizing month with
  | nil => exact absurd last (by simpa using first)
  | cons length lengths ih =>
      have here := positive length List.mem_cons_self
      have rest := fun other member => positive other (List.mem_cons_of_mem length member)
      have sum : 0 ≤ lengths.sum := List.sum_nonneg rest
      rw [daysBeforeMonth, walkMonths, List.sum_cons]
      rcases Nat.eq_or_lt_of_le later with rfl | (later : month + 1 ≤ target)
      · have inside : n < length := by simpa using last
        rw [if_pos (Nat.le_refl _), if_pos (by omega)]
        refine ⟨?_, by omega, by omega⟩
        rw [Int.zero_add]
      · have step : target - month = target - (month + 1) + 1 := by omega
        rw [step, List.getElem?_cons_succ] at last
        obtain ⟨walked, bound, start⟩ := ih rest later last
        rw [if_neg (by omega), if_neg (by omega)]
        have shifted : length + daysBeforeMonth lengths (month + 1) target + n - length =
            daysBeforeMonth lengths (month + 1) target + n := by omega
        rw [shifted]
        exact ⟨walked, by omega, by omega⟩

theorem sum_monthLengths (leap : Bool) : (monthLengths leap).sum = if leap then 366 else 365 := by
  cases leap <;> rfl

theorem daysBeforeYear_mono {y z : Int} (le : y ≤ z) : daysBeforeYear y ≤ daysBeforeYear z := by
  unfold daysBeforeYear
  omega

/-- The year is determined by the days it begins and ends with. -/
theorem yearOf_eq {day year : Int} (first : daysBeforeYear year ≤ day + unixDay)
    (last : day + unixDay < daysBeforeYear (year + 1)) : yearOf day = year := by
  have spec := yearOf_spec day
  rcases Int.lt_trichotomy (yearOf day) year with less | same | more
  · have := daysBeforeYear_mono (show yearOf day + 1 ≤ year by omega)
    omega
  · exact same
  · have := daysBeforeYear_mono (show year + 1 ≤ yearOf day by omega)
    omega

/-- **A valid date is given back by its day.** -/
theorem Date.ofDay_toDay {date : Date} (valid : date.Valid) : Date.ofDay date.toDay = date := by
  have positive : ∀ length ∈ monthLengths (isLeap date.year), 0 ≤ length := by
    cases isLeap date.year <;> decide
  have last := valid.last
  obtain ⟨walked, bound, start⟩ := walkMonths_daysBeforeMonth positive valid.month
    (n := date.dayOfMonth - 1) (by have := valid.first; omega) (by unfold monthLength at last; omega)
  have first := valid.first
  have next := daysBeforeYear_succ date.year
  rw [sum_monthLengths] at bound
  have year : yearOf date.toDay = date.year := by
    refine yearOf_eq ?_ ?_
    · unfold Date.toDay
      omega
    · rw [next]
      unfold Date.toDay
      omega
  have offset : date.toDay + unixDay - daysBeforeYear date.year =
      daysBeforeMonth (monthLengths (isLeap date.year)) 1 date.month + (date.dayOfMonth - 1) := by
    unfold Date.toDay
    omega
  unfold Date.ofDay
  simp only [year, offset, walked]
  rw [Int.sub_add_cancel]

theorem Date.toDay_inj {date other : Date} (valid : date.Valid) (valid' : other.Valid)
    (same : date.toDay = other.toDay) : date = other := by
  rw [← Date.ofDay_toDay valid, same, Date.ofDay_toDay valid']

instance (date : Date) : Decidable date.Valid :=
  decidable_of_iff
    (1 ≤ date.month ∧ 1 ≤ date.dayOfMonth ∧ date.dayOfMonth ≤ monthLength date.year date.month)
    ⟨fun valid => ⟨valid.1, valid.2.1, valid.2.2⟩, fun valid => ⟨valid.month, valid.first, valid.last⟩⟩

instance (date : Date) : Decidable date.Written := inferInstanceAs (Decidable (_ ∧ _))

/-! ### Numbers of a fixed width -/

theorem ofDigitChars_lt {digits : List Char} (decimal : digits.all Char.isDigit = true) :
    Nat.ofDigitChars 10 digits 0 < 10 ^ digits.length := by
  induction digits using List.reverseRecOn with
  | nil => decide
  | append_singleton digits c ih =>
      rw [List.all_append, Bool.and_eq_true] at decimal
      obtain ⟨d, small, rfl, _⟩ := Join.digitChar_of_isDigit (by simpa using decimal.2)
      have rest := ih decimal.1
      rw [Nat.ofDigitChars_append, Nat.ofDigitChars_cons_digitChar_of_lt_ten small, Nat.ofDigitChars_nil,
        List.length_append, List.length_singleton, Nat.pow_succ]
      omega

/-- Digits are determined by their number and their value. -/
theorem digits_inj {digits other : List Char} (decimal : digits.all Char.isDigit = true)
    (decimal' : other.all Char.isDigit = true) (length : digits.length = other.length)
    (value : Nat.ofDigitChars 10 digits 0 = Nat.ofDigitChars 10 other 0) : digits = other := by
  induction digits using List.reverseRecOn generalizing other with
  | nil => exact (List.length_eq_zero_iff.mp length.symm).symm
  | append_singleton digits c ih =>
      rcases List.eq_nil_or_concat' other with rfl | ⟨other, c', rfl⟩
      · exact absurd length (by simp)
      rw [List.all_append, Bool.and_eq_true] at decimal decimal'
      obtain ⟨d, small, rfl, _⟩ := Join.digitChar_of_isDigit (by simpa using decimal.2)
      obtain ⟨d', small', rfl, _⟩ := Join.digitChar_of_isDigit (by simpa using decimal'.2)
      rw [Nat.ofDigitChars_append, Nat.ofDigitChars_cons_digitChar_of_lt_ten small, Nat.ofDigitChars_nil,
        Nat.ofDigitChars_append, Nat.ofDigitChars_cons_digitChar_of_lt_ten small', Nat.ofDigitChars_nil]
          at value
      rw [List.length_append, List.length_append] at length
      rw [ih decimal.1 decimal'.1 (by simpa using length) (by omega), show d = d' by omega]

theorem padded_ofDigitChars {width : Nat} (positive : 0 < width) {digits : List Char}
    (decimal : digits.all Char.isDigit = true) (length : digits.length = width) :
    padded width (Nat.ofDigitChars 10 digits 0) = digits := by
  have small := ofDigitChars_lt decimal
  rw [length] at small
  refine digits_inj (List.all_eq_true.mpr fun c => isDigit_of_mem_padded) decimal ?_
    (ofDigitChars_padded width _)
  rw [length_padded positive small, length]

/-! ### Texts -/

/-- Read `2006-01-02`. -/
def Date.parse : List Char → Option Date
  | [y1, y2, y3, y4, '-', m1, m2, '-', d1, d2] =>
      let date : Date := ⟨Nat.ofDigitChars 10 [y1, y2, y3, y4] 0, Nat.ofDigitChars 10 [m1, m2] 0,
        Nat.ofDigitChars 10 [d1, d2] 0⟩
      if [y1, y2, y3, y4, m1, m2, d1, d2].all Char.isDigit = true ∧ date.Valid then some date else none
  | _ => none

/-- The text of a date whose year has four digits. -/
theorem Date.text_written {date : Date} (written : date.Written) :
    date.text = padded 4 date.year.toNat ++
      '-' :: (padded 2 date.month ++ '-' :: padded 2 date.dayOfMonth.toNat) := by
  have year : yearText date.year = padded 4 date.year.toNat := by
    have := written.1
    unfold yearText
    rw [if_neg (by omega), show date.year.natAbs = date.year.toNat by omega]
  unfold Date.text twoDigits
  rw [year, Int.toNat_natCast]

/-- A date whose fields have been read. -/
theorem Date.text_read {date : Date} {year month day : List Char}
    (decimal : (year ++ (month ++ day)).all Char.isDigit = true)
    (lengths : year.length = 4 ∧ month.length = 2 ∧ day.length = 2)
    (fields : date = ⟨Nat.ofDigitChars 10 year 0, Nat.ofDigitChars 10 month 0, Nat.ofDigitChars 10 day 0⟩) :
    date.Written ∧ date.text = year ++ '-' :: (month ++ '-' :: day) := by
  rw [List.all_append, List.all_append, Bool.and_eq_true, Bool.and_eq_true] at decimal
  obtain ⟨decimalYear, decimalMonth, decimalDay⟩ := decimal
  have small := ofDigitChars_lt decimalYear
  rw [lengths.1] at small
  have written : date.Written := by
    rw [fields]
    exact ⟨by simp, by simp; omega⟩
  refine ⟨written, ?_⟩
  rw [Date.text_written written, fields]
  simp only [Int.toNat_natCast]
  rw [padded_ofDigitChars (by decide) decimalYear lengths.1,
    padded_ofDigitChars (by decide) decimalMonth lengths.2.1,
    padded_ofDigitChars (by decide) decimalDay lengths.2.2]

/-- Fields of their widths are read. -/
theorem Date.parse_append {year month day : List Char}
    (lengths : year.length = 4 ∧ month.length = 2 ∧ day.length = 2) :
    Date.parse (year ++ '-' :: (month ++ '-' :: day)) =
      if (year ++ (month ++ day)).all Char.isDigit = true ∧ Date.Valid ⟨Nat.ofDigitChars 10 year 0,
          Nat.ofDigitChars 10 month 0, Nat.ofDigitChars 10 day 0⟩ then
        some ⟨Nat.ofDigitChars 10 year 0, Nat.ofDigitChars 10 month 0, Nat.ofDigitChars 10 day 0⟩
      else none := by
  obtain ⟨four, two, two'⟩ := lengths
  match year, month, day, four, two, two' with
  | [_, _, _, _], [_, _], [_, _], _, _, _ => rfl

/-- **What is read is what has the text.** -/
theorem Date.parse_iff {text : List Char} {date : Date} :
    Date.parse text = some date ↔ date.Valid ∧ date.Written ∧ text = date.text := by
  constructor
  · intro read
    unfold Date.parse at read
    split at read
    next y1 y2 y3 y4 m1 m2 d1 d2 =>
      dsimp only at read
      split at read
      next valid =>
        have fields := Option.some.inj read
        obtain ⟨written, same⟩ := @Date.text_read date [y1, y2, y3, y4] [m1, m2] [d1, d2]
          valid.1 ⟨rfl, rfl, rfl⟩ fields.symm
        exact ⟨fields ▸ valid.2, written, same.symm⟩
      next => exact nomatch read
    next => exact nomatch read
  · rintro ⟨valid, written, rfl⟩
    have first := valid.first
    have bounds := Date.ofDay_bounds date.toDay
    rw [Date.ofDay_toDay valid] at bounds
    unfold Date.Written at written
    have lengths : (padded 4 date.year.toNat).length = 4 ∧ (padded 2 date.month).length = 2 ∧
        (padded 2 date.dayOfMonth.toNat).length = 2 :=
      ⟨length_padded (by decide) (by omega), length_padded (by decide) (by omega),
        length_padded (by decide) (by omega)⟩
    have decimal : (padded 4 date.year.toNat ++ (padded 2 date.month ++ padded 2 date.dayOfMonth.toNat)).all
        Char.isDigit = true := by
      rw [List.all_append, List.all_append, Bool.and_eq_true, Bool.and_eq_true]
      exact ⟨List.all_eq_true.mpr fun _ => isDigit_of_mem_padded,
        List.all_eq_true.mpr fun _ => isDigit_of_mem_padded,
        List.all_eq_true.mpr fun _ => isDigit_of_mem_padded⟩
    have fields : (⟨date.year.toNat, date.month, date.dayOfMonth.toNat⟩ : Date) = date := by
      rw [Int.toNat_of_nonneg written.1, Int.toNat_of_nonneg (by omega)]
    rw [Date.text_written written, Date.parse_append lengths]
    simp only [ofDigitChars_padded, fields]
    exact if_pos ⟨decimal, valid⟩

end Calendar

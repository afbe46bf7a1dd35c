/-
**RFC 3339 texts of instants, in UTC.**

An instant is a number of nanoseconds since 1970-01-01T00:00:00Z.

* `rfc3339` — to the second. `rfc3339Nano` — with the fraction of the second, trailing zeros removed
  and left out when it is zero.
* `rfc3339_injective` — two instants with the same text to the second are in the same second.
* **`rfc3339Nano_injective`** — two instants with the same nanosecond text are the same instant. Read
  from the left: the year ends at the first `-` after its sign, the other date and time fields have
  fixed width, and the fraction gives back its nine digits.
-/

import Wuflow.Calendar.Civil
import Wuflow.Codec.Join
import Mathlib.Data.List.Basic
import Mathlib.Data.List.DropRight

namespace Calendar

/-- Nanoseconds since 1970-01-01T00:00:00Z. -/
abbrev Instant := Int

def nanosPerSecond : Int := 1000000000

def nanosPerDay : Int := 86400000000000

/-! ### Fields of an instant -/

/-- A date and a time of day. -/
structure Fields where
  date : Date
  hour : Int
  minute : Int
  second : Int
  nano : Int
  deriving DecidableEq

def Fields.ofInstant (t : Instant) : Fields :=
  let nanos := t % nanosPerDay
  let seconds := nanos / nanosPerSecond
  ⟨Date.ofDay (t / nanosPerDay), seconds / 3600, seconds % 3600 / 60, seconds % 60,
    nanos % nanosPerSecond⟩

theorem seconds_of_fields (seconds : Int) :
    seconds = 3600 * (seconds / 3600) + 60 * (seconds % 3600 / 60) + seconds % 60 := by
  have minutes : seconds % 3600 % 60 = seconds % 60 :=
    Int.emod_emod_of_dvd seconds (by decide)
  omega

/-- **An instant is determined by its fields.** -/
theorem Fields.ofInstant_injective {t u : Instant}
    (same : Fields.ofInstant t = Fields.ofInstant u) : t = u := by
  simp only [Fields.ofInstant, Fields.mk.injEq] at same
  obtain ⟨date, hour, minute, second, nano⟩ := same
  have day : t / nanosPerDay = u / nanosPerDay := by
    rw [← Date.toDay_ofDay (t / nanosPerDay), date, Date.toDay_ofDay]
  have seconds : t % nanosPerDay / nanosPerSecond = u % nanosPerDay / nanosPerSecond := by
    rw [seconds_of_fields (t % nanosPerDay / nanosPerSecond), hour, minute, second,
      ← seconds_of_fields]
  have nanos : t % nanosPerDay = u % nanosPerDay := by
    rw [← Int.mul_ediv_add_emod (t % nanosPerDay) nanosPerSecond, seconds, nano,
      Int.mul_ediv_add_emod]
  rw [← Int.mul_ediv_add_emod t nanosPerDay, day, nanos, Int.mul_ediv_add_emod]

theorem Fields.ofInstant_bounds (t : Instant) :
    (0 ≤ (ofInstant t).hour ∧ (ofInstant t).hour < 100) ∧
      (0 ≤ (ofInstant t).minute ∧ (ofInstant t).minute < 100) ∧
      (0 ≤ (ofInstant t).second ∧ (ofInstant t).second < 100) ∧
      (0 ≤ (ofInstant t).nano ∧ (ofInstant t).nano < 1000000000) := by
  simp only [ofInstant, nanosPerDay, nanosPerSecond]
  omega

/-! ### Decimal texts -/

/-- At least `width` decimal digits. -/
def padded (width n : Nat) : List Char := (Nat.toDigits 10 n).leftpad width '0'

/-- Padding does not change the number. -/
theorem ofDigitChars_padded (width n : Nat) : Nat.ofDigitChars 10 (padded width n) 0 = n := by
  unfold padded List.leftpad
  rw [Nat.ofDigitChars_append, Nat.ofDigitChars_replicate_zero, Nat.mul_zero,
    Nat.ofDigitChars_toDigits (by decide) (by decide)]

theorem padded_injective {width m n : Nat} (same : padded width m = padded width n) : m = n := by
  rw [← ofDigitChars_padded width m, same, ofDigitChars_padded]

theorem length_padded {width n : Nat} (positive : 0 < width) (small : n < 10 ^ width) :
    (padded width n).length = width := by
  have := (Nat.length_toDigits_le_iff (b := 10) (by decide) positive).mpr small
  unfold padded
  rw [List.length_leftpad]
  omega

theorem isDigit_of_mem_padded {width n : Nat} {c : Char} (member : c ∈ padded width n) :
    c.isDigit = true := by
  unfold padded List.leftpad at member
  rcases List.mem_append.mp member with zero | digit
  · rw [List.eq_of_mem_replicate zero]
    rfl
  · exact Nat.isDigit_of_mem_toDigits (by decide) (by decide) digit

/-- A year: at least four digits after an optional sign. -/
def yearText (year : Int) : List Char :=
  if year < 0 then '-' :: padded 4 year.natAbs else padded 4 year.natAbs

/-- Two digits. -/
def twoDigits (n : Int) : List Char := padded 2 n.toNat

theorem length_twoDigits {n : Int} (small : n < 100) : (twoDigits n).length = 2 :=
  length_padded (by decide) (by omega)

theorem twoDigits_injective {m n : Int} (nonneg : 0 ≤ m) (nonneg' : 0 ≤ n)
    (same : twoDigits m = twoDigits n) : m = n := by
  have := padded_injective same
  omega

theorem minus_not_mem_padded (width n : Nat) : '-' ∉ padded width n :=
  fun member => absurd (isDigit_of_mem_padded member) (by decide)

/-- Digits do not begin with a sign. -/
theorem signed_ne_padded {m n : Nat} {rest rest' : List Char} :
    '-' :: padded 4 m ++ rest ≠ padded 4 n ++ '-' :: rest' := by
  intro same
  have nonempty : 0 < (padded 4 n).length := by
    unfold padded
    rw [List.length_leftpad]
    omega
  cases digits : padded 4 n with
  | nil => rw [digits] at nonempty; exact absurd nonempty (by decide)
  | cons c tail =>
      rw [digits, List.cons_append, List.cons_append] at same
      refine absurd ?_ (minus_not_mem_padded 4 n)
      rw [digits, (List.cons.inj same).1]
      exact List.mem_cons_self

/-- **A year is read off the front of a text** that continues with a `-`. -/
theorem yearText_append_injective {y z : Int} {rest rest' : List Char}
    (same : yearText y ++ '-' :: rest = yearText z ++ '-' :: rest') : y = z ∧ rest = rest' := by
  have unsigned : ∀ {m n : Nat}, padded 4 m ++ '-' :: rest = padded 4 n ++ '-' :: rest' →
      m = n ∧ rest = rest' := by
    intro m n equal
    obtain ⟨front, back⟩ :=
      Join.append_cons_inj (minus_not_mem_padded 4 m) (minus_not_mem_padded 4 n) equal
    exact ⟨padded_injective front, back⟩
  unfold yearText at same
  split at same
  · split at same
    · rw [List.cons_append, List.cons_append] at same
      obtain ⟨abs, rest⟩ := unsigned (List.cons.inj same).2
      exact ⟨by omega, rest⟩
    · exact absurd same signed_ne_padded
  · split at same
    · exact absurd same.symm signed_ne_padded
    · obtain ⟨abs, rest⟩ := unsigned same
      exact ⟨by omega, rest⟩

/-! ### The fraction of a second -/

/-- `.` and the nine digits without trailing zeros; nothing for a whole second. -/
def fractionText (nano : Int) : List Char :=
  match (padded 9 nano.toNat).rdropWhile (· == '0') with
  | [] => []
  | digit :: digits => '.' :: digit :: digits

/-- Digits of one length are determined by what is left without trailing zeros. -/
theorem rdropWhile_zero_injective {a b : List Char} (length : a.length = b.length)
    (same : a.rdropWhile (· == '0') = b.rdropWhile (· == '0')) : a = b := by
  have zeros : ∀ l : List Char, l.rtakeWhile (· == '0') =
      List.replicate (l.rtakeWhile (· == '0')).length '0' := fun l =>
    List.eq_replicate_iff.mpr ⟨rfl, fun c member => by simpa using List.mem_rtakeWhile_imp member⟩
  have first : a.rdropWhile (· == '0') ++ a.rtakeWhile (· == '0') = a :=
    List.rdropWhile_append_rtakeWhile
  have second : b.rdropWhile (· == '0') ++ b.rtakeWhile (· == '0') = b :=
    List.rdropWhile_append_rtakeWhile
  have counts : (a.rtakeWhile (· == '0')).length = (b.rtakeWhile (· == '0')).length := by
    have total := congrArg List.length first
    have total' := congrArg List.length second
    rw [List.length_append] at total total'
    rw [same] at total
    omega
  rw [← first, ← second, same, zeros a, zeros b, counts]

theorem fractionText_injective {m n : Int} (bounds : 0 ≤ m ∧ m < 1000000000)
    (bounds' : 0 ≤ n ∧ n < 1000000000) (same : fractionText m = fractionText n) : m = n := by
  have stripped : (padded 9 m.toNat).rdropWhile (· == '0') =
      (padded 9 n.toNat).rdropWhile (· == '0') := by
    unfold fractionText at same
    split at same <;> split at same
    · rename_i left _ right
      rw [left, right]
    · cases same
    · cases same
    · rename_i left _ _ _ right
      rw [left, right]
      exact (List.cons.inj same).2
  have lengths : ∀ k : Int, k < 1000000000 → (padded 9 k.toNat).length = 9 :=
    fun k small => length_padded (by decide) (by omega)
  have digits := rdropWhile_zero_injective
    (by rw [lengths m bounds.2, lengths n bounds'.2]) stripped
  have := padded_injective digits
  omega

/-! ### Dates and instants -/

/-- `2006-01-02`. -/
def Date.text (date : Date) : List Char :=
  yearText date.year ++ '-' :: (twoDigits date.month ++ '-' :: twoDigits date.dayOfMonth)

/-- `T15:04:05`. -/
def Fields.timeText (fields : Fields) : List Char :=
  'T' :: (twoDigits fields.hour ++ ':' :: (twoDigits fields.minute ++ ':' :: twoDigits fields.second))

def rfc3339 (t : Instant) : List Char :=
  (Fields.ofInstant t).date.text ++ ((Fields.ofInstant t).timeText ++ ['Z'])

def rfc3339Nano (t : Instant) : List Char :=
  (Fields.ofInstant t).date.text ++
    ((Fields.ofInstant t).timeText ++ (fractionText (Fields.ofInstant t).nano ++ ['Z']))

/-- Fields of one width are read off the front of a text. -/
theorem twoDigits_append_injective {m n : Int} {rest rest' : List Char}
    (bounds : 0 ≤ m ∧ m < 100) (bounds' : 0 ≤ n ∧ n < 100)
    (same : twoDigits m ++ rest = twoDigits n ++ rest') : m = n ∧ rest = rest' := by
  obtain ⟨digits, tail⟩ := List.append_inj same
    (by rw [length_twoDigits bounds.2, length_twoDigits bounds'.2])
  exact ⟨twoDigits_injective bounds.1 bounds'.1 digits, tail⟩

/-- **A date is read off the front of a text.** -/
theorem Date.text_append_injective {a b : Int} {rest rest' : List Char}
    (same : (Date.ofDay a).text ++ rest = (Date.ofDay b).text ++ rest') :
    Date.ofDay a = Date.ofDay b ∧ rest = rest' := by
  have bounds := Date.ofDay_bounds a
  have bounds' := Date.ofDay_bounds b
  unfold Date.text at same
  generalize Date.ofDay a = date at *
  generalize Date.ofDay b = date' at *
  simp only [List.append_assoc, List.cons_append] at same
  obtain ⟨year, same⟩ := yearText_append_injective same
  obtain ⟨month, same⟩ := twoDigits_append_injective (by omega) (by omega) same
  obtain ⟨day, left⟩ := twoDigits_append_injective (by omega) (by omega) (List.cons.inj same).2
  obtain ⟨_, _, _⟩ := date
  obtain ⟨_, _, _⟩ := date'
  simp only at year month day
  simp only [Date.mk.injEq]
  exact ⟨⟨year, by omega, day⟩, left⟩

/-- **A date and a time are read off the front of a text.** -/
theorem dateTime_append_injective {t u : Instant} {rest rest' : List Char}
    (same : (Fields.ofInstant t).date.text ++ ((Fields.ofInstant t).timeText ++ rest) =
      (Fields.ofInstant u).date.text ++ ((Fields.ofInstant u).timeText ++ rest')) :
    { Fields.ofInstant t with nano := 0 } = { Fields.ofInstant u with nano := 0 } ∧ rest = rest' := by
  obtain ⟨date, same⟩ := Date.text_append_injective same
  have dates : (Fields.ofInstant t).date = (Fields.ofInstant u).date := date
  have time := Fields.ofInstant_bounds t
  have time' := Fields.ofInstant_bounds u
  unfold Fields.timeText at same
  generalize Fields.ofInstant t = f at *
  generalize Fields.ofInstant u = g at *
  simp only [List.append_assoc, List.cons_append] at same
  obtain ⟨hour, same⟩ := twoDigits_append_injective (by omega) (by omega) (List.cons.inj same).2
  obtain ⟨minute, same⟩ := twoDigits_append_injective (by omega) (by omega) (List.cons.inj same).2
  obtain ⟨second, left⟩ := twoDigits_append_injective (by omega) (by omega) (List.cons.inj same).2
  obtain ⟨_, _, _, _, _⟩ := f
  obtain ⟨_, _, _, _, _⟩ := g
  simp only at dates hour minute second
  simp only [Fields.mk.injEq]
  exact ⟨⟨dates, hour, minute, second, trivial⟩, left⟩

/-- **The nanosecond text determines the instant.** -/
theorem rfc3339Nano_injective {t u : Instant} (same : rfc3339Nano t = rfc3339Nano u) : t = u := by
  obtain ⟨fields, fraction⟩ := dateTime_append_injective same
  have nano := fractionText_injective (Fields.ofInstant_bounds t).2.2.2 (Fields.ofInstant_bounds u).2.2.2
    (List.append_cancel_right fraction)
  refine Fields.ofInstant_injective ?_
  simp only [Fields.mk.injEq] at fields
  obtain ⟨date, hour, minute, second, _⟩ := fields
  generalize Fields.ofInstant t = f at *
  generalize Fields.ofInstant u = g at *
  obtain ⟨_, _, _, _, _⟩ := f
  obtain ⟨_, _, _, _, _⟩ := g
  simp only at date hour minute second nano
  simp only [Fields.mk.injEq]
  exact ⟨date, hour, minute, second, nano⟩

/-- **The text to the second determines the second.** -/
theorem rfc3339_injective {t u : Instant} (same : rfc3339 t = rfc3339 u) :
    t / nanosPerSecond = u / nanosPerSecond := by
  obtain ⟨fields, _⟩ := dateTime_append_injective same
  simp only [Fields.ofInstant, Fields.mk.injEq] at fields
  obtain ⟨date, hour, minute, second, _⟩ := fields
  have day : t / nanosPerDay = u / nanosPerDay := by
    rw [← Date.toDay_ofDay (t / nanosPerDay), date, Date.toDay_ofDay]
  have seconds : t % nanosPerDay / nanosPerSecond = u % nanosPerDay / nanosPerSecond := by
    rw [seconds_of_fields (t % nanosPerDay / nanosPerSecond), hour, minute, second,
      ← seconds_of_fields]
  have whole : ∀ x : Int, x / nanosPerSecond =
      x / nanosPerDay * 86400 + x % nanosPerDay / nanosPerSecond := by
    intro x
    unfold nanosPerSecond nanosPerDay
    omega
  rw [whole t, whole u, day, seconds]

/-- The characters of a text to the second. -/
theorem mem_rfc3339 {t : Instant} {c : Char} (member : c ∈ rfc3339 t) :
    c.isDigit = true ∨ c = '-' ∨ c = 'T' ∨ c = ':' ∨ c = 'Z' := by
  have digits : ∀ n, c ∈ twoDigits n → c.isDigit = true := fun n => isDigit_of_mem_padded
  have year : ∀ y, c ∈ yearText y → c.isDigit = true ∨ c = '-' := by
    intro y inside
    unfold yearText at inside
    split at inside
    · exact (List.mem_cons.mp inside).symm.imp_left isDigit_of_mem_padded
    · exact .inl (isDigit_of_mem_padded inside)
  unfold rfc3339 Date.text Fields.timeText at member
  simp only [List.mem_append, List.mem_cons, List.not_mem_nil, or_false] at member
  grind

example : String.ofList (rfc3339Nano 1709210096120000000) = "2024-02-29T12:34:56.12Z" := by decide

end Calendar

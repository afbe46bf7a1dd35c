/-
**Local time at a fixed offset from UTC.** Instants are milliseconds since 1970-01-01T00:00:00Z.

* `localDay_localTime` — the day of a local time. `localTime_lt_iff`, `localTime_le_iff` — local times are
  ordered as their days.
* `localDay_midnight` — on which local day the midnight of UTC falls. `utcDay_localTime` — on which day of
  UTC a local time falls.
* `isoDate_iff` — the date that the text of an instant begins with.
-/

import Wuflow.Calendar.Dates

namespace Calendar

def msPerDay : Int := 86400000

def msPerHour : Int := 3600000

/-- The day in UTC. -/
def utcDay (t : Int) : Int := t / msPerDay

/-- The instant of a day's beginning in UTC. -/
def utcMidnight (day : Int) : Int := day * msPerDay

section Offset

variable (offset : Int)

/-- The day at the offset. -/
def localDay (t : Int) : Int := (t + offset) / msPerDay

/-- The instant of a time of day at the offset. -/
def localTime (day ms : Int) : Int := day * msPerDay + ms - offset

/-- Another time of the same day. -/
def setTime (t : Int) (ms : Int) : Int := localTime offset (localDay offset t) ms

/-- The same time of day, some days later. -/
def addDays (t : Int) (days : Int) : Int :=
  localTime offset (localDay offset t + days) ((t + offset) % msPerDay)

/-- An offset of real time zones. -/
def IsOffset : Prop := -12 * msPerHour ≤ offset ∧ offset ≤ 14 * msPerHour

instance : Decidable (IsOffset offset) := inferInstanceAs (Decidable (_ ∧ _))

variable {offset}

/-- A time of day. -/
abbrev IsTime (ms : Int) : Prop := 0 ≤ ms ∧ ms < msPerDay

theorem localDay_localTime {day ms : Int} (time : IsTime ms) :
    localDay offset (localTime offset day ms) = day := by
  unfold localDay localTime
  unfold IsTime at time
  unfold msPerDay at *
  omega

theorem setTime_localTime {day ms ms' : Int} (time : IsTime ms) :
    setTime offset (localTime offset day ms) ms' = localTime offset day ms' := by
  unfold setTime
  rw [localDay_localTime time]

theorem addDays_localTime {day ms : Int} (time : IsTime ms) (days : Int) :
    addDays offset (localTime offset day ms) days = localTime offset (day + days) ms := by
  have same : (localTime offset day ms + offset) % msPerDay = ms := by
    unfold localTime
    unfold IsTime at time
    unfold msPerDay at *
    omega
  unfold addDays
  rw [localDay_localTime time, same]

/-- A time is before a day's beginning iff its day is earlier. -/
theorem localTime_lt_iff {day other ms : Int} (time : IsTime ms) :
    localTime offset day ms < localTime offset other 0 ↔ day < other := by
  unfold localTime
  unfold IsTime at time
  unfold msPerDay at *
  omega

theorem localTime_le_iff {day other ms : Int} (time : IsTime ms) :
    localTime offset other 0 ≤ localTime offset day ms ↔ other ≤ day := by
  rw [← not_lt, localTime_lt_iff time, not_lt]

/-- **The local day of a midnight in UTC**: west of Greenwich it is the day before. -/
theorem localDay_midnight (real : IsOffset offset) (day : Int) :
    localDay offset (utcMidnight day) = if offset < 0 then day - 1 else day := by
  unfold localDay utcMidnight
  unfold IsOffset at real
  unfold msPerDay msPerHour at *
  split <;> omega

/-- An instant before a day's beginning. -/
theorem lt_localTime_iff {t : Int} {day : Int} : t < localTime offset day 0 ↔ localDay offset t < day := by
  unfold localDay localTime msPerDay
  omega

/-- **The day in UTC of a local time.** -/
theorem utcDay_localTime {day ms : Int} :
    utcDay (localTime offset day ms) = day ↔ 0 ≤ ms - offset ∧ ms - offset < msPerDay := by
  unfold utcDay localTime msPerDay
  omega

theorem utcDay_utcMidnight (day : Int) : utcDay (utcMidnight day) = day := by
  unfold utcDay utcMidnight msPerDay
  omega

end Offset

/-! ### Texts of instants -/

/-- A year: four digits, or six and a sign. -/
def isoYear (year : Int) : List Char :=
  if 0 ≤ year ∧ year ≤ 9999 then padded 4 year.toNat
  else (if year < 0 then '-' else '+') :: padded 6 year.natAbs

/-- `2006-01-02`. -/
def isoDate (date : Date) : List Char :=
  isoYear date.year ++ '-' :: (twoDigits date.month ++ '-' :: twoDigits date.dayOfMonth)

/-- `T15:04:05.000Z`. -/
def isoTime (ms : Int) : List Char :=
  'T' :: (twoDigits (ms / msPerHour) ++ ':' :: (twoDigits (ms % msPerHour / 60000) ++
    ':' :: (twoDigits (ms % 60000 / 1000) ++ '.' :: (padded 3 (ms % 1000).toNat ++ ['Z']))))

/-- The text of an instant, in UTC. -/
def isoText (t : Int) : List Char := isoDate (Date.ofDay (utcDay t)) ++ isoTime (t % msPerDay)

theorem isoDate_written {date : Date} (written : date.Written) : isoDate date = date.text := by
  rw [Date.text_written written]
  unfold isoDate
  rw [show isoYear date.year = padded 4 date.year.toNat from if_pos written]
  rfl

/-- Other years are written with a sign. -/
theorem isoYear_signed {year : Int} (other : ¬ (0 ≤ year ∧ year ≤ 9999)) :
    ∃ sign digits, isoYear year = sign :: digits ∧ sign.isDigit = false := by
  refine ⟨_, _, if_neg other, ?_⟩
  split <;> rfl

theorem length_text_written {day : Int} (written : (Date.ofDay day).Written) :
    (Date.ofDay day).text.length = 10 := by
  have bounds := Date.ofDay_bounds day
  have lengths : (padded 4 (Date.ofDay day).year.toNat).length = 4 ∧
      (padded 2 (Date.ofDay day).month).length = 2 ∧
      (padded 2 (Date.ofDay day).dayOfMonth.toNat).length = 2 := by
    unfold Date.Written at written
    exact ⟨length_padded (by decide) (by omega), length_padded (by decide) (by omega),
      length_padded (by decide) (by omega)⟩
  rw [Date.text_written written]
  simp only [List.length_append, List.length_cons, lengths]

/-- **The first ten characters** are a date's text iff the instant is on its day in UTC. -/
theorem isoText_take_iff {t : Int} {date : Date} (valid : date.Valid) (written : date.Written) :
    (isoText t).take 10 = date.text ↔ utcDay t = date.toDay := by
  by_cases here : (Date.ofDay (utcDay t)).Written
  · unfold isoText
    rw [isoDate_written here, List.take_left' (length_text_written here)]
    constructor
    · intro same
      have texts : (Date.ofDay (utcDay t)).text ++ [] = (Date.ofDay date.toDay).text ++ [] := by
        rw [Date.ofDay_toDay valid, same]
      have dates := (Date.text_append_injective texts).1
      rw [← Date.toDay_ofDay (utcDay t), dates, Date.toDay_ofDay]
    · intro same
      rw [same, Date.ofDay_toDay valid]
  · obtain ⟨sign, digits, signed, other⟩ := isoYear_signed here
    have text : ∃ rest, (isoText t).take 10 = sign :: rest := by
      unfold isoText isoDate
      rw [signed]
      exact ⟨_, rfl⟩
    obtain ⟨rest, text⟩ := text
    constructor
    · intro same
      have member : sign ∈ padded 4 date.year.toNat := by
        have length : (padded 4 date.year.toNat).length = 4 := length_padded (by decide) (by
          unfold Date.Written at written
          omega)
        rw [text, Date.text_written written] at same
        match padded 4 date.year.toNat, length, same with
        | c :: _, _, same => exact (List.cons.inj same).1 ▸ List.mem_cons_self
      exact absurd (isDigit_of_mem_padded member) (Bool.eq_false_iff.mp other)
    · intro same
      rw [same, Date.ofDay_toDay valid] at here
      exact absurd written here

end Calendar

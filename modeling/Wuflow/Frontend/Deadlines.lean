/-
**Deadlines and release dates** (`utils.js`, `modal.js`, `tasks.js`, `releases.js`).

A deadline is stored as the local noon of its day, a release date as the midnight of its day in UTC. Times
are instants; a text or a `Date` that is sent and read back is the same instant. The offset from UTC is
fixed.

* `getDeadlineStatus`, `getTaskDeadlineStatus` — which deadlines are late.
* `past_release_date_iff` — when the days they compare are those that were entered.
* `date_inputs_round_trip_iff` — when the day that was entered is shown again.
-/

import Wuflow.Calendar.Zoned

namespace Wuflow.Frontend

open Calendar (Date IsOffset isoText localDay localTime msPerHour setTime utcMidnight)

/-! ### `new Date` -/

/-- The time of day of `T15:04:05`, and what follows it. -/
def readTime : List Char → Option (Int × List Char)
  | 'T' :: h1 :: h2 :: ':' :: m1 :: m2 :: ':' :: s1 :: s2 :: rest =>
      let hour := Nat.ofDigitChars 10 [h1, h2] 0
      let minute := Nat.ofDigitChars 10 [m1, m2] 0
      let second := Nat.ofDigitChars 10 [s1, s2] 0
      if [h1, h2, m1, m2, s1, s2].all Char.isDigit ∧ hour < 24 ∧ minute < 60 ∧ second < 60 then
        some (((hour * 60 + minute) * 60 + second) * 1000, rest)
      else none
  | _ => none

section Offset

variable (offset : Int) (otherDate : List Char → Option Int)

/-- `new Date(text)`: a date alone is its midnight in UTC, a time without zone is local. Texts of other
forms are read by `otherDate`, and nothing is an invalid date. -/
def newDate (text : List Char) : Option Int :=
  match Date.parse (text.take 10), text.drop 10 with
  | none, _ => otherDate text
  | some date, [] => some (utcMidnight date.toDay)
  | some date, time =>
      match readTime time with
      | some (ms, []) => some (localTime offset date.toDay ms)
      | some (ms, ['Z']) => some (utcMidnight date.toDay + ms)
      | _ => otherDate text

/-! ### Date inputs -/

/-- The deadline of `handleDeadlineChange`, and of a task's date input: none for an empty input. -/
def dateVal (rawValue : List Char) : Option Int :=
  if rawValue = [] then none else newDate offset otherDate (rawValue ++ "T12:00:00".toList)

end Offset

/-- `toISO` of `handleReleaseSubmit`. -/
def toISO (v : List Char) : Option (List Char) := if v = [] then none else some (v ++ "T00:00:00Z".toList)

def toDateInputValue : Option Int → List Char
  | none => []
  | some date => (isoText date).take 10

/-! ### Late deadlines -/

structure DatedRelease where
  releaseDate : Option Int

/-- What an issue's dates are. -/
structure DatedIssue where
  deadline : Option Int
  release : Option DatedRelease

/-- `issue?.release?.release_date`. -/
def releaseDateOf (issue : Option DatedIssue) : Option Int := issue.bind (·.release) |>.bind (·.releaseDate)

section Offset

variable (offset now : Int)

def startOfDay (date : Int) : Int := setTime offset date 0

/-- The reason why a deadline is late. -/
def getDeadlineStatus (issue : Option DatedIssue) : Option String :=
  match issue.bind (·.deadline) with
  | none => none
  | some date =>
      let today := startOfDay offset now
      let deadline := startOfDay offset date
      if deadline < today then some "Overdue!"
      else match releaseDateOf issue with
        | some releaseDate =>
            if startOfDay offset releaseDate < deadline then some "Past release date!" else none
        | none => none

def getTaskDeadlineStatus (taskDeadline : Option Int) (issue : Option DatedIssue) : Option String :=
  match taskDeadline with
  | none => none
  | some date =>
      let today := startOfDay offset now
      let d := startOfDay offset date
      if d < today then some "Overdue!"
      else match issue.bind (·.deadline) with
        | some deadline => if startOfDay offset deadline < d then some "After issue deadline!" else none
        | none =>
            match releaseDateOf issue with
            | some releaseDate =>
                if startOfDay offset releaseDate < d then some "Past release date!" else none
            | none => none

end Offset

/-! ### What is stored -/

section Stored

variable {offset : Int} {otherDate : List Char → Option Int} {date : Date}

theorem text_ne_nil (written : date.Written) : date.text ≠ [] := by
  rw [Date.text_written written]
  simp

theorem length_text (valid : date.Valid) (written : date.Written) : date.text.length = 10 := by
  have same := Date.ofDay_toDay valid
  have length : (Date.ofDay date.toDay).text.length = 10 := Calendar.length_text_written (same.symm ▸ written)
  rwa [same] at length

/-- The date at the front of a text is read. -/
theorem parse_take (valid : date.Valid) (written : date.Written) (time : List Char) :
    Date.parse ((date.text ++ time).take 10) = some date ∧ (date.text ++ time).drop 10 = time := by
  have length := length_text valid written
  rw [List.take_left' length, List.drop_left' length]
  exact ⟨Date.parse_iff.mpr ⟨valid, written, rfl⟩, rfl⟩

/-- A date alone. -/
theorem newDate_text (valid : date.Valid) (written : date.Written) :
    newDate offset otherDate date.text = some (utcMidnight date.toDay) := by
  obtain ⟨front, rest⟩ := parse_take valid written []
  rw [List.append_nil] at front rest
  unfold newDate
  rw [front, rest]

/-- A date and a time without zone. -/
theorem newDate_local (valid : date.Valid) (written : date.Written) {time : List Char} {ms : Int}
    (read : readTime time = some (ms, [])) :
    newDate offset otherDate (date.text ++ time) = some (localTime offset date.toDay ms) := by
  obtain ⟨front, rest⟩ := parse_take valid written time
  unfold newDate
  rw [front, rest]
  cases time with
  | nil => exact nomatch read
  | cons c time =>
      dsimp only
      rw [read]

/-- A date and a time in UTC. -/
theorem newDate_utc (valid : date.Valid) (written : date.Written) {time : List Char} {ms : Int}
    (read : readTime time = some (ms, ['Z'])) :
    newDate offset otherDate (date.text ++ time) = some (utcMidnight date.toDay + ms) := by
  obtain ⟨front, rest⟩ := parse_take valid written time
  unfold newDate
  rw [front, rest]
  cases time with
  | nil => exact nomatch read
  | cons c time =>
      dsimp only
      rw [read]
      rfl

/-- **A deadline is its local noon.** -/
theorem dateVal_text (valid : date.Valid) (written : date.Written) :
    dateVal offset otherDate date.text = some (localTime offset date.toDay (12 * msPerHour)) := by
  unfold dateVal
  rw [if_neg (text_ne_nil written)]
  exact newDate_local valid written rfl

/-- **A release date is its midnight in UTC.** -/
theorem newDate_toISO (valid : date.Valid) (written : date.Written) :
    (toISO date.text).bind (newDate offset otherDate) = some (utcMidnight date.toDay) := by
  unfold toISO
  have midnight : readTime "T00:00:00Z".toList = some (0, ['Z']) := rfl
  rw [if_neg (text_ne_nil written), Option.bind_some, newDate_utc valid written midnight, Int.add_zero]

end Stored

/-! ### Past the release date -/

section PastRelease

variable {offset now : Int} {otherDate : List Char → Option Int} {D R : Date}

theorem noon_isTime : Calendar.IsTime (12 * msPerHour) := by decide

theorem startOfDay_noon (day : Int) :
    startOfDay offset (localTime offset day (12 * msPerHour)) = localTime offset day 0 :=
  Calendar.setTime_localTime noon_isTime

theorem midnight_lt_iff {day other : Int} :
    localTime offset day 0 < localTime offset other 0 ↔ day < other :=
  Calendar.localTime_lt_iff (by decide)

/-- Days that are not over. -/
theorem not_overdue {day : Int} (notBefore : localDay offset now ≤ day) :
    ¬ startOfDay offset (localTime offset day (12 * msPerHour)) < startOfDay offset now := by
  rw [startOfDay_noon, startOfDay, setTime, midnight_lt_iff]
  omega

/-- A release date is before a noon's day. -/
theorem release_before_iff {day release : Int} :
    startOfDay offset release < startOfDay offset (localTime offset day (12 * msPerHour)) ↔
      localDay offset release < day := by
  rw [startOfDay_noon, startOfDay, setTime, midnight_lt_iff]

theorem past_of_decided {late : Prop} [Decidable late] :
    (if late then some "Past release date!" else none) = some "Past release date!" ↔ late := by
  by_cases here : late
  · rw [if_pos here]
    exact ⟨fun _ => here, fun _ => rfl⟩
  · rw [if_neg here]
    exact ⟨nofun, fun late => absurd late here⟩

/-- The status of a deadline that is not overdue. -/
theorem getDeadlineStatus_stored {day release : Int} (notBefore : localDay offset now ≤ day) :
    getDeadlineStatus offset now (some
        { deadline := some (localTime offset day (12 * msPerHour))
          release := some { releaseDate := some release } }) = some "Past release date!" ↔
      localDay offset release < day := by
  refine Iff.trans ?_ release_before_iff
  unfold getDeadlineStatus
  rw [Option.bind_some]
  dsimp only
  rw [if_neg (not_overdue notBefore)]
  exact past_of_decided

theorem getTaskDeadlineStatus_stored {day release : Int} (notBefore : localDay offset now ≤ day) :
    getTaskDeadlineStatus offset now (some (localTime offset day (12 * msPerHour)))
        (some { deadline := none, release := some { releaseDate := some release } }) = some "Past release date!" ↔
      localDay offset release < day := by
  refine Iff.trans ?_ release_before_iff
  unfold getTaskDeadlineStatus
  dsimp only
  rw [if_neg (not_overdue notBefore)]
  exact past_of_decided

/-- **When a deadline is past its release date**: just if its day is later, unless it is the same day and the
offset is west of Greenwich. -/
theorem past_release_date_iff (real : IsOffset offset) (validD : D.Valid) (writtenD : D.Written)
    (validR : R.Valid) (writtenR : R.Written) (notBefore : localDay offset now ≤ D.toDay) :
    ((getDeadlineStatus offset now (some
          { deadline := dateVal offset otherDate D.text
            release := some { releaseDate := (toISO R.text).bind (newDate offset otherDate) } }) =
          some "Past release date!" ↔ R.toDay < D.toDay) ∧
      (getTaskDeadlineStatus offset now (dateVal offset otherDate D.text) (some
          { deadline := none
            release := some { releaseDate := (toISO R.text).bind (newDate offset otherDate) } }) =
          some "Past release date!" ↔ R.toDay < D.toDay)) ↔
      (0 ≤ offset ∨ D ≠ R) := by
  have days : D ≠ R ↔ D.toDay ≠ R.toDay :=
    not_congr ⟨congrArg Date.toDay, Date.toDay_inj validD validR⟩
  rw [dateVal_text validD writtenD, newDate_toISO validR writtenR, getDeadlineStatus_stored notBefore,
    getTaskDeadlineStatus_stored notBefore, and_self, Calendar.localDay_midnight real, days]
  split <;> omega

/-- Five hours west of Greenwich, a deadline on the release date. -/
theorem deadline_on_release_date :
    ¬ ∀ (offset now : Int) (otherDate : List Char → Option Int) (D R : Date), IsOffset offset →
      D.Valid → D.Written → R.Valid → R.Written → localDay offset now ≤ D.toDay →
      (getDeadlineStatus offset now (some
          { deadline := dateVal offset otherDate D.text
            release := some { releaseDate := (toISO R.text).bind (newDate offset otherDate) } }) =
          some "Past release date!" ↔ R.toDay < D.toDay) := by
  intro agree
  have here := agree (-5 * msPerHour) 0 (fun _ => none) ⟨2026, 5, 1⟩ ⟨2026, 5, 1⟩
    (by decide) (by decide) (by decide) (by decide) (by decide) (by decide)
  exact absurd (here.mp (by decide +kernel)) (by decide)

/-- A deadline on the release date, east of Greenwich. -/
theorem deadline_on_release_date_east :
    ((getDeadlineStatus (2 * msPerHour) 0 (some
          { deadline := dateVal (2 * msPerHour) (fun _ => none) (Date.text ⟨2026, 5, 1⟩)
            release := some
              { releaseDate := (toISO (Date.text ⟨2026, 5, 1⟩)).bind (newDate (2 * msPerHour) fun _ => none) } }) =
          some "Past release date!" ↔ Date.toDay ⟨2026, 5, 1⟩ < Date.toDay ⟨2026, 5, 1⟩) ∧
      (getTaskDeadlineStatus (2 * msPerHour) 0
        (dateVal (2 * msPerHour) (fun _ => none) (Date.text ⟨2026, 5, 1⟩))
          (some
            { deadline := none
              release := some { releaseDate :=
                (toISO (Date.text ⟨2026, 5, 1⟩)).bind (newDate (2 * msPerHour) fun _ => none) } }) =
          some "Past release date!" ↔ Date.toDay ⟨2026, 5, 1⟩ < Date.toDay ⟨2026, 5, 1⟩)) :=
  (past_release_date_iff (by decide) (by decide) (by decide) (by decide) (by decide) (by decide)).mpr
    (.inl (by decide))

end PastRelease

/-! ### The round trip -/

section RoundTrip

variable {offset : Int} {otherDate : List Char → Option Int} {v : Date}

theorem toDateInputValue_iff {t : Int} (valid : v.Valid) (written : v.Written) :
    toDateInputValue (some t) = v.text ↔ Calendar.utcDay t = v.toDay :=
  Calendar.isoText_take_iff valid written

/-- **When the dates that were entered are shown again**: a release date always, a deadline unless its noon
is on another day in UTC. Then saving what is shown changes nothing. -/
theorem date_inputs_round_trip_iff (valid : v.Valid) (written : v.Written) :
    ((toDateInputValue (dateVal offset otherDate v.text) = v.text ∧
        toDateInputValue ((toISO v.text).bind (newDate offset otherDate)) = v.text) ∧
      dateVal offset otherDate (toDateInputValue (dateVal offset otherDate v.text)) =
        dateVal offset otherDate v.text ∧
      toISO (toDateInputValue ((toISO v.text).bind (newDate offset otherDate))) = toISO v.text) ↔
      (-12 * msPerHour < offset ∧ offset ≤ 12 * msPerHour) := by
  have release : toDateInputValue ((toISO v.text).bind (newDate offset otherDate)) = v.text := by
    rw [newDate_toISO valid written, toDateInputValue_iff valid written, Calendar.utcDay_utcMidnight]
  have deadline : toDateInputValue (dateVal offset otherDate v.text) = v.text ↔
      -12 * msPerHour < offset ∧ offset ≤ 12 * msPerHour := by
    rw [dateVal_text valid written, toDateInputValue_iff valid written, Calendar.utcDay_localTime]
    unfold Calendar.msPerDay Calendar.msPerHour
    omega
  rw [release, ← deadline]
  constructor
  · exact fun trips => trips.1.1
  · intro same
    rw [same]
    exact ⟨⟨rfl, rfl⟩, rfl, rfl⟩

/-- Thirteen hours east of Greenwich, a deadline is shown on the day before. -/
theorem deadline_shown_earlier :
    ¬ ∀ (offset : Int) (otherDate : List Char → Option Int) (v : Date), IsOffset offset →
      v.Valid → v.Written → toDateInputValue (dateVal offset otherDate v.text) = v.text := by
  intro shown
  exact absurd (shown (13 * msPerHour) (fun _ => none) ⟨2026, 5, 1⟩ (by decide) (by decide) (by decide))
    (by decide +kernel)

/-- In New York, a date of the past is shown again. -/
theorem date_shown_again :
    ((toDateInputValue (dateVal (-5 * msPerHour) (fun _ => none) (Date.text ⟨2024, 2, 29⟩)) =
          Date.text ⟨2024, 2, 29⟩ ∧
        toDateInputValue ((toISO (Date.text ⟨2024, 2, 29⟩)).bind (newDate (-5 * msPerHour) fun _ => none)) =
          Date.text ⟨2024, 2, 29⟩) ∧
      dateVal (-5 * msPerHour) (fun _ => none)
          (toDateInputValue (dateVal (-5 * msPerHour) (fun _ => none) (Date.text ⟨2024, 2, 29⟩))) =
        dateVal (-5 * msPerHour) (fun _ => none) (Date.text ⟨2024, 2, 29⟩) ∧
      toISO (toDateInputValue ((toISO (Date.text ⟨2024, 2, 29⟩)).bind (newDate (-5 * msPerHour) fun _ => none))) =
        toISO (Date.text ⟨2024, 2, 29⟩)) :=
  (date_inputs_round_trip_iff (by decide) (by decide)).mpr (by decide)

end RoundTrip

end Wuflow.Frontend

/-
**The planning sidebar** (`planning.js`).

`renderPlanningPanel` makes a section for the past, one for each of ten days and one for the future, puts an
item for each planned date into one of them, and counts. The offset from UTC is fixed; instants are not
cut to the range of `Date`.

* `render_days` — what the sections hold, and `render_counts` the two numbers.
* `planned_dates_placed_iff` — when every planned date is in the section of its day.
* `planning_counter_iff` — when the first number is no greater than the second, and equal to it if the
  filter keeps every issue.
-/

import Wuflow.Frontend.Deadlines
import Wuflow.Frontend.Filters
import Wuflow.Model.Validation
import Wuflow.Sorting.Buckets

namespace Wuflow.Frontend

open Buckets (Bucket contents putAll)
open Calendar (Date IsOffset addDays localDay localTime msPerHour setTime utcMidnight)

/-! ### The filter bar -/

/-- `state.filter`. -/
structure ViewFilter extends Filter where
  releaseOwnerFilter : Option AssigneeFilter := none
  releaseSearch : String := ""

def isFilterActive (filter : ViewFilter) : Bool :=
  filter.labelId.isSome || filter.priority.isSome || filter.assigneeId.isSome || filter.releaseId.isSome ||
    filter.releaseOwnerFilter.isSome || trim filter.search != "" || trim filter.releaseSearch != "" ||
    !filter.releaseFilterIds.isEmpty

/-! ### Deadlines -/

/-- The instant that `new Date` reads from a time in JSON, in whole milliseconds. -/
def timeValue (t : DateTime) : Int := t.instant / 1000000

structure DeadlineInfo where
  date : Int
  isTask : Bool

def isFinished (issue : Issue) : Bool := issue.status == .done || issue.status == .archive

/-- `issue.planned_dates`, where none and an empty list are the same. -/
def plannedDatesOf (issue : Issue) : List String := issue.plannedDates.getD []

section Offset

variable (offset : Int)

/-- The earliest deadline of an issue and its open tasks, at noon. -/
def getEffectiveDeadlineInfo (issue : Issue) : Option DeadlineInfo :=
  let noon := fun t => setTime offset (timeValue t) (12 * msPerHour)
  issue.tasks.foldl (fun minInfo task =>
    match task.done, task.deadline with
    | false, some deadline =>
        if minInfo.all fun info => noon deadline < info.date then
          some { date := noon deadline, isTask := true }
        else minInfo
    | _, _ => minInfo)
    (issue.deadline.map fun deadline => { date := noon deadline, isTask := false })

/-- There is a deadline, and no planned date. -/
def isUnscheduled (issue : Issue) : Bool :=
  (getEffectiveDeadlineInfo offset issue).isSome && (plannedDatesOf issue).isEmpty

/-- The local date of an instant; the year is not padded. -/
def getLocalISODate (t : Int) : String :=
  let date := Date.ofDay (localDay offset t)
  toString date.year ++ "-" ++ String.ofList (Calendar.padded 2 date.month) ++ "-" ++
    String.ofList (Calendar.padded 2 date.dayOfMonth.toNat)

end Offset

/-! ### The panel -/

/-- `createPlanningItem`: an issue on one of its dates. -/
structure PlanningItem where
  issue : Issue
  dateStr : String

/-- `createPlanningDayElement`. -/
def createPlanningDayElement (idSuffix : String) : Bucket String PlanningItem := { id := "day-" ++ idSuffix }

/-- The sections in their order. -/
def planningDays (hasPastIssues : Bool) (dateIds : List String) (hasFutureIssues : Bool) :
    List (Bucket String PlanningItem) :=
  (if hasPastIssues then [createPlanningDayElement "past"] else []) ++ dateIds.map createPlanningDayElement ++
    (if hasFutureIssues then [createPlanningDayElement "future"] else [])

/-- `planning-list` and `planning-count`. -/
structure PlanningPanel where
  unscheduled : List Issue
  days : List (Bucket String PlanningItem)
  count : Nat
  totalCount : Option Nat

/-- The text of `planning-count`. -/
def PlanningPanel.planningCount (panel : PlanningPanel) : String :=
  match panel.totalCount with
  | none => toString panel.count
  | some totalCount => toString panel.count ++ "/" ++ toString totalCount

/-- The state of the loop over the planned dates. -/
structure Placing where
  days : List (Bucket String PlanningItem)
  count : Nat
  addedPastIssues : List Int := []
  addedFutureIssues : List Int := []

/-- Append an item to the section with an id, if it is there. -/
def Placing.append (s : Placing) (targetId : String) (item : PlanningItem) : Placing :=
  match Buckets.put targetId item s.days with
  | some days => { s with days, count := s.count + 1 }
  | none => s

section Render

variable (offset : Int) (otherDate : List Char → Option Int)

/-- A planned date as an instant; comparisons with an invalid one are false. -/
def plannedDate (dateStr : String) : Option Int := newDate offset otherDate dateStr.toList

/-- The body of the loop. -/
def Placing.place (today futureCutoff : Int) (s : Placing) (issue : Issue) (dateStr : String) : Placing :=
  let planned := (plannedDate offset otherDate dateStr).map fun t => setTime offset t (12 * msPerHour)
  if planned.any (· < today) then
    if issue.id ∈ s.addedPastIssues then s
    else { s with addedPastIssues := issue.id :: s.addedPastIssues }.append "day-past" ⟨issue, dateStr⟩
  else if planned.any (futureCutoff ≤ ·) then
    if issue.id ∈ s.addedFutureIssues then s
    else { s with addedFutureIssues := issue.id :: s.addedFutureIssues }.append "day-future" ⟨issue, dateStr⟩
  else s.append ("day-" ++ dateStr) ⟨issue, dateStr⟩

/-- What an unfinished issue adds to `totalCount`. -/
def totalOf (issue : Issue) : Nat :=
  (if isUnscheduled offset issue then 1 else 0) + (plannedDatesOf issue).length

variable (toLowerCase : String → String) (now : Int)

def renderPlanningPanel (issues : List Issue) (filter : ViewFilter) (currentUserId : Option Int) :
    PlanningPanel :=
  let today := setTime offset now 0
  let filteredIssues := filterIssues toLowerCase issues filter.toFilter currentUserId
  let unscheduledIssues :=
    (filteredIssues.filter fun issue => isUnscheduled offset issue && !isFinished issue).insertionSort
      fun a b => ((getEffectiveDeadlineInfo offset a).map DeadlineInfo.date).getD 0 ≤
        ((getEffectiveDeadlineInfo offset b).map DeadlineInfo.date).getD 0
  let hasPastIssues := filteredIssues.any fun issue => (plannedDatesOf issue).any fun dateStr =>
    (plannedDate offset otherDate dateStr).any (· < today)
  let futureCutoff := addDays offset today 10
  let hasFutureIssues := filteredIssues.any fun issue => (plannedDatesOf issue).any fun dateStr =>
    (plannedDate offset otherDate dateStr).any fun planned => futureCutoff ≤ setTime offset planned 0
  let dateIds := (List.range 10).map fun i : Nat => getLocalISODate offset (addDays offset today i)
  let placed : Placing := filteredIssues.foldl (fun s issue =>
    (plannedDatesOf issue).foldl
      (fun (s : Placing) dateStr => s.place offset otherDate today futureCutoff issue dateStr) s)
    { days := planningDays hasPastIssues dateIds hasFutureIssues, count := unscheduledIssues.length }
  { unscheduled := unscheduledIssues
    days := placed.days
    count := placed.count
    totalCount :=
      if isFilterActive filter then
        some (issues.foldl (fun total issue => if isFinished issue then total else total + totalOf offset issue) 0)
      else none }

end Render

/-! ### Classes of dates -/

section Classes

variable (offset : Int) (otherDate : List Char → Option Int) (now : Int)

/-- The local day on which a planned date is shown. -/
def shownDay (item : PlanningItem) : Option Int :=
  (plannedDate offset otherDate item.dateStr).map (localDay offset)

def isPast (item : PlanningItem) : Bool := (shownDay offset otherDate item).any (· < localDay offset now)

def isFuture (item : PlanningItem) : Bool :=
  (shownDay offset otherDate item).any (localDay offset now + 10 ≤ ·)

/-- The section an item is for. -/
def targetOf (item : PlanningItem) : String :=
  if isPast offset otherDate now item then "day-past"
  else if isFuture offset otherDate now item then "day-future"
  else "day-" ++ item.dateStr

/-- A second past or future date of an issue. -/
def isAgain (second first : PlanningItem) : Bool :=
  second.issue.id == first.issue.id &&
    (isPast offset otherDate now second && isPast offset otherDate now first ||
      isFuture offset otherDate now second && isFuture offset otherDate now first)

end Classes

/-- Every planned date of every issue. -/
def occurrences (issues : List Issue) : List PlanningItem :=
  issues.flatMap fun issue => (plannedDatesOf issue).map (PlanningItem.mk issue)

section Loop

variable {offset : Int} {otherDate : List Char → Option Int} {now : Int}

theorem not_isFuture_of_isPast {item : PlanningItem} (past : isPast offset otherDate now item = true) :
    isFuture offset otherDate now item = false := by
  unfold isPast isFuture at *
  cases day : shownDay offset otherDate item with
  | none => rfl
  | some d =>
      rw [day, Option.any_some, decide_eq_true_eq] at past
      rw [Option.any_some, decide_eq_false_iff_not]
      omega

/-- A time of a day is before today iff the day is. -/
theorem any_lt_today (planned : Option Int) :
    (planned.map fun t => setTime offset t (12 * msPerHour)).any (· < setTime offset now 0) =
      (planned.map (localDay offset)).any (· < localDay offset now) := by
  cases planned with
  | none => rfl
  | some t =>
      rw [Option.map_some, Option.map_some, Option.any_some, Option.any_some]
      exact decide_eq_decide.mpr (Calendar.localTime_lt_iff noon_isTime)

theorem any_cutoff_le (planned : Option Int) :
    (planned.map fun t => setTime offset t (12 * msPerHour)).any
        (addDays offset (setTime offset now 0) 10 ≤ ·) =
      (planned.map (localDay offset)).any (localDay offset now + 10 ≤ ·) := by
  unfold setTime
  rw [Calendar.addDays_localTime (by decide)]
  cases planned with
  | none => rfl
  | some t =>
      rw [Option.map_some, Option.map_some, Option.any_some, Option.any_some]
      exact decide_eq_decide.mpr (Calendar.localTime_le_iff noon_isTime)

/-- The loop's body, by the classes of the date. -/
theorem place_eq (s : Placing) (item : PlanningItem) :
    s.place offset otherDate (setTime offset now 0) (addDays offset (setTime offset now 0) 10) item.issue
        item.dateStr =
      if isPast offset otherDate now item then
        if item.issue.id ∈ s.addedPastIssues then s
        else { s with addedPastIssues := item.issue.id :: s.addedPastIssues }.append "day-past" item
      else if isFuture offset otherDate now item then
        if item.issue.id ∈ s.addedFutureIssues then s
        else { s with addedFutureIssues := item.issue.id :: s.addedFutureIssues }.append "day-future" item
      else s.append ("day-" ++ item.dateStr) item := by
  unfold Placing.place
  dsimp only
  rw [any_lt_today, any_cutoff_le]
  rfl

/-- The date has not been shown for its issue. -/
def Placing.isNew (offset : Int) (otherDate : List Char → Option Int) (now : Int) (s : Placing)
    (item : PlanningItem) : Bool :=
  !(isPast offset otherDate now item && s.addedPastIssues.contains item.issue.id) &&
    !(isFuture offset otherDate now item && s.addedFutureIssues.contains item.issue.id)

theorem isNew_of_empty (s : Placing) (past : s.addedPastIssues = []) (future : s.addedFutureIssues = [])
    (item : PlanningItem) : s.isNew offset otherDate now item = true := by
  unfold Placing.isNew
  rw [past, future]
  simp

theorem append_stored {target : PlanningItem → String} {id : String} {item : PlanningItem} (s : Placing)
    (same : target item = id) :
    ((s.append id item).days, (s.append id item).count) = Buckets.store target (s.days, s.count) item := by
  subst same
  unfold Placing.append Buckets.store
  dsimp only
  cases Buckets.put (target item) item s.days with
  | none => rfl
  | some days => rfl

theorem append_isNew (s : Placing) (id : String) (item other : PlanningItem) :
    (s.append id item).isNew offset otherDate now other = s.isNew offset otherDate now other := by
  unfold Placing.append
  split <;> rfl

/-- A past date makes the other past dates of its issue old. -/
theorem isNew_addPast {item : PlanningItem} (past : isPast offset otherDate now item = true) (s : Placing)
    (other : PlanningItem) :
    { s with addedPastIssues := item.issue.id :: s.addedPastIssues }.isNew offset otherDate now other =
      (s.isNew offset otherDate now other && !isAgain offset otherDate now other item) := by
  unfold Placing.isNew isAgain
  rw [past, not_isFuture_of_isPast past, List.contains_cons]
  generalize isPast offset otherDate now other = p, isFuture offset otherDate now other = f,
    (other.issue.id == item.issue.id) = same, s.addedPastIssues.contains other.issue.id = c,
    s.addedFutureIssues.contains other.issue.id = c'
  revert p f same c c'
  decide

theorem isNew_addFuture {item : PlanningItem} (past : isPast offset otherDate now item = false)
    (future : isFuture offset otherDate now item = true) (s : Placing) (other : PlanningItem) :
    { s with addedFutureIssues := item.issue.id :: s.addedFutureIssues }.isNew offset otherDate now other =
      (s.isNew offset otherDate now other && !isAgain offset otherDate now other item) := by
  unfold Placing.isNew isAgain
  rw [past, future, List.contains_cons]
  generalize isPast offset otherDate now other = p, isFuture offset otherDate now other = f,
    (other.issue.id == item.issue.id) = same, s.addedPastIssues.contains other.issue.id = c,
    s.addedFutureIssues.contains other.issue.id = c'
  revert p f same c c'
  decide

/-- What one date does: nothing if it is not new; otherwise it is stored, and what repeats it is no longer
new. -/
theorem place_step (s : Placing) (item : PlanningItem) :
    let s' := s.place offset otherDate (setTime offset now 0) (addDays offset (setTime offset now 0) 10)
      item.issue item.dateStr
    (s.isNew offset otherDate now item = false → s' = s) ∧
    (s.isNew offset otherDate now item = true →
      (s'.days, s'.count) = Buckets.store (targetOf offset otherDate now) (s.days, s.count) item ∧
      ∀ other, s'.isNew offset otherDate now other =
        (s.isNew offset otherDate now other && !isAgain offset otherDate now other item)) := by
  dsimp only
  rw [place_eq]
  by_cases past : isPast offset otherDate now item = true
  · have future := not_isFuture_of_isPast past
    rw [if_pos past]
    by_cases added : item.issue.id ∈ s.addedPastIssues
    · rw [if_pos added]
      have old : ¬ s.isNew offset otherDate now item = true := by simp [Placing.isNew, past, added]
      exact ⟨fun _ => rfl, fun new => absurd new old⟩
    · rw [if_neg added]
      have new : s.isNew offset otherDate now item = true := by simp [Placing.isNew, past, future, added]
      refine ⟨fun old => absurd new (Bool.eq_false_iff.mp old), fun _ => ⟨?_, fun other => ?_⟩⟩
      · exact append_stored { s with addedPastIssues := item.issue.id :: s.addedPastIssues } (if_pos past)
      · exact (append_isNew _ _ _ _).trans (isNew_addPast past s other)
  · rw [if_neg past]
    have notPast := Bool.eq_false_iff.mpr past
    by_cases future : isFuture offset otherDate now item = true
    · rw [if_pos future]
      by_cases added : item.issue.id ∈ s.addedFutureIssues
      · rw [if_pos added]
        have old : ¬ s.isNew offset otherDate now item = true := by simp [Placing.isNew, future, added]
        exact ⟨fun _ => rfl, fun new => absurd new old⟩
      · rw [if_neg added]
        have new : s.isNew offset otherDate now item = true := by simp [Placing.isNew, notPast, future, added]
        refine ⟨fun old => absurd new (Bool.eq_false_iff.mp old), fun _ => ⟨?_, fun other => ?_⟩⟩
        · exact append_stored { s with addedFutureIssues := item.issue.id :: s.addedFutureIssues }
            ((if_neg past).trans (if_pos future))
        · exact (append_isNew _ _ _ _).trans (isNew_addFuture notPast future s other)
    · rw [if_neg future]
      have notFuture := Bool.eq_false_iff.mpr future
      have new : s.isNew offset otherDate now item = true := by simp [Placing.isNew, notPast, notFuture]
      refine ⟨fun old => absurd new (Bool.eq_false_iff.mp old), fun _ => ⟨?_, fun other => ?_⟩⟩
      · exact append_stored s ((if_neg past).trans (if_neg future))
      · have fresh : isAgain offset otherDate now other item = false := by simp [isAgain, notPast, notFuture]
        rw [append_isNew, fresh, Bool.not_false, Bool.and_true]

/-- **The loop** stores what is new, without repetitions. -/
theorem foldl_place (items : List PlanningItem) (s : Placing) :
    let s' := items.foldl (fun s item => s.place offset otherDate (setTime offset now 0)
      (addDays offset (setTime offset now 0) 10) item.issue item.dateStr) s
    (s'.days, s'.count) = putAll (targetOf offset otherDate now) (s.days, s.count)
      ((items.filter (s.isNew offset otherDate now)).eraseDupsBy (isAgain offset otherDate now)) := by
  induction items generalizing s with
  | nil => rfl
  | cons item items ih =>
      obtain ⟨old, new⟩ := @place_step offset otherDate now s item
      dsimp only at ih old new ⊢
      rw [List.foldl_cons, ih]
      cases here : s.isNew offset otherDate now item with
      | false =>
          rw [old here, List.filter_cons_of_neg (Bool.eq_false_iff.mp here)]
      | true =>
          obtain ⟨stored, later⟩ := new here
          rw [List.filter_cons_of_pos here, List.eraseDupsBy_cons, List.filter_filter, stored]
          have rest : (items.filter fun other => decide (isAgain offset otherDate now other item = false) &&
              s.isNew offset otherDate now other) =
              items.filter (Placing.isNew offset otherDate now (s.place offset otherDate (setTime offset now 0)
                (addDays offset (setTime offset now 0) 10) item.issue item.dateStr)) := by
            refine List.filter_congr fun other _ => ?_
            rw [later other, Bool.and_comm]
            cases isAgain offset otherDate now other item <;> rfl
          rw [rest]
          rfl

end Loop

/-! ### What is rendered -/

section Rendered

variable (offset : Int) (otherDate : List Char → Option Int) (now : Int)

/-- The ids of the sections for these items. -/
def sectionIds (items : List PlanningItem) : List String :=
  (if items.any (isPast offset otherDate now) then ["day-past"] else []) ++
    ((List.range 10).map fun i : Nat =>
      "day-" ++ getLocalISODate offset (addDays offset (setTime offset now 0) i)) ++
    (if items.any (isFuture offset otherDate now) then ["day-future"] else [])

/-- The items without second past or future dates of an issue. -/
def withoutAgain (items : List PlanningItem) : List PlanningItem :=
  items.eraseDupsBy (isAgain offset otherDate now)

variable {offset otherDate now} (toLowerCase : String → String) (issues : List Issue) (filter : ViewFilter)
  (currentUserId : Option Int)

theorem any_occurrences (p : PlanningItem → Bool) (issues : List Issue) :
    (issues.any fun issue => (plannedDatesOf issue).any fun dateStr => p ⟨issue, dateStr⟩) =
      (occurrences issues).any p := by
  unfold occurrences
  rw [List.any_flatMap]
  simp only [List.any_map]
  rfl

theorem foldl_occurrences {σ : Type} (f : σ → Issue → String → σ) (s : σ) (issues : List Issue) :
    issues.foldl (fun s issue => (plannedDatesOf issue).foldl (fun s dateStr => f s issue dateStr) s) s =
      (occurrences issues).foldl (fun s item => f s item.issue item.dateStr) s := by
  unfold occurrences
  rw [List.foldl_flatMap]
  simp only [List.foldl_map]

theorem any_before_today (item : PlanningItem) :
    (plannedDate offset otherDate item.dateStr).any (· < setTime offset now 0) =
      isPast offset otherDate now item := by
  unfold isPast shownDay
  cases plannedDate offset otherDate item.dateStr with
  | none => rfl
  | some t =>
      rw [Option.map_some, Option.any_some, Option.any_some]
      exact decide_eq_decide.mpr Calendar.lt_localTime_iff

theorem any_from_cutoff (item : PlanningItem) :
    ((plannedDate offset otherDate item.dateStr).any fun planned =>
        addDays offset (setTime offset now 0) 10 ≤ setTime offset planned 0) =
      isFuture offset otherDate now item := by
  unfold isFuture shownDay setTime
  rw [Calendar.addDays_localTime (by decide)]
  cases plannedDate offset otherDate item.dateStr with
  | none => rfl
  | some t =>
      rw [Option.map_some, Option.any_some, Option.any_some]
      exact decide_eq_decide.mpr (Calendar.localTime_le_iff (by decide))

/-- The sections, before anything is in them. -/
theorem planningDays_empty (hasPast hasFuture : Bool) (dateIds : List String) :
    ∀ day ∈ planningDays hasPast dateIds hasFuture, day.items = [] := by
  intro day member
  unfold planningDays at member
  simp only [List.mem_append, List.mem_ite_nil_right, List.mem_singleton, List.mem_map] at member
  obtain (⟨_, rfl⟩ | ⟨text, _, rfl⟩) | ⟨_, rfl⟩ := member
  all_goals rfl

theorem ids_planningDays (hasPast hasFuture : Bool) (dateIds : List String) :
    (planningDays hasPast dateIds hasFuture).map Bucket.id =
      (if hasPast then ["day-past"] else []) ++ dateIds.map ("day-" ++ ·) ++
        (if hasFuture then ["day-future"] else []) := by
  unfold planningDays
  rw [List.map_append, List.map_append, List.map_map]
  refine congrArg₂ _ (congrArg₂ _ ?_ rfl) ?_
  all_goals split <;> rfl

/-- **The panel** stores the planned dates in its sections. -/
theorem render_stored :
    let panel := renderPlanningPanel offset otherDate toLowerCase now issues filter currentUserId
    let items := occurrences (filterIssues toLowerCase issues filter.toFilter currentUserId)
    ∃ sections : List (Bucket String PlanningItem),
      (panel.days, panel.count) = putAll (targetOf offset otherDate now) (sections, panel.unscheduled.length)
        (withoutAgain offset otherDate now items) ∧
      (∀ day ∈ sections, day.items = []) ∧
        sections.map Bucket.id = sectionIds offset otherDate now items := by
  dsimp only
  refine ⟨planningDays ((occurrences (filterIssues toLowerCase issues filter.toFilter currentUserId)).any
      (isPast offset otherDate now))
    ((List.range 10).map fun i : Nat => getLocalISODate offset (addDays offset (setTime offset now 0) i))
    ((occurrences (filterIssues toLowerCase issues filter.toFilter currentUserId)).any
      (isFuture offset otherDate now)), ?_, planningDays_empty _ _ _, ?_⟩
  · unfold renderPlanningPanel
    dsimp only
    simp only [any_occurrences fun item =>
        (plannedDate offset otherDate item.dateStr).any (· < setTime offset now 0),
      any_occurrences fun item => (plannedDate offset otherDate item.dateStr).any fun planned =>
        addDays offset (setTime offset now 0) 10 ≤ setTime offset planned 0, any_before_today,
          any_from_cutoff]
    rw [foldl_occurrences (fun (s : Placing) issue dateStr => s.place offset otherDate (setTime offset now 0)
      (addDays offset (setTime offset now 0) 10) issue dateStr)]
    refine (foldl_place _ _).trans ?_
    rw [List.filter_eq_self.mpr fun item _ => isNew_of_empty _ rfl rfl item]
    rfl
  · rw [ids_planningDays, List.map_map]
    rfl

/-- **What the sections hold.** -/
theorem render_days (id : String) :
    let items := occurrences (filterIssues toLowerCase issues filter.toFilter currentUserId)
    contents (renderPlanningPanel offset otherDate toLowerCase now issues filter currentUserId).days id =
      if id ∈ sectionIds offset otherDate now items then
        some ((withoutAgain offset otherDate now items).filter fun item =>
          targetOf offset otherDate now item = id)
      else none := by
  obtain ⟨sections, stored, empty, ids⟩ :=
    @render_stored offset otherDate now toLowerCase issues filter currentUserId
  have days := congrArg Prod.fst stored
  dsimp only at days ⊢
  rw [days, Buckets.contents_putAll, Buckets.contents_of_empty empty, ids]
  split <;> rfl

/-- **What is counted.** -/
theorem render_count :
    let items := occurrences (filterIssues toLowerCase issues filter.toFilter currentUserId)
    let panel := renderPlanningPanel offset otherDate toLowerCase now issues filter currentUserId
    panel.count = panel.unscheduled.length + (withoutAgain offset otherDate now items).countP fun item =>
      decide (targetOf offset otherDate now item ∈ sectionIds offset otherDate now items) := by
  obtain ⟨sections, stored, _, ids⟩ := @render_stored offset otherDate now toLowerCase issues filter currentUserId
  have count := congrArg Prod.snd stored
  dsimp only at count ⊢
  rw [count, Buckets.stored_putAll, ids]

end Rendered

/-! ### Texts of dates -/

section Texts

variable {offset : Int}

/-- The planned dates that the backend accepts are texts of dates. -/
theorem parse_of_isDate {s : String} (valid : isDate s = true) : ∃ date, Date.parse s.toList = some date := by
  unfold isDate at valid
  split at valid
  next y1 y2 y3 y4 m1 m2 d1 d2 chars =>
    rw [Bool.and_eq_true] at valid
    obtain ⟨decimal, valid⟩ := valid
    dsimp only at valid
    split at valid
    next length month =>
      rw [Bool.and_eq_true, Bool.and_eq_true, decide_eq_true_eq, decide_eq_true_eq, decide_eq_true_eq]
        at valid
      have date : Date.Valid ⟨Nat.ofDigitChars 10 [y1, y2, y3, y4] 0, Nat.ofDigitChars 10 [m1, m2] 0,
          Nat.ofDigitChars 10 [d1, d2] 0⟩ := by
        refine ⟨valid.1.1, Int.ofNat_le.mpr valid.1.2, ?_⟩
        unfold Calendar.monthLength
        rw [month]
        exact valid.2
      rw [chars]
      exact ⟨_, if_pos ⟨decimal, date⟩⟩
    next => exact nomatch valid
  next => exact nomatch valid

theorem toDigits_eq_padded_iff {n m : Nat} (small : m < 10000) :
    Nat.toDigits 10 n = Calendar.padded 4 m ↔ n = m ∧ 1000 ≤ m := by
  have three : (Nat.toDigits 10 m).length ≤ 3 ↔ m < 10 ^ 3 :=
    Nat.length_toDigits_le_iff (by decide) (by decide)
  have four : (Nat.toDigits 10 m).length ≤ 4 ↔ m < 10 ^ 4 :=
    Nat.length_toDigits_le_iff (by decide) (by decide)
  constructor
  · intro same
    have value := congrArg (fun digits => Nat.ofDigitChars 10 digits 0) same
    rw [Nat.ofDigitChars_ten_toDigits, Calendar.ofDigitChars_padded] at value
    have length := congrArg List.length same
    rw [Calendar.length_padded (by decide) small, value] at length
    omega
  · rintro ⟨rfl, large⟩
    unfold Calendar.padded List.leftpad
    rw [show 4 - (Nat.toDigits 10 n).length = 0 by omega]
    rfl

/-- **The local date of an instant** is the text of a date iff the instant is on its day, and its year is not
padded. -/
theorem getLocalISODate_eq_iff {t : Int} {date : Date} (valid : date.Valid) (written : date.Written) :
    (getLocalISODate offset t).toList = date.text ↔ localDay offset t = date.toDay ∧ 1000 ≤ date.year := by
  have text : (getLocalISODate offset t).toList = (toString (Date.ofDay (localDay offset t)).year).toList ++
      '-' :: (Calendar.padded 2 (Date.ofDay (localDay offset t)).month ++
        '-' :: Calendar.padded 2 (Date.ofDay (localDay offset t)).dayOfMonth.toNat) := by
    unfold getLocalISODate
    simp [String.toList_append]
  have bounds := Date.ofDay_bounds (localDay offset t)
  have small : date.year.toNat < 10000 := by
    unfold Date.Written at written
    omega
  have noMinus : ∀ width n, '-' ∉ Calendar.padded width n := Calendar.minus_not_mem_padded
  rw [text, Date.text_written written, Join.toList_toString]
  constructor
  · intro same
    by_cases natural : 0 ≤ (Date.ofDay (localDay offset t)).year
    · rw [if_pos natural] at same
      have noMinus' : ∀ n, '-' ∉ Nat.toDigits 10 n := fun n minus =>
        absurd (Nat.isDigit_of_mem_toDigits (by decide) (by decide) minus) (by decide)
      obtain ⟨year, same⟩ := Join.append_cons_inj (noMinus' _) (noMinus 4 _) same
      obtain ⟨month, day⟩ := Join.append_cons_inj (noMinus 2 _) (noMinus 2 _) same
      obtain ⟨year, large⟩ := (toDigits_eq_padded_iff small).mp year
      have month := Calendar.padded_injective month
      have day := Calendar.padded_injective day
      have first := valid.first
      have dates : Date.ofDay (localDay offset t) = date := by
        unfold Date.Written at written
        generalize Date.ofDay (localDay offset t) = shown at *
        obtain ⟨y, m, d⟩ := shown
        obtain ⟨y', m', d'⟩ := date
        simp only at *
        simp only [Date.mk.injEq]
        exact ⟨by omega, month, by omega⟩
      exact ⟨by rw [← dates, Date.toDay_ofDay], by omega⟩
    · -- a year with a sign
      rw [if_neg natural] at same
      have length : (Calendar.padded 4 date.year.toNat).length = 4 := Calendar.length_padded (by decide) small
      have minus : '-' ∈ Calendar.padded 4 date.year.toNat := by
        match Calendar.padded 4 date.year.toNat, length, same with
        | c :: _, _, same => exact (List.cons.inj same).1 ▸ List.mem_cons_self
      exact absurd minus (noMinus 4 _)
  · rintro ⟨day, large⟩
    rw [day, Date.ofDay_toDay valid, if_pos written.1,
      (toDigits_eq_padded_iff small).mpr ⟨rfl, by omega⟩]

end Texts

/-! ### Every planned date in its section -/

/-- The planned date, of an item whose text is one. -/
def PlanningItem.date (item : PlanningItem) : Date := (Date.parse item.dateStr.toList).getD ⟨1970, 1, 1⟩

def PlanningItem.day (item : PlanningItem) : Int := item.date.toDay

/-- A section shows the issues that have such a date, each of them once. -/
structure ShowsOnce (section_ : Option (List PlanningItem)) (items : List PlanningItem)
    (such : PlanningItem → Prop) :
    Prop where
  shown : ∀ item ∈ items, such item → ∃ listed, section_ = some listed ∧
    ∃ other ∈ listed, other.issue.id = item.issue.id
  only : ∀ listed, section_ = some listed → ∀ item ∈ listed, item ∈ items ∧ such item
  once : ∀ listed, section_ = some listed → (listed.map fun item => item.issue.id).Nodup

/-- The planned dates are in the sections of their days. -/
structure Placed (offset now : Int) (days : List (Bucket String PlanningItem)) (items : List PlanningItem) :
    Prop where
  past : ShowsOnce (contents days "day-past") items fun item => item.day < localDay offset now
  inside : ∀ i : Nat, i < 10 → contents days ("day-" ++ getLocalISODate offset (addDays offset now i)) =
    some (items.filter fun item => item.day = localDay offset now + i)
  future : ShowsOnce (contents days "day-future") items fun item => localDay offset now + 10 ≤ item.day

/-- No date of the ten days has a year that is padded; and west of Greenwich none is today, and an issue with
one that is ten days ahead has a later one, too. -/
structure Fitting (offset now : Int) (items : List PlanningItem) : Prop where
  years : ∀ item ∈ items, localDay offset now ≤ item.day → item.day < localDay offset now + 10 →
    1000 ≤ item.date.year
  west : offset < 0 → ∀ item ∈ items, item.day ≠ localDay offset now ∧
    (item.day = localDay offset now + 10 →
      ∃ other ∈ items, other.issue.id = item.issue.id ∧ localDay offset now + 10 < other.day)

section ValidDates

variable {offset : Int} {otherDate : List Char → Option Int} {now : Int} {item : PlanningItem}

theorem date_of_valid (valid : isDate item.dateStr = true) :
    item.date.Valid ∧ item.date.Written ∧ item.dateStr.toList = item.date.text := by
  obtain ⟨date, parsed⟩ := parse_of_isDate valid
  have same : item.date = date := by
    unfold PlanningItem.date
    rw [parsed]
    rfl
  rw [same]
  exact Date.parse_iff.mp parsed

/-- A planned date is shown on its day, west of Greenwich on the day before. -/
theorem shownDay_of_valid (real : IsOffset offset) (valid : isDate item.dateStr = true) :
    shownDay offset otherDate item = some (if offset < 0 then item.day - 1 else item.day) := by
  obtain ⟨date, written, text⟩ := date_of_valid valid
  unfold shownDay plannedDate
  rw [text, newDate_text date written, Option.map_some, Calendar.localDay_midnight real]
  rfl

theorem isPast_iff (real : IsOffset offset) (valid : isDate item.dateStr = true) :
    isPast offset otherDate now item = true ↔
      (if offset < 0 then item.day - 1 else item.day) < localDay offset now := by
  unfold isPast
  rw [shownDay_of_valid real valid, Option.any_some, decide_eq_true_eq]

theorem isFuture_iff (real : IsOffset offset) (valid : isDate item.dateStr = true) :
    isFuture offset otherDate now item = true ↔
      localDay offset now + 10 ≤ if offset < 0 then item.day - 1 else item.day := by
  unfold isFuture
  rw [shownDay_of_valid real valid, Option.any_some, decide_eq_true_eq]

/-- The texts of dates have a hyphen. -/
theorem hyphen_mem_localISODate (t : Int) : '-' ∈ (getLocalISODate offset t).toList := by
  unfold getLocalISODate
  simp [String.toList_append]

theorem hyphen_mem_of_valid (valid : isDate item.dateStr = true) : '-' ∈ item.dateStr.toList := by
  obtain ⟨_, written, text⟩ := date_of_valid valid
  rw [text, Date.text_written written]
  simp

/-- The sections of days are not those of the past and the future. -/
theorem day_ne {text : String} (hyphen : '-' ∈ text.toList) :
    "day-" ++ text ≠ "day-past" ∧ "day-" ++ text ≠ "day-future" := by
  have cancel : ∀ other : String, "day-" ++ text = "day-" ++ other → text = other := fun other same => by
    have chars := congrArg String.toList same
    rw [String.toList_append, String.toList_append] at chars
    exact String.toList_inj.mp (List.append_cancel_left chars)
  constructor
  · intro same
    exact absurd (cancel "past" same ▸ hyphen) (by decide)
  · intro same
    exact absurd (cancel "future" same ▸ hyphen) (by decide)

theorem localISODate_congr {t u : Int} (same : localDay offset t = localDay offset u) :
    getLocalISODate offset t = getLocalISODate offset u := by
  unfold getLocalISODate
  rw [same]

theorem localDay_addDays (t : Int) (n : Int) : localDay offset (addDays offset t n) = localDay offset t + n :=
  Calendar.localDay_localTime ⟨Int.emod_nonneg _ (by decide), Int.emod_lt_of_pos _ (by decide)⟩

/-- The day `i` days from now begins `i` days after today's beginning. -/
theorem localISODate_today (n : Int) :
    getLocalISODate offset (addDays offset (setTime offset now 0) n) =
      getLocalISODate offset (addDays offset now n) := by
  refine localISODate_congr ?_
  rw [localDay_addDays, localDay_addDays, setTime, Calendar.localDay_localTime (by decide)]

variable {items : List PlanningItem}

theorem mem_sectionIds {id : String} :
    id ∈ sectionIds offset otherDate now items ↔
      (id = "day-past" ∧ ∃ item ∈ items, isPast offset otherDate now item = true) ∨
      (∃ i : Nat, i < 10 ∧ id = "day-" ++ getLocalISODate offset (addDays offset now i)) ∨
      (id = "day-future" ∧ ∃ item ∈ items, isFuture offset otherDate now item = true) := by
  unfold sectionIds
  simp only [localISODate_today, List.mem_append, List.mem_ite_nil_right, List.mem_singleton,
    List.any_eq_true,
    List.mem_map, List.mem_range]
  constructor
  · rintro ((⟨some_, same⟩ | ⟨i, inside, same⟩) | ⟨some_, same⟩)
    · exact .inl ⟨same, some_⟩
    · exact .inr (.inl ⟨i, inside, same.symm⟩)
    · exact .inr (.inr ⟨same, some_⟩)
  · rintro (⟨same, some_⟩ | ⟨i, inside, same⟩ | ⟨same, some_⟩)
    · exact .inl (.inl ⟨some_, same⟩)
    · exact .inl (.inr ⟨i, inside, same.symm⟩)
    · exact .inr ⟨some_, same⟩

theorem past_mem_sectionIds :
    "day-past" ∈ sectionIds offset otherDate now items ↔
      ∃ item ∈ items, isPast offset otherDate now item = true := by
  rw [mem_sectionIds]
  constructor
  · rintro (⟨_, some_⟩ | ⟨i, _, same⟩ | ⟨same, _⟩)
    · exact some_
    · exact absurd same.symm (day_ne (hyphen_mem_localISODate _)).1
    · exact absurd same (by decide)
  · exact fun some_ => .inl ⟨rfl, some_⟩

theorem future_mem_sectionIds :
    "day-future" ∈ sectionIds offset otherDate now items ↔
      ∃ item ∈ items, isFuture offset otherDate now item = true := by
  rw [mem_sectionIds]
  constructor
  · rintro (⟨same, _⟩ | ⟨i, _, same⟩ | ⟨_, some_⟩)
    · exact absurd same (by decide)
    · exact absurd same.symm (day_ne (hyphen_mem_localISODate _)).2
    · exact some_
  · exact fun some_ => .inr (.inr ⟨rfl, some_⟩)

theorem targetOf_past (valid : isDate item.dateStr = true) :
    targetOf offset otherDate now item = "day-past" ↔ isPast offset otherDate now item = true := by
  unfold targetOf
  split
  next past => exact ⟨fun _ => past, fun _ => rfl⟩
  next past =>
    refine ⟨fun same => ?_, fun isPast => absurd isPast past⟩
    split at same
    next => exact absurd same (by decide)
    next => exact absurd same (day_ne (hyphen_mem_of_valid valid)).1

theorem targetOf_future (valid : isDate item.dateStr = true) :
    targetOf offset otherDate now item = "day-future" ↔ isFuture offset otherDate now item = true := by
  unfold targetOf
  split
  next past =>
    exact ⟨fun same => absurd same (by decide),
      fun future => absurd future (Bool.eq_false_iff.mp (not_isFuture_of_isPast past))⟩
  next past =>
    split
    next future => exact ⟨fun _ => future, fun _ => rfl⟩
    next future =>
      exact ⟨fun same => absurd same (day_ne (hyphen_mem_of_valid valid)).2,
        fun isFuture => absurd isFuture future⟩

/-- A date that is neither past nor future is for the section of its own day, if its year is not padded. -/
theorem targetOf_day (valid : isDate item.dateStr = true) (t : Int) :
    targetOf offset otherDate now item = "day-" ++ getLocalISODate offset t ↔
      ¬ isPast offset otherDate now item = true ∧ ¬ isFuture offset otherDate now item = true ∧
        localDay offset t = item.day ∧ 1000 ≤ item.date.year := by
  obtain ⟨date, written, text⟩ := date_of_valid valid
  have hyphen : '-' ∈ (getLocalISODate offset t).toList := hyphen_mem_localISODate t
  unfold targetOf
  split
  next past => exact ⟨fun same => absurd same.symm (day_ne hyphen).1, fun all => absurd past all.1⟩
  next past =>
    split
    next future => exact ⟨fun same => absurd same.symm (day_ne hyphen).2, fun all => absurd future all.2.1⟩
    next future =>
      have texts : "day-" ++ item.dateStr = "day-" ++ getLocalISODate offset t ↔
          (getLocalISODate offset t).toList = item.date.text := by
        rw [← text, ← String.toList_inj, String.toList_append, String.toList_append,
          List.append_cancel_left_eq]
        exact eq_comm
      rw [texts, getLocalISODate_eq_iff date written]
      exact ⟨fun both => ⟨past, future, both⟩, fun all => all.2.2⟩

end ValidDates

/-! ### The past and the future -/

/-- A class of dates of which an issue is shown one, with the section it is shown in. -/
structure Outer (offset : Int) (otherDate : List Char → Option Int) (now : Int) (items : List PlanningItem)
    (id : String) (isOuter : PlanningItem → Bool) : Prop where
  known : id ∈ sectionIds offset otherDate now items ↔ ∃ item ∈ items, isOuter item = true
  target : ∀ item ∈ items, targetOf offset otherDate now item = id ↔ isOuter item = true
  again : ∀ a b, isOuter a = true →
    (isAgain offset otherDate now a b = true ↔ a.issue.id = b.issue.id ∧ isOuter b = true)

section Outer

variable {offset : Int} {otherDate : List Char → Option Int} {now : Int} {items : List PlanningItem}
  {id : String} {isOuter such : PlanningItem → Bool}

theorem outer_past (valid : ∀ item ∈ items, isDate item.dateStr = true) :
    Outer offset otherDate now items "day-past" (isPast offset otherDate now) where
  known := past_mem_sectionIds
  target := fun item member => targetOf_past (valid item member)
  again := fun a b past => by
    unfold isAgain
    rw [past, not_isFuture_of_isPast past]
    simp

theorem outer_future (valid : ∀ item ∈ items, isDate item.dateStr = true) :
    Outer offset otherDate now items "day-future" (isFuture offset otherDate now) where
  known := future_mem_sectionIds
  target := fun item member => targetOf_future (valid item member)
  again := fun a b future => by
    have notPast : isPast offset otherDate now a = false := Bool.eq_false_iff.mpr fun past =>
      absurd future (Bool.eq_false_iff.mp (not_isFuture_of_isPast past))
    unfold isAgain
    rw [future, notPast]
    simp

/-- What the section holds. -/
abbrev listed (offset : Int) (otherDate : List Char → Option Int) (now : Int) (items : List PlanningItem)
    (id : String) : Option (List PlanningItem) :=
  if id ∈ sectionIds offset otherDate now items then
    some ((withoutAgain offset otherDate now items).filter fun item =>
      targetOf offset otherDate now item = id)
  else none

theorem Outer.mem_listed (outer : Outer offset otherDate now items id isOuter) {found : List PlanningItem}
    (here : listed offset otherDate now items id = some found) {item : PlanningItem} (member : item ∈ found) :
    item ∈ items ∧ isOuter item = true := by
  unfold listed at here
  split at here
  next =>
    cases here
    obtain ⟨left, target⟩ := List.mem_filter.mp member
    have among := Buckets.mem_of_mem_firsts left
    exact ⟨among, (outer.target item among).mp (of_decide_eq_true target)⟩
  next => exact nomatch here

/-- **Each issue is shown.** -/
theorem Outer.shown (outer : Outer offset otherDate now items id isOuter) {item : PlanningItem}
    (member : item ∈ items) (isIn : isOuter item = true) :
    ∃ found, listed offset otherDate now items id = some found ∧
      ∃ other ∈ found, other.issue.id = item.issue.id := by
  refine ⟨_, if_pos (outer.known.mpr ⟨item, member, isIn⟩), ?_⟩
  rcases Buckets.exists_mem_firsts (isAgain offset otherDate now) member with left | ⟨other, left, again⟩
  · exact ⟨item, List.mem_filter.mpr ⟨left, decide_eq_true ((outer.target item member).mpr isIn)⟩, rfl⟩
  · obtain ⟨same, isIn'⟩ := (outer.again item other isIn).mp again
    have among := Buckets.mem_of_mem_firsts left
    exact ⟨other, List.mem_filter.mpr ⟨left, decide_eq_true ((outer.target other among).mpr isIn')⟩,
      same.symm⟩

/-- **Once.** -/
theorem Outer.once (outer : Outer offset otherDate now items id isOuter) {found : List PlanningItem}
    (here : listed offset otherDate now items id = some found) :
    (found.map fun item => item.issue.id).Nodup := by
  have inside : ∀ item ∈ found, item ∈ items ∧ isOuter item = true := fun item => outer.mem_listed here
  unfold listed at here
  split at here
  next =>
    cases here
    rw [List.Nodup, List.pairwise_map]
    refine List.Pairwise.imp_of_mem (fun {a b} first second fresh same => ?_)
      ((Buckets.pairwise_firsts items).filter _)
    exact absurd ((outer.again b a (inside b second).2).mpr ⟨same.symm, (inside a first).2⟩)
      (Bool.eq_false_iff.mp fresh)
  next => exact nomatch here

/-- The section shows the right issues if its class is the right one, but for further dates of its issues. -/
theorem Outer.showsOnce (outer : Outer offset otherDate now items id isOuter) {such : PlanningItem → Prop}
    (right : ∀ item ∈ items, isOuter item = true → such item)
    (covered : ∀ item ∈ items, such item → ∃ other ∈ items, isOuter other = true ∧
      other.issue.id = item.issue.id) :
    ShowsOnce (listed offset otherDate now items id) items such where
  shown := fun item member isSuch => by
    obtain ⟨other, among, isIn, same⟩ := covered item member isSuch
    obtain ⟨found, here, another, inside, same'⟩ := outer.shown among isIn
    exact ⟨found, here, another, inside, same'.trans same⟩
  only := fun found here item member =>
    have inside := outer.mem_listed here member
    ⟨inside.1, right item inside.1 inside.2⟩
  once := fun found here => outer.once here

/-- An issue that is shown has a date of the class. -/
theorem Outer.covered (outer : Outer offset otherDate now items id isOuter) {such : PlanningItem → Prop}
    (shows_ : ShowsOnce (listed offset otherDate now items id) items such) {item : PlanningItem}
    (member : item ∈ items) (isSuch : such item) :
    ∃ other ∈ items, isOuter other = true ∧ other.issue.id = item.issue.id := by
  obtain ⟨found, here, other, inside, same⟩ := shows_.shown item member isSuch
  obtain ⟨among, isIn⟩ := outer.mem_listed here inside
  exact ⟨other, among, isIn, same⟩

end Outer

/-! ### When the dates are placed -/

section PlacedIff

variable {offset : Int} {otherDate : List Char → Option Int} {now : Int} {items : List PlanningItem}

theorem class_of_day {item : PlanningItem} {t : Int}
    (target : targetOf offset otherDate now item = "day-" ++ getLocalISODate offset t) :
    isPast offset otherDate now item = false ∧ isFuture offset otherDate now item = false := by
  have hyphen : '-' ∈ (getLocalISODate offset t).toList := hyphen_mem_localISODate t
  unfold targetOf at target
  split at target
  next => exact absurd target.symm (day_ne hyphen).1
  next past =>
    split at target
    next => exact absurd target.symm (day_ne hyphen).2
    next future => exact ⟨Bool.eq_false_iff.mpr past, Bool.eq_false_iff.mpr future⟩

/-- The section of one of the ten days. -/
theorem listed_day {i : Nat} (inside : i < 10) :
    listed offset otherDate now items ("day-" ++ getLocalISODate offset (addDays offset now i)) =
      some (items.filter fun item =>
        targetOf offset otherDate now item = "day-" ++ getLocalISODate offset (addDays offset now i)) := by
  have known : "day-" ++ getLocalISODate offset (addDays offset now i) ∈
      sectionIds offset otherDate now items :=
    mem_sectionIds.mpr (.inr (.inl ⟨i, inside, rfl⟩))
  refine (if_pos known).trans (congrArg some (Buckets.filter_firsts (fun a b target => ?_) items))
  obtain ⟨past, future⟩ := class_of_day (of_decide_eq_true target)
  unfold isAgain
  rw [past, future]
  simp

/-- A date is in the section of its day. -/
theorem listed_day_iff (valid : ∀ item ∈ items, isDate item.dateStr = true) {i : Nat} (inside : i < 10) :
    listed offset otherDate now items ("day-" ++ getLocalISODate offset (addDays offset now i)) =
        some (items.filter fun item => item.day = localDay offset now + i) ↔
      ∀ item ∈ items, item.day = localDay offset now + i →
        ¬ isPast offset otherDate now item = true ∧ ¬ isFuture offset otherDate now item = true ∧
          1000 ≤ item.date.year := by
  rw [listed_day inside, Option.some.injEq, Buckets.filter_eq_filter_iff]
  refine forall₂_congr fun item member => ?_
  rw [Bool.eq_iff_iff, decide_eq_true_eq, decide_eq_true_eq, targetOf_day (valid item member),
    localDay_addDays]
  constructor
  · intro same day
    obtain ⟨past, future, _, year⟩ := same.mpr day
    exact ⟨past, future, year⟩
  · intro fits
    constructor
    · exact fun target => target.2.2.1.symm
    · intro day
      obtain ⟨past, future, year⟩ := fits day
      exact ⟨past, future, day.symm, year⟩

variable {days : List (Bucket String PlanningItem)}

/-- Dates that are placed fit: one in a wrong class is missing from its own section. -/
theorem Placed.fitting (placed : Placed offset now days items) (real : IsOffset offset)
    (valid : ∀ item ∈ items, isDate item.dateStr = true)
    (held : ∀ id, contents days id = listed offset otherDate now items id) : Fitting offset now items := by
  have past := fun item member => @isPast_iff offset otherDate now item real (valid item member)
  have future := fun item member => @isFuture_iff offset otherDate now item real (valid item member)
  have inside : ∀ item ∈ items, localDay offset now ≤ item.day → item.day < localDay offset now + 10 →
      ¬ isPast offset otherDate now item = true ∧ ¬ isFuture offset otherDate now item = true ∧
        1000 ≤ item.date.year := by
    intro item member first last
    have small : (item.day - localDay offset now).toNat < 10 := by omega
    have here := placed.inside _ small
    rw [held] at here
    exact (listed_day_iff valid small).mp here item member (by omega)
  refine ⟨fun item member first last => (inside item member first last).2.2,
    fun west item member => ⟨?_, ?_⟩⟩
  · intro today
    refine (inside item member (by omega) (by omega)).1 ((past item member).mpr ?_)
    rw [if_pos west]
    omega
  · intro ahead
    have shows_ := placed.future
    rw [held] at shows_
    obtain ⟨other, among, isFuture, same⟩ := (outer_future valid).covered shows_ member (by omega)
    have later := (future other among).mp isFuture
    rw [if_pos west] at later
    exact ⟨other, among, same, by omega⟩

/-- The past section of fitting dates. -/
theorem Fitting.past (fitting : Fitting offset now items) (real : IsOffset offset)
    (valid : ∀ item ∈ items, isDate item.dateStr = true) :
    ShowsOnce (listed offset otherDate now items "day-past") items fun item =>
      item.day < localDay offset now := by
  refine (outer_past valid).showsOnce (fun item member isPast => ?_) fun item member early =>
    ⟨item, member, (isPast_iff real (valid item member)).mpr ?_, rfl⟩
  · have day := (isPast_iff real (valid item member)).mp isPast
    have west := fitting.west
    split at day
    next negative =>
      have notToday := (west negative item member).1
      omega
    next => exact day
  · split <;> omega

/-- The section of one of the ten days, of fitting dates. -/
theorem Fitting.inside (fitting : Fitting offset now items) (real : IsOffset offset)
    (valid : ∀ item ∈ items, isDate item.dateStr = true) {i : Nat} (inside : i < 10) :
    listed offset otherDate now items ("day-" ++ getLocalISODate offset (addDays offset now i)) =
      some (items.filter fun item => item.day = localDay offset now + i) := by
  refine (listed_day_iff valid inside).mpr fun item member day => ?_
  have year := fitting.years item member (by omega) (by omega)
  have west := fitting.west
  rw [isPast_iff real (valid item member), isFuture_iff real (valid item member)]
  split
  next negative =>
    have notToday := (west negative item member).1
    exact ⟨by omega, by omega, year⟩
  next => exact ⟨by omega, by omega, year⟩

/-- The future section of fitting dates: west of Greenwich an issue that is ten days ahead is there with its
later date. -/
theorem Fitting.future (fitting : Fitting offset now items) (real : IsOffset offset)
    (valid : ∀ item ∈ items, isDate item.dateStr = true) :
    ShowsOnce (listed offset otherDate now items "day-future") items fun item =>
      localDay offset now + 10 ≤ item.day := by
  have future := fun item member => @isFuture_iff offset otherDate now item real (valid item member)
  refine (outer_future valid).showsOnce (fun item member isFuture => ?_) fun item member late => ?_
  · have day := (future item member).mp isFuture
    split at day <;> omega
  · by_cases negative : offset < 0
    · by_cases ahead : item.day = localDay offset now + 10
      · obtain ⟨other, among, same, later⟩ := (fitting.west negative item member).2 ahead
        refine ⟨other, among, (future other among).mpr ?_, same⟩
        rw [if_pos negative]
        omega
      · refine ⟨item, member, (future item member).mpr ?_, rfl⟩
        rw [if_pos negative]
        omega
    · refine ⟨item, member, (future item member).mpr ?_, rfl⟩
      rwa [if_neg negative]

variable (toLowerCase : String → String) (issues : List Issue) (filter : ViewFilter)
  (currentUserId : Option Int)

/-- **When every planned date is in the section of its day.** -/
theorem planned_dates_placed_iff (real : IsOffset offset)
    (valid : ∀ issue ∈ issues, ∀ dateStr ∈ plannedDatesOf issue, isDate dateStr = true) :
    Placed offset now (renderPlanningPanel offset otherDate toLowerCase now issues filter currentUserId).days
        (occurrences (filterIssues toLowerCase issues filter.toFilter currentUserId)) ↔
      Fitting offset now (occurrences (filterIssues toLowerCase issues filter.toFilter currentUserId)) := by
  have held := @render_days offset otherDate now toLowerCase issues filter currentUserId
  have valid : ∀ item ∈ occurrences (filterIssues toLowerCase issues filter.toFilter currentUserId),
      isDate item.dateStr = true := by
    intro item member
    obtain ⟨issue, kept, inside⟩ := List.mem_flatMap.mp member
    obtain ⟨dateStr, listed, rfl⟩ := List.mem_map.mp inside
    rw [filterIssues_eq] at kept
    exact valid issue (List.mem_of_mem_filter kept) dateStr listed
  constructor
  · exact fun placed => placed.fitting real valid held
  · intro fitting
    refine ⟨?_, fun i inside => ?_, ?_⟩
    · rw [held]
      exact fitting.past real valid
    · rw [held]
      exact fitting.inside real valid inside
    · rw [held]
      exact fitting.future real valid

end PlacedIff

/-- An issue that is planned for 2026-05-01. -/
def plannedIssue (status : IssueStatus) : Issue :=
  { id := 7, status, priority := .normal, plannedDates := some ["2026-05-01"] }

/-- The noon of 2026-05-01 at an offset. -/
def plannedNoon (offset : Int) : Int := localTime offset (Date.toDay ⟨2026, 5, 1⟩) (12 * msPerHour)

/-- **Five hours west of Greenwich**, an issue that is planned for today is not in today's section. -/
theorem planned_today_missing :
    ¬ ∀ (offset now : Int) (otherDate : List Char → Option Int) (toLowerCase : String → String)
      (issues : List Issue) (filter : ViewFilter) (currentUserId : Option Int), IsOffset offset →
      (∀ issue ∈ issues, ∀ dateStr ∈ plannedDatesOf issue, isDate dateStr = true) →
      Placed offset now (renderPlanningPanel offset otherDate toLowerCase now issues filter currentUserId).days
        (occurrences (filterIssues toLowerCase issues filter.toFilter currentUserId)) := by
  intro placed
  have valid : ∀ issue ∈ [plannedIssue .todo], ∀ dateStr ∈ plannedDatesOf issue, isDate dateStr = true := by
    intro issue member dateStr listed
    cases List.mem_singleton.mp member
    cases List.mem_singleton.mp listed
    decide
  have here := (placed (-5 * msPerHour) (plannedNoon (-5 * msPerHour)) (fun _ => none) id [plannedIssue .todo] {}
    none (by decide) valid).inside 0 (by decide)
  exact absurd (congrArg (Option.map List.length) here) (by decide +kernel)

/-- East of Greenwich, it is. -/
theorem planned_today_placed :
    Placed msPerHour (plannedNoon msPerHour)
        (renderPlanningPanel msPerHour (fun _ => none) id (plannedNoon msPerHour) [plannedIssue .todo]
          {} none).days
        (occurrences (filterIssues id [plannedIssue .todo] ({} : ViewFilter).toFilter none)) := by
  refine (planned_dates_placed_iff id [plannedIssue .todo] {} none (by decide) ?_).mpr ?_
  · intro issue member dateStr listed
    cases List.mem_singleton.mp member
    cases List.mem_singleton.mp listed
    decide
  · exact { years := by decide +kernel, west := fun west => absurd west (by decide) }

/-! ### The counter -/

section Counter

variable (offset : Int) (otherDate : List Char → Option Int) (now : Int)

/-- The planned dates that have an item: no second past or future date of an issue, and none without a
section. -/
def shownItems (items : List PlanningItem) : List PlanningItem :=
  (withoutAgain offset otherDate now items).filter fun item =>
    targetOf offset otherDate now item ∈ sectionIds offset otherDate now items

/-- The planned dates of finished issues that have an item. -/
def finishedShown (items : List PlanningItem) : Nat :=
  (shownItems offset otherDate now items).countP fun item => isFinished item.issue

variable (toLowerCase : String → String) (issues : List Issue) (filter : ViewFilter)
  (currentUserId : Option Int)

/-- What unfinished issues have that is not shown: issues that are left out, and planned dates without an
item. -/
def unfinishedHidden : Nat :=
  let items := occurrences (filterIssues toLowerCase issues filter.toFilter currentUserId)
  ((issues.filter fun issue =>
      !passes toLowerCase filter.toFilter currentUserId issue && !isFinished issue).map
    (totalOf offset)).sum +
  (items.countP (fun item => !isFinished item.issue) -
    (shownItems offset otherDate now items).countP fun item => !isFinished item.issue)

variable {offset otherDate now toLowerCase filter currentUserId} {issues}

theorem foldl_total (start : Nat) :
    issues.foldl (fun total issue => if isFinished issue then total else total + totalOf offset issue) start =
      start + ((issues.filter fun issue => !isFinished issue).map (totalOf offset)).sum := by
  induction issues generalizing start with
  | nil => rfl
  | cons issue issues ih =>
      rw [List.foldl_cons, ih, List.filter_cons]
      cases isFinished issue with
      | true => rfl
      | false =>
          simp only [Bool.false_eq_true, if_false, Bool.not_false, if_true, List.map_cons, List.sum_cons]
          omega

/-- The issues that are left out, and those that are kept. -/
theorem sum_filter (keeps : Issue → Bool) (f : Issue → Nat) :
    ((issues.filter fun issue => !isFinished issue).map f).sum =
      ((issues.filter fun issue => !keeps issue && !isFinished issue).map f).sum +
        (((issues.filter keeps).filter fun issue => !isFinished issue).map f).sum := by
  induction issues with
  | nil => rfl
  | cons issue issues ih =>
      rw [List.filter_filter] at ih ⊢
      cases kept : keeps issue <;> cases finished : isFinished issue <;>
        simp only [List.filter_cons, kept, finished, Bool.not_true, Bool.not_false, Bool.and_true,
          Bool.and_false,
          Bool.false_eq_true, if_true, if_false, List.map_cons, List.sum_cons] <;> omega

theorem occurrences_cons (issue : Issue) (issues : List Issue) :
    occurrences (issue :: issues) = (plannedDatesOf issue).map (PlanningItem.mk issue) ++
      occurrences issues := rfl

/-- The unfinished issues that are kept: without planned date, and their planned dates. -/
theorem sum_totalOf (kept : List Issue) :
    ((kept.filter fun issue => !isFinished issue).map (totalOf offset)).sum =
      (kept.filter fun issue => isUnscheduled offset issue && !isFinished issue).length +
        (occurrences kept).countP fun item => !isFinished item.issue := by
  induction kept with
  | nil => rfl
  | cons issue kept ih =>
      have dates : ((plannedDatesOf issue).map (PlanningItem.mk issue)).countP
          (fun item => !isFinished item.issue) =
          if isFinished issue then 0 else (plannedDatesOf issue).length := by
        rw [List.countP_map]
        cases finished : isFinished issue with
        | true => exact List.countP_eq_zero.mpr fun dateStr _ => by simp [finished]
        | false => exact List.countP_eq_length.mpr fun dateStr _ => by simp [finished]
      rw [occurrences_cons, List.countP_append, dates, List.filter_cons, List.filter_cons]
      cases finished : isFinished issue with
      | true => simpa using ih
      | false =>
          cases unscheduled : isUnscheduled offset issue <;>
            simp [totalOf, unscheduled, ih] <;> omega

/-- The planned dates with an item are among the planned dates. -/
theorem shownItems_sublist (items : List PlanningItem) :
    (shownItems offset otherDate now items).Sublist items :=
  List.filter_sublist.trans (Buckets.firsts_sublist items)

variable (offset otherDate now toLowerCase issues filter currentUserId)

/-- The first number. -/
theorem render_count_eq :
    let items := occurrences (filterIssues toLowerCase issues filter.toFilter currentUserId)
    (renderPlanningPanel offset otherDate toLowerCase now issues filter currentUserId).count =
      ((filterIssues toLowerCase issues filter.toFilter currentUserId).filter fun issue =>
        isUnscheduled offset issue && !isFinished issue).length + finishedShown offset otherDate now items +
      (shownItems offset otherDate now items).countP fun item => !isFinished item.issue := by
  have count := @render_count offset otherDate now toLowerCase issues filter currentUserId
  dsimp only at count ⊢
  rw [count, List.countP_eq_length_filter, Nat.add_assoc]
  refine congrArg₂ _ (List.length_insertionSort _ _) ?_
  have split := List.length_eq_countP_add_countP (fun item => isFinished item.issue)
    (l := shownItems offset otherDate now (occurrences (filterIssues toLowerCase issues filter.toFilter currentUserId)))
  unfold finishedShown
  simp only [Bool.not_eq_true, Bool.decide_eq_false] at split
  exact split

/-- The second number. -/
theorem render_total_eq (active : isFilterActive filter = true) :
    let items := occurrences (filterIssues toLowerCase issues filter.toFilter currentUserId)
    (renderPlanningPanel offset otherDate toLowerCase now issues filter currentUserId).totalCount =
      some (((filterIssues toLowerCase issues filter.toFilter currentUserId).filter fun issue =>
          isUnscheduled offset issue && !isFinished issue).length +
        unfinishedHidden offset otherDate now toLowerCase issues filter currentUserId +
        (shownItems offset otherDate now items).countP fun item => !isFinished item.issue) := by
  have shown := (@shownItems_sublist offset otherDate now
    (occurrences (filterIssues toLowerCase issues filter.toFilter currentUserId))).countP_le
      (p := fun item => !isFinished item.issue)
  have kept := @sum_totalOf offset (filterIssues toLowerCase issues filter.toFilter currentUserId)
  have total := @sum_filter issues (passes toLowerCase filter.toFilter currentUserId) (totalOf offset)
  rw [← filterIssues_eq, kept] at total
  dsimp only
  unfold renderPlanningPanel unfinishedHidden
  dsimp only
  rw [if_pos active, foldl_total, total]
  refine congrArg some ?_
  omega

/-- **When the counter is right**: the finished issues show at most as many planned dates as the unfinished
ones hide, and just as many if nothing is left out. -/
theorem planning_counter_iff (active : isFilterActive filter = true) :
    let kept := filterIssues toLowerCase issues filter.toFilter currentUserId
    let panel := renderPlanningPanel offset otherDate toLowerCase now issues filter currentUserId
    (∃ totalCount, panel.totalCount = some totalCount ∧ panel.count ≤ totalCount ∧
        (kept = issues → panel.count = totalCount)) ↔
      (finishedShown offset otherDate now (occurrences kept) ≤
          unfinishedHidden offset otherDate now toLowerCase issues filter currentUserId ∧
        (kept = issues → finishedShown offset otherDate now (occurrences kept) =
          unfinishedHidden offset otherDate now toLowerCase issues filter currentUserId)) := by
  have count := render_count_eq offset otherDate now toLowerCase issues filter currentUserId
  have total := render_total_eq offset otherDate now toLowerCase issues filter currentUserId active
  dsimp only at count total ⊢
  rw [count, total]
  constructor
  · rintro ⟨totalCount, same, le, equal⟩
    cases same
    exact ⟨by omega, fun all => by have := equal all; omega⟩
  · rintro ⟨le, equal⟩
    exact ⟨_, rfl, by omega, fun all => by have := equal all; omega⟩

end Counter

/-- A filter that keeps issues of normal priority. -/
def normalOnly : ViewFilter := { priority := some .normal }

/-- **A finished issue that is planned for today** is counted in the first number only. -/
theorem finished_counted :
    ¬ ∀ (offset now : Int) (otherDate : List Char → Option Int) (toLowerCase : String → String)
      (issues : List Issue) (filter : ViewFilter) (currentUserId : Option Int), isFilterActive filter = true →
      ∃ totalCount,
        (renderPlanningPanel offset otherDate toLowerCase now issues filter currentUserId).totalCount =
          some totalCount ∧
        (renderPlanningPanel offset otherDate toLowerCase now issues filter currentUserId).count ≤
          totalCount := by
  intro right
  obtain ⟨totalCount, total, le⟩ := right 0 (plannedNoon 0) (fun _ => none) id [plannedIssue .done] normalOnly none
    (by decide)
  have none_ : (renderPlanningPanel 0 (fun _ => none) id (plannedNoon 0) [plannedIssue .done] normalOnly
      none).totalCount = some 0 := by decide +kernel
  have one : (renderPlanningPanel 0 (fun _ => none) id (plannedNoon 0) [plannedIssue .done] normalOnly
      none).count = 1 := by decide +kernel
  cases none_.symm.trans total
  exact absurd le (by rw [one]; decide)

/-- The same issue, unfinished. -/
theorem unfinished_counted :
    (∃ totalCount,
        (renderPlanningPanel 0 (fun _ => none) id (plannedNoon 0) [plannedIssue .todo] normalOnly
          none).totalCount =
          some totalCount ∧
        (renderPlanningPanel 0 (fun _ => none) id (plannedNoon 0) [plannedIssue .todo] normalOnly
          none).count ≤
          totalCount ∧
        (filterIssues id [plannedIssue .todo] normalOnly.toFilter none = [plannedIssue .todo] →
          (renderPlanningPanel 0 (fun _ => none) id (plannedNoon 0) [plannedIssue .todo] normalOnly
            none).count =
            totalCount)) := by
  refine (planning_counter_iff 0 (fun _ => none) (plannedNoon 0) id [plannedIssue .todo] normalOnly none
    (by decide)).mpr ?_
  decide +kernel

example : (renderPlanningPanel 0 (fun _ => none) id (plannedNoon 0) [plannedIssue .done] normalOnly
    none).planningCount = "1/0" := by decide +kernel

end Wuflow.Frontend

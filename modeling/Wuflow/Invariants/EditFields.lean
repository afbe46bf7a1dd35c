/-
**An edit records one entry for each field that is shown differently.**

`diffIssueFields` compares assignees, labels and releases by the names under which they are shown, and the
tables of users and labels do not keep names apart.

* `diffIssueFields_field` — a field has one entry if it is shown differently, and none otherwise.
* `deadlineStr_eq_iff` — a deadline is shown as its date.
* `edit_entries_iff` — the entries tell which fields differ, what an issue refers to by its id, if and only
  if names tell apart what ids do.
* `relabelling_unrecorded` — an issue gets another label of the same name, and nothing is recorded.
-/

import Wuflow.Requests.Sequential

namespace Wuflow

/-! ### Fields -/

/-- The fields of an issue that an edit may change. -/
inductive EditField
  | title | description | status | priority | deadline | assignee | label | release
  deriving DecidableEq

/-- The name of a field in the history. -/
def EditField.name : EditField → String
  | .title => "title" | .description => "description" | .status => "status" | .priority => "priority"
  | .deadline => "deadline" | .assignee => "assignee" | .label => "label" | .release => "release"

/-- The field differs: a deadline by its date, what an issue refers to by its id. -/
def EditField.Differs (old updated : Issue) : EditField → Prop
  | .title => old.title ≠ updated.title
  | .description => old.description ≠ updated.description
  | .status => old.status.text ≠ updated.status.text
  | .priority => old.priority.text ≠ updated.priority.text
  | .deadline => old.deadline.map (·.date) ≠ updated.deadline.map (·.date)
  | .assignee => old.assigneeID ≠ updated.assigneeID
  | .label => old.label.map (·.id) ≠ updated.label.map (·.id)
  | .release => old.releaseID ≠ updated.releaseID

/-- The field is shown differently. -/
def EditField.ShownDifferently (old updated : Issue) : EditField → Prop
  | .title => old.title ≠ updated.title
  | .description => old.description ≠ updated.description
  | .status => old.status.text ≠ updated.status.text
  | .priority => old.priority.text ≠ updated.priority.text
  | .deadline => deadlineStr old.deadline ≠ deadlineStr updated.deadline
  | .assignee => assigneeName old ≠ assigneeName updated
  | .label => labelName old ≠ labelName updated
  | .release => releaseName old ≠ releaseName updated

/-- The entries for a field. -/
def entriesFor (changes : List ChangeData) (field : EditField) : List ChangeData :=
  changes.filter fun change => change.field == field.name

theorem entriesFor_append (changes others : List ChangeData) (field : EditField) :
    entriesFor (changes ++ others) field = entriesFor changes field ++ entriesFor others field :=
  List.filter_append changes others

/-- A part of the differences has its entry under its own field only. -/
theorem entriesFor_ite {differs : Prop} [Decidable differs] (change : ChangeData) (field : EditField) :
    entriesFor (if differs then [change] else []) field =
      if differs ∧ change.field = field.name then [change] else [] := by
  unfold entriesFor
  by_cases differ : differs
  · by_cases own : change.field = field.name
    · simp [differ, own]
    · simp [differ, own]
  · simp [differ]

/-- **A field has one entry if it is shown differently**, and none otherwise. -/
theorem diffIssueFields_field (old updated : Issue) (field : EditField) :
    (field.ShownDifferently old updated →
        (entriesFor (diffIssueFields old updated) field).length = 1) ∧
      (¬ field.ShownDifferently old updated → entriesFor (diffIssueFields old updated) field = []) := by
  unfold diffIssueFields changeOf
  simp only [entriesFor_append, entriesFor_ite]
  cases field <;> constructor <;> intro shown <;>
    simp only [EditField.ShownDifferently, not_not] at shown <;> simp [EditField.name, shown]

/-- Every entry is one of a field. -/
theorem diffIssueFields_names {old updated : Issue} {change : ChangeData}
    (member : change ∈ diffIssueFields old updated) : ∃ field : EditField, change.field = field.name := by
  have inside : ∀ (differs : Prop) [Decidable differs] (own : ChangeData),
      change ∈ (if differs then [own] else []) → change = own := by
    intro differs _ own here
    split at here
    · exact List.mem_singleton.mp here
    · exact nomatch here
  unfold diffIssueFields changeOf at member
  simp only [List.mem_append] at member
  rcases member with ((((((title | description) | status) | priority) | deadline) | assignee) | label) | release
  · exact ⟨.title, congrArg ChangeData.field (inside _ _ title)⟩
  · exact ⟨.description, congrArg ChangeData.field (inside _ _ description)⟩
  · exact ⟨.status, congrArg ChangeData.field (inside _ _ status)⟩
  · exact ⟨.priority, congrArg ChangeData.field (inside _ _ priority)⟩
  · exact ⟨.deadline, congrArg ChangeData.field (inside _ _ deadline)⟩
  · exact ⟨.assignee, congrArg ChangeData.field (inside _ _ assignee)⟩
  · exact ⟨.label, congrArg ChangeData.field (inside _ _ label)⟩
  · exact ⟨.release, congrArg ChangeData.field (inside _ _ release)⟩

/-- **A deadline is shown as its date.** -/
theorem deadlineStr_eq_iff (old updated : Option DateTime) :
    deadlineStr old = deadlineStr updated ↔ old.map (·.date) = updated.map (·.date) := by
  have some_ : ∀ t : DateTime, deadlineStr (some t) ≠ "" := by
    intro t none
    have chars : t.date.text = [] := String.ofList_eq_empty_iff.mp none
    unfold Calendar.Date.text at chars
    exact absurd (List.append_eq_nil_iff.mp chars).2 (List.cons_ne_nil _ _)
  have dates : ∀ t u : DateTime, deadlineStr (some t) = deadlineStr (some u) → t.date = u.date := by
    intro t u same
    have chars : t.date.text = u.date.text := String.ofList_inj.mp same
    have texts : t.date.text ++ [] = u.date.text ++ [] := by rw [chars]
    exact (Calendar.Date.text_append_injective texts).1
  cases old with
  | none =>
      cases updated with
      | none => exact ⟨fun _ => rfl, fun _ => rfl⟩
      | some u => exact ⟨fun same => absurd same.symm (some_ u), nofun⟩
  | some t =>
      cases updated with
      | none => exact ⟨fun same => absurd same (some_ t), nofun⟩
      | some u =>
          constructor
          · exact fun same => congrArg some (dates t u same)
          · intro same
            have date : t.date = u.date := Option.some.inj same
            show String.ofList t.date.text = String.ofList u.date.text
            rw [date]

/-! ### Names and ids -/

/-- What an issue refers to is told apart by its name exactly as by its id; nothing at all has the empty
name. -/
def NamesTell {α : Type} (name : α → String) (id : α → Int) : Option α → Option α → Prop
  | none, none => True
  | some x, none | none, some x => name x ≠ ""
  | some x, some y => name x = name y ↔ id x = id y

theorem namesTell_iff {α : Type} (name : α → String) (id : α → Int) (old updated : Option α) :
    NamesTell name id old updated ↔
      ((old.map name).getD "" = (updated.map name).getD "" ↔ old.map id = updated.map id) := by
  cases old with
  | none =>
      cases updated with
      | none => exact ⟨fun _ => ⟨fun _ => rfl, fun _ => rfl⟩, fun _ => trivial⟩
      | some y =>
          constructor
          · exact fun named => ⟨fun same => absurd same.symm named, nofun⟩
          · exact fun same unnamed => nomatch same.mp unnamed.symm
  | some x =>
      cases updated with
      | none =>
          constructor
          · exact fun named => ⟨fun same => absurd same named, nofun⟩
          · exact fun same unnamed => nomatch same.mp unnamed
      | some y =>
          show (name x = name y ↔ id x = id y) ↔ (name x = name y ↔ some (id x) = some (id y))
          rw [Option.some.injEq]

/-- The name under which a user is shown. -/
def User.shownName (user : User) : String := trimSpace (user.firstName ++ " " ++ user.lastName)

/-- Names tell apart what the two issues refer to. -/
structure NamesTellApart (old updated : Issue) : Prop where
  assignee : NamesTell User.shownName (·.id) old.assignee updated.assignee
  label : NamesTell Label.name (·.id) old.label updated.label
  release : NamesTell Release.name (·.id) old.release updated.release

theorem assigneeName_eq (i : Issue) : assigneeName i = (i.assignee.map User.shownName).getD "" := by
  unfold assigneeName
  cases i.assignee with
  | none => rfl
  | some user => rfl

/-- **The entries tell which fields differ**: one for each that does, none for any other. -/
structure TellsChanges (old updated : Issue) : Prop where
  one : ∀ field : EditField, field.Differs old updated →
    (entriesFor (diffIssueFields old updated) field).length = 1
  none : ∀ field : EditField, ¬ field.Differs old updated →
    entriesFor (diffIssueFields old updated) field = []
  only : ∀ change ∈ diffIssueFields old updated, ∃ field : EditField, change.field = field.name

/-- The entries tell which fields differ iff these are the ones that are shown differently. -/
theorem tellsChanges_iff (old updated : Issue) :
    TellsChanges old updated ↔
      ∀ field : EditField, field.ShownDifferently old updated ↔ field.Differs old updated := by
  constructor
  · intro tells field
    have entries := diffIssueFields_field old updated field
    constructor
    · intro shown
      by_contra same
      have none := tells.none field same
      exact absurd (entries.1 shown) (by rw [none]; decide)
    · intro differs
      by_contra hidden
      have one := tells.one field differs
      exact absurd one (by rw [entries.2 hidden]; decide)
  · intro same
    refine ⟨fun field differs => ?_, fun field kept => ?_, fun change => diffIssueFields_names⟩
    · exact (diffIssueFields_field old updated field).1 ((same field).mpr differs)
    · exact (diffIssueFields_field old updated field).2 (mt (same field).mp kept)

/-- For an issue with the ids of what it refers to. -/
theorem tellsChanges_iff_namesTellApart {old updated : Issue}
    (assignee : old.assigneeID = old.assignee.map (·.id))
    (assignee' : updated.assigneeID = updated.assignee.map (·.id))
    (release : old.releaseID = old.release.map (·.id))
    (release' : updated.releaseID = updated.release.map (·.id)) :
    TellsChanges old updated ↔ NamesTellApart old updated := by
  have assignees : NamesTell User.shownName (·.id) old.assignee updated.assignee ↔
      (assigneeName old = assigneeName updated ↔ old.assigneeID = updated.assigneeID) := by
    rw [namesTell_iff, assigneeName_eq, assigneeName_eq, assignee, assignee']
  have labels : NamesTell Label.name (·.id) old.label updated.label ↔
      (labelName old = labelName updated ↔ old.label.map (·.id) = updated.label.map (·.id)) :=
    namesTell_iff _ _ _ _
  have releases : NamesTell Release.name (·.id) old.release updated.release ↔
      (releaseName old = releaseName updated ↔ old.releaseID = updated.releaseID) := by
    rw [release, release']
    exact namesTell_iff _ _ _ _
  rw [tellsChanges_iff]
  constructor
  · intro same
    exact ⟨assignees.mpr (not_iff_not.mp (same .assignee)), labels.mpr (not_iff_not.mp (same .label)),
      releases.mpr (not_iff_not.mp (same .release))⟩
  · intro tell field
    cases field with
    | title | description | status | priority => exact Iff.rfl
    | deadline => exact not_congr (deadlineStr_eq_iff _ _)
    | assignee => exact not_congr (assignees.mp tell.assignee)
    | label => exact not_congr (labels.mp tell.label)
    | release => exact not_congr (releases.mp tell.release)

/-- **For issues as read from the database the entries tell which fields differ if and only if names tell
apart what ids do.** -/
theorem edit_entries_iff (s s' : Store) (id id' : Int) (row row' : IssueRow) (tasks tasks' : List Task) :
    TellsChanges { s.scanIssueRow id row with tasks } { s'.scanIssueRow id' row' with tasks := tasks' } ↔
      NamesTellApart { s.scanIssueRow id row with tasks }
        { s'.scanIssueRow id' row' with tasks := tasks' } :=
  tellsChanges_iff_namesTellApart rfl rfl rfl rfl

/-! ### Two labels of one name -/

/-- Two labels of one name, and an issue with the first one. -/
def twoLabels : List (Request × List (Unit × Input)) :=
  [(.createIssue sampleAdmin (some 1) (.json { title := "Crash", status := .todo, label := some { id := 1 } }),
      stepsOf () 20 { instant := 2 }),
    (.createLabel sampleAdmin (some 1) (.json { name := "Bug", color := "#ff0000" }), stepsOf () 9 {}),
    (.createLabel sampleAdmin (some 1) (.json { name := "Bug", color := "#ff8800" }), stepsOf () 9 {}),
    (bootstrap, stepsOf () 9 { instant := 1, text := some "bcrypt:correct horse 7!" })]

/-- The issue gets the second one. -/
def relabelled : List (Request × List (Unit × Input)) :=
  [(.putIssue sampleAdmin (some 1) (some 1) ""
      (.json { title := "Crash", status := .todo, priority := .normal, label := some { id := 2 } }),
    stepsOf () 20 { instant := 3 })]

/-- **An issue gets another label of the same name, and no entry tells it.** -/
theorem relabelling_unrecorded :
    ¬ ∀ (host : Host) (reqs reqs' : List Request) (s s' : Store) (id : Int) (row row' : IssueRow),
      Sequential host createTables reqs s → Sequential host s reqs' s' →
      s.issues.get? id = some row → s'.issues.get? id = some row' →
      TellsChanges (s.scanIssueRow id row) (s'.scanIssueRow id row') := by
  intro claim
  have evaluated : (do
      let row ← (executeAll sampleHost createTables twoLabels).issues.get? 1
      let row' ← (executeAll sampleHost (executeAll sampleHost createTables twoLabels) relabelled).issues.get? 1
      let old := (executeAll sampleHost createTables twoLabels).scanIssueRow 1 row
      let updated := (executeAll sampleHost (executeAll sampleHost createTables twoLabels)
        relabelled).scanIssueRow 1 row'
      some (old.label.map (·.id), updated.label.map (·.id), diffIssueFields old updated)) =
      some (some 1, some 2, []) := by decide +kernel
  obtain ⟨row, found, evaluated⟩ := Option.bind_eq_some_iff.mp evaluated
  obtain ⟨row', found', evaluated⟩ := Option.bind_eq_some_iff.mp evaluated
  obtain ⟨first, second, unrecorded⟩ : _ ∧ _ ∧ _ := by
    simpa only [Option.some.injEq, Prod.mk.injEq] using evaluated
  have tells := claim sampleHost _ _ _ _ 1 row row' (Sequential.of_moves sampleHost createTables twoLabels)
    (Sequential.of_moves sampleHost _ relabelled) found found'
  have one := tells.one .label (by
    show _ ≠ _
    rw [first, second]
    decide)
  rw [unrecorded] at one
  exact nomatch one

end Wuflow

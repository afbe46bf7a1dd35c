/-
**Who is named in the history of an issue.**

A PUT records the differences between the issue as it has read it first and as it reads it again after its
write (`diffIssueFields`). Two PUTs on one issue may overlap, and then the differences of one contain the
changes of the other.

* `committed` — the changes that the steps of a run have made to the stored columns of the issue, each with
  the request that has made it.
* `newEntries` — the entries that the run has added to the history of the issue.
* `edits_credited` — the two are the same, author by author, in every run in which nobody else changes the
  issue between the two reads of a PUT (`Undisturbed`) and every change of a column is one of what is shown
  (`ChangesShow`).
* `change_misattributed` — an overlap after which the history names a user for a change of another one.
-/

import Wuflow.Invariants.EditFields
import Wuflow.Requests.Copies
import Wuflow.Requests.EditLog

namespace Wuflow

open Calendar (Instant)
open Interleave (Prog Entry Event Run Config Steps own mem_own own_eq_append_cons own_cons_self own_cons_other
  own_append perm_of_threads steps_append_iff steps_cons_iff)
open Relational (Table)

/-! ### The texts that an edit compares -/

/-- The texts of an issue that its edit history compares. -/
def Issue.recorded (i : Issue) : List String :=
  [i.title, i.description, i.status.text, i.priority.text, deadlineStr i.deadline, assigneeName i,
    labelName i, releaseName i]

/-- Only these texts are compared. -/
theorem diffIssueFields_congr {old old' updated updated' : Issue} (before : old.recorded = old'.recorded)
    (after : updated.recorded = updated'.recorded) :
    diffIssueFields old updated = diffIssueFields old' updated' := by
  simp only [Issue.recorded, List.cons.injEq, and_true] at before after
  obtain ⟨title, description, status, priority, deadline, assignee, label, release⟩ := before
  obtain ⟨title', description', status', priority', deadline', assignee', label', release'⟩ := after
  simp only [diffIssueFields, title, description, status, priority, deadline, assignee, label, release,
    title', description', status', priority', deadline', assignee', label', release']

theorem changeOf_eq_nil {field old updated : String} : changeOf field old updated = [] ↔ old = updated := by
  unfold changeOf
  by_cases same : old = updated
  · simp [same]
  · simp [same]

/-- There is nothing to record exactly if none of them has changed. -/
theorem diffIssueFields_eq_nil {old updated : Issue} :
    diffIssueFields old updated = [] ↔ old.recorded = updated.recorded := by
  have single : ∀ {a b : String} {change : ChangeData}, (if a ≠ b then [change] else []) = [] ↔ a = b := by
    intro a b change
    by_cases same : a = b
    · simp [same]
    · simp [same]
  simp only [diffIssueFields, List.append_eq_nil_iff, single, changeOf_eq_nil, Issue.recorded,
    List.cons.injEq, and_true, and_assoc]

/-! ### What is committed and what is recorded -/

/-- The issue with its label, assignee and release. -/
def Store.issue? (s : Store) (id : Int) : Option Issue := Select.eval (.issueByID id) s

/-- The texts of the issue. -/
def Store.texts (s : Store) (id : Int) : Option (List String) := (s.issue? id).map Issue.recorded

/-- The stored column of the field has changed. -/
def EditField.Changed (row row' : IssueRow) : EditField → Prop
  | .title => row.title ≠ row'.title
  | .description => row.description ≠ row'.description
  | .status => row.status.text ≠ row'.status.text
  | .priority => row.priority.text ≠ row'.priority.text
  | .deadline => row.deadline ≠ row'.deadline
  | .assignee => row.assigneeID ≠ row'.assigneeID
  | .label => row.labelID ≠ row'.labelID
  | .release => row.releaseID ≠ row'.releaseID

instance (row row' : IssueRow) (field : EditField) : Decidable (field.Changed row row') := by
  cases field <;> exact inferInstanceAs (Decidable (_ ≠ _))

instance (old updated : Issue) (field : EditField) : Decidable (field.ShownDifferently old updated) := by
  cases field <;> exact inferInstanceAs (Decidable (_ ≠ _))

def EditField.all : List EditField :=
  [.title, .description, .status, .priority, .deadline, .assignee, .label, .release]

/-- What an entry says about the field; nothing for the title and the description. -/
def EditField.text (i : Issue) : EditField → String
  | .title | .description => ""
  | .status => i.status.text
  | .priority => i.priority.text
  | .deadline => deadlineStr i.deadline
  | .assignee => assigneeName i
  | .label => labelName i
  | .release => releaseName i

/-- A change of the field. -/
def EditField.change (old updated : Issue) (field : EditField) : ChangeData :=
  { field := field.name, from_ := field.text old, to_ := field.text updated }

/-- **The field changes of the issue from `before` to `after`**: one for each stored column that differs. -/
def fieldChanges (before after : Store) (id : Int) : List ChangeData :=
  match before.issues.get? id, after.issues.get? id with
  | some row, some row' =>
      (EditField.all.filter fun field => field.Changed row row').map
        (EditField.change (before.scanIssueRow id row) (after.scanIssueRow id row'))
  | _, _ => []

/-- The changes that a comparison of the texts finds. -/
def changesBetween (before after : Store) (id : Int) : List ChangeData :=
  match before.issue? id, after.issue? id with
  | some old, some updated => diffIssueFields old updated
  | _, _ => []

section Traces

variable {ι : Type}

/-- The database after a step. -/
def effect (event : Step ι) (s : Store) : Store :=
  match event.query with
  | .write w => (w.exec s).2
  | _ => s

/-- The database after the steps of a trace. -/
def replay (start : Store) : List (Step ι) → Store
  | [] => start
  | event :: earlier => effect event (replay start earlier)

/-- What the steps of a trace have changed, each with the thread of its step. -/
def collected (changes : Store → Store → List ChangeData) (start : Store) : List (Step ι) → List (ι × ChangeData)
  | [] => []
  | event :: earlier =>
      collected changes start earlier ++
        (changes (replay start earlier) (replay start (event :: earlier))).map fun change => (event.thread, change)

/-- **The field changes that the steps of a trace have committed.** -/
def committed (start : Store) (id : Int) : List (Step ι) → List (ι × ChangeData) :=
  collected (fun before after => fieldChanges before after id) start

/-- The changes that a comparison of the texts finds. -/
def displayed (start : Store) (id : Int) : List (Step ι) → List (ι × ChangeData) :=
  collected (fun before after => changesBetween before after id) start

/-- The changes with the users of the threads. -/
def credit (author : ι → Option Int) (changes : List (ι × ChangeData)) : List (Option Int × ChangeData) :=
  changes.map fun change => (author change.1, change.2)

/-- **The entries for edits** that the history of the issue has in `s` and not in `start`. -/
def newEntries (start s : Store) (id : Int) : List (Option Int × ChangeData) :=
  (s.history.entries.filter fun entry =>
    start.history.seq < entry.1 && entry.2.issueID == id && entry.2.event == .updated).map
      fun entry => (entry.2.userID, entry.2.data)

/-- **Between the first read of a request and its reread, nobody else changes the issue.** -/
def Undisturbed (start : Store) (id : Int) (trace : List (Step ι)) : Prop :=
  ∀ later reread between load earlier P found updated,
    trace = later ++ reread :: (between ++ load :: earlier) → reread.thread = load.thread →
    load.entry = ⟨.read (.issueByIDInProject id P), .ok (some found)⟩ →
    reread.entry = ⟨.read (.issueByID id), .ok (some updated)⟩ →
    ∀ change ∈ committed (replay start (load :: earlier)) id between, change.1 = load.thread

/-- **Every change is one of what is shown**: no step gives the issue another assignee, label or release under the
name of the one before, or changes nothing but the time of day of its deadline. -/
def ChangesShow (start : Store) (id : Int) (trace : List (Step ι)) : Prop :=
  ∀ later event earlier row row', trace = later ++ event :: earlier →
    (replay start earlier).issues.get? id = some row →
    (replay start (event :: earlier)).issues.get? id = some row' →
    ∀ field : EditField, field.Changed row row' → field.ShownDifferently
      ((replay start earlier).scanIssueRow id row) ((replay start (event :: earlier)).scanIssueRow id row')

/-- The check of it, step by step. -/
def changesShow (start : Store) (id : Int) : List (Step ι) → Bool
  | [] => true
  | event :: earlier =>
      changesShow start id earlier &&
        match (replay start earlier).issues.get? id, (replay start (event :: earlier)).issues.get? id with
        | some row, some row' =>
            decide (∀ field ∈ EditField.all, field.Changed row row' → field.ShownDifferently
              ((replay start earlier).scanIssueRow id row) ((replay start (event :: earlier)).scanIssueRow id row'))
        | _, _ => true

theorem effect_of_perform {event : Step ι} {s s' : Store} (here : event.query.perform s event.answer s') :
    effect event s = s' := by
  obtain ⟨thread, query, answer⟩ := event
  cases query with
  | write w => exact congrArg Prod.snd here
  | read q | randomText | randomSecret => exact here.2.symm
  | _ => exact Eq.symm here

theorem replay_of_steps {start s : Store} {trace : List (Step ι)}
    (steps : Steps Query.perform start trace s) : replay start trace = s := by
  induction steps with
  | refl => rfl
  | step event _ here ih =>
      unfold replay
      rw [ih]
      exact effect_of_perform here

theorem replay_append (start : Store) (later earlier : List (Step ι)) :
    replay start (later ++ earlier) = replay (replay start earlier) later := by
  induction later with
  | nil => rfl
  | cons event later ih => exact congrArg (effect event) ih

theorem collected_append (changes : Store → Store → List ChangeData) (start : Store)
    (later earlier : List (Step ι)) : collected changes start (later ++ earlier) =
      collected changes start earlier ++ collected changes (replay start earlier) later := by
  induction later with
  | nil => exact (List.append_nil _).symm
  | cons event later ih =>
      show collected changes start (later ++ earlier) ++ List.map _ (changes
        (replay start (later ++ earlier)) (effect event (replay start (later ++ earlier)))) = _
      rw [ih, replay_append, List.append_assoc]
      rfl

theorem displayed_append (start : Store) (id : Int) (later earlier : List (Step ι)) :
    displayed start id (later ++ earlier) =
      displayed start id earlier ++ displayed (replay start earlier) id later :=
  collected_append _ start later earlier

/-- A change is made by a thread that takes a step. -/
theorem collected_thread {changes : Store → Store → List ChangeData} {start : Store} {trace : List (Step ι)}
    {change : ι × ChangeData} (member : change ∈ collected changes start trace) :
    ∃ event ∈ trace, event.thread = change.1 := by
  induction trace with
  | nil => exact absurd member List.not_mem_nil
  | cons event trace ih =>
      rcases List.mem_append.mp member with member | member
      · obtain ⟨event', inside, same⟩ := ih member
        exact ⟨event', .tail _ inside, same⟩
      · obtain ⟨_, _, rfl⟩ := List.mem_map.mp member
        exact ⟨event, List.mem_cons_self, rfl⟩

theorem ChangesShow.earlier {start : Store} {id : Int} {later earlier : List (Step ι)}
    (shows_ : ChangesShow start id (later ++ earlier)) : ChangesShow start id earlier := by
  rintro later' event earlier' row row' rfl
  exact shows_ (later ++ later') event earlier' row row' (List.append_assoc _ _ _).symm

theorem ChangesShow.later {start : Store} {id : Int} {later earlier : List (Step ι)}
    (shows_ : ChangesShow start id (later ++ earlier)) : ChangesShow (replay start earlier) id later := by
  rintro later' event earlier' row row' rfl here there
  have whole := shows_ later' event (earlier' ++ earlier) row row' (by simp)
  rw [← List.cons_append, replay_append, replay_append] at whole
  exact whole here there

theorem EditField.mem_all (field : EditField) : field ∈ EditField.all := by
  cases field <;> decide

theorem changesShow_iff {start : Store} {id : Int} {trace : List (Step ι)} :
    changesShow start id trace = true ↔ ChangesShow start id trace := by
  induction trace with
  | nil => exact ⟨fun _ later event earlier _ _ place => absurd place (by simp), fun _ => rfl⟩
  | cons event earlier ih =>
      unfold changesShow
      rw [Bool.and_eq_true, ih]
      constructor
      · rintro ⟨before, here⟩ later event' earlier' row row' place old updated field changed
        cases later with
        | nil =>
            cases place
            rw [old, updated] at here
            exact of_decide_eq_true here field field.mem_all changed
        | cons first later =>
            exact before later event' earlier' row row' (List.cons.inj place).2 old updated field changed
      · intro shows_
        refine ⟨ChangesShow.earlier (show ChangesShow start id ([event] ++ earlier) from shows_), ?_⟩
        split
        · next row row' old updated =>
            exact decide_eq_true fun field _ => shows_ [] event earlier row row' rfl old updated field
        · rfl

end Traces

theorem texts_changes {before after : Store} {id : Int} (same : after.texts id = before.texts id) :
    changesBetween before after id = [] := by
  unfold Store.texts at same
  unfold changesBetween
  cases old : before.issue? id with
  | none => rfl
  | some old' =>
      cases updated : after.issue? id with
      | none => rfl
      | some updated' =>
          rw [old, updated] at same
          exact diffIssueFields_eq_nil.mpr (Option.some.inj same).symm

/-- From the same texts to the same texts there are the same changes. -/
theorem changesBetween_congr {before before' after after' : Store} {id : Int}
    (first : before.texts id = before'.texts id) (last : after.texts id = after'.texts id) :
    changesBetween before after id = changesBetween before' after' id := by
  unfold Store.texts at first last
  unfold changesBetween
  cases old : before.issue? id with
  | none =>
      rw [old] at first
      rw [Option.map_eq_none_iff.mp first.symm]
  | some old' =>
      rw [old] at first
      obtain ⟨other, here, same⟩ := Option.map_eq_some_iff.mp first.symm
      rw [here]
      cases updated : after.issue? id with
      | none =>
          rw [updated] at last
          rw [Option.map_eq_none_iff.mp last.symm]
      | some updated' =>
          rw [updated] at last
          obtain ⟨other', here', same'⟩ := Option.map_eq_some_iff.mp last.symm
          rw [here']
          exact diffIssueFields_congr same.symm same'.symm

/-! ### Columns and texts -/

/-- The entries of an edit, field by field. -/
theorem diffIssueFields_eq (old updated : Issue) : diffIssueFields old updated =
    (EditField.all.filter fun field => field.ShownDifferently old updated).map (EditField.change old updated) := by
  have cons : ∀ (p : EditField → Bool) (field : EditField) (fields : List EditField),
      ((field :: fields).filter p).map (EditField.change old updated) =
        (if p field = true then [EditField.change old updated field] else []) ++
          (fields.filter p).map (EditField.change old updated) := by
    intro p field fields
    rw [List.filter_cons]
    split <;> rfl
  unfold EditField.all diffIssueFields changeOf
  simp only [cons, decide_eq_true_eq, List.append_assoc, List.filter_nil, List.map_nil, List.append_nil]
  rfl

/-- What is stored alike is shown alike. -/
theorem EditField.shown_of_stored {s s' : Store} (users : s'.users = s.users) (labels : s'.labels = s.labels)
    (releases : s'.releases = s.releases) {id : Int} {row row' : IssueRow} {field : EditField}
    (shown : field.ShownDifferently (s.scanIssueRow id row) (s'.scanIssueRow id row')) : field.Changed row row' := by
  have joined : ∀ user : Option Int, s'.joinedUser user = s.joinedUser user := fun user => by
    unfold Store.joinedUser
    rw [users]
  cases field with
  | title | description | status | priority => exact shown
  | deadline => exact fun same => shown (congrArg deadlineStr same)
  | assignee =>
      intro same
      refine shown ?_
      unfold assigneeName Store.scanIssueRow
      simp only [joined, same]
  | label =>
      intro same
      refine shown ?_
      unfold labelName Store.scanIssueRow
      simp only [labels, same]
  | release =>
      intro same
      refine shown ?_
      unfold releaseName Store.scanIssueRow
      simp only [releases, same]

/-! ### One step of a PUT -/

/-- The queries of a PUT on the issue. -/
def Query.OfPut (id : Int) : Query → Prop
  | .write w => (∃ cols, w = .updateIssue id cols) ∨ (∃ position, w = .updateIssuePosition id position) ∨
      (∃ row, w = .insertHistory row) ∨ w.OnSessions
  | _ => True

/-- The history row that the entry has inserted. -/
def Entry.inserted : Entry Query.Answer → Option HistoryRow
  | ⟨.write (.insertHistory row), .ok _⟩ => some row
  | _ => none

/-- What a step of a PUT does. -/
structure PutStep (id : Int) (entry : Entry Query.Answer) (before after : Store) : Prop where
  users : after.users = before.users
  labels : after.labels = before.labels
  releases : after.releases = before.releases
  present : (after.issues.get? id).isSome = (before.issues.get? id).isSome
  texts : Entry.rewrites entry = none → after.texts id = before.texts id
  history : after.history = ((Entry.inserted entry).elim before.history before.history.insert)

section Steps

variable {id : Int} {query : Query} {before after : Store} {answer : query.Answer}

theorem PutStep.of_same {entry : Entry Query.Answer} (history : Entry.inserted entry = none) (s : Store) :
    PutStep id entry s s :=
  ⟨rfl, rfl, rfl, rfl, fun _ => rfl, by rw [history]; rfl⟩

/-- A position is none of the compared texts. -/
theorem texts_reposition {s : Store} {selects : Int → IssueRow → Bool} {position : Int} :
    ({ s with issues := s.issues.update selects (IssueRow.setPosition position) } : Store).texts id =
      s.texts id := by
  unfold Store.texts Store.issue? Select.eval
  simp only [Table.get?_update]
  cases s.issues.get? id with
  | none => rfl
  | some row =>
      simp only [Option.map_some]
      split
      · rfl
      · rfl

theorem put_step (ofPut : query.OfPut id) (here : query.perform before answer after) :
    PutStep id ⟨query, answer⟩ before after := by
  rcases perform_cases here with ⟨w, rows, same, applied⟩ | ⟨rfl, other⟩
  · cases same
    rcases ofPut with ⟨cols, rfl⟩ | ⟨position, rfl⟩ | ⟨row, rfl⟩ | sessions
    · have found := updateIssue_get? applied
      obtain ⟨_, rest⟩ := require_bind_ok.mp applied
      cases rest
      exact ⟨rfl, rfl, rfl, by rw [found, Option.isSome_map], nofun, rfl⟩
    · cases applied
      refine ⟨rfl, rfl, rfl, ?_, fun _ => texts_reposition, rfl⟩
      show ((before.issues.update _ _).get? id).isSome = _
      rw [Table.get?_update, Option.isSome_map]
    · obtain ⟨_, rest⟩ := require_bind_ok.mp applied
      cases rest
      exact ⟨rfl, rfl, rfl, rfl, fun _ => rfl, rfl⟩
    · obtain ⟨_, rfl⟩ := sessions.alone applied
      refine ⟨rfl, rfl, rfl, rfl, fun _ => rfl, ?_⟩
      cases w with
      | insertHistory => exact sessions.elim
      | _ => rfl
  · refine PutStep.of_same ?_ _
    unfold Entry.inserted
    split
    · next row rows same => exact absurd same (other (.insertHistory row) rows)
    · rfl

end Steps

/-- **A step whose changes show commits what a comparison of the texts finds.** -/
theorem PutStep.changes {entry : Entry Query.Answer} {before after : Store} {id : Int}
    (step : PutStep id entry before after)
    (show_ : ∀ row row', before.issues.get? id = some row → after.issues.get? id = some row' → ∀ field : EditField,
      field.Changed row row' → field.ShownDifferently (before.scanIssueRow id row) (after.scanIssueRow id row')) :
    fieldChanges before after id = changesBetween before after id := by
  have read : ∀ s : Store, s.issue? id = (s.issues.get? id).map (s.scanIssueRow id) := fun _ => rfl
  unfold fieldChanges changesBetween
  rw [read, read]
  cases here : before.issues.get? id with
  | none => rfl
  | some row =>
      cases there : after.issues.get? id with
      | none => rfl
      | some row' =>
          simp only [Option.map_some]
          rw [diffIssueFields_eq]
          refine congrArg _ (List.filter_congr fun field _ => ?_)
          refine decide_eq_decide.mpr ⟨show_ row row' here there field, ?_⟩
          exact EditField.shown_of_stored step.users step.labels step.releases

/-! ### Stretches of PUT steps -/

/-- A part of a run in which only PUTs on the issue take steps. -/
structure Stretch {ι : Type} (id : Int) (start : Store) (part : List (Step ι)) (s : Store) : Prop where
  steps : Steps Query.perform start part s
  puts : ∀ event ∈ part, event.query.OfPut id

section Stretches

variable {ι : Type} {id : Int} {start s : Store} {part : List (Step ι)}

theorem Stretch.split {later earlier : List (Step ι)} (stretch : Stretch id start (later ++ earlier) s) :
    ∃ middle, Stretch id start earlier middle ∧ Stretch id middle later s := by
  obtain ⟨middle, first, last⟩ := steps_append_iff.mp stretch.steps
  exact ⟨middle, ⟨first, fun event member => stretch.puts event (List.mem_append_right _ member)⟩,
    ⟨last, fun event member => stretch.puts event (List.mem_append_left _ member)⟩⟩

theorem Stretch.last {event : Step ι} (stretch : Stretch id start (event :: part) s) :
    ∃ before, Stretch id start part before ∧ event.query.perform before event.answer s ∧
      PutStep id event.entry before s := by
  obtain ⟨before, steps, here⟩ := steps_cons_iff.mp stretch.steps
  exact ⟨before, ⟨steps, fun event member => stretch.puts event (.tail _ member)⟩, here,
    put_step (stretch.puts event List.mem_cons_self) here⟩

/-- **The rule for stretches**: what each step keeps. -/
theorem Stretch.keeps (stretch : Stretch id start part s) (inv : List (Step ι) → Store → Prop)
    (first : inv [] start)
    (each : ∀ event earlier before after, Stretch id start earlier before →
      event.query.perform before event.answer after → PutStep id event.entry before after →
      (∃ later, part = later ++ event :: earlier) → inv earlier before → inv (event :: earlier) after) :
    inv part s := by
  induction part generalizing s with
  | nil =>
      obtain rfl := Interleave.steps_nil_iff.mp stretch.steps
      exact first
  | cons event part ih =>
      obtain ⟨before, earlier, here, step⟩ := stretch.last
      refine each event part before s earlier here step ⟨[], rfl⟩ (ih earlier ?_)
      rintro event' earlier' before' after' early here' step' ⟨later, rfl⟩
      exact each event' earlier' before' after' early here' step' ⟨event :: later, rfl⟩

theorem Stretch.users (stretch : Stretch id start part s) : s.users = start.users :=
  stretch.keeps (fun _ s => s.users = start.users) rfl fun _ _ _ _ _ _ step _ same => step.users.trans same

theorem Stretch.present (stretch : Stretch id start part s) :
    (s.issues.get? id).isSome = (start.issues.get? id).isSome :=
  stretch.keeps (fun _ s => (s.issues.get? id).isSome = (start.issues.get? id).isSome) rfl
    fun _ _ _ _ _ _ step _ same => step.present.trans same

theorem issue?_isSome {s : Store} : (s.issue? id).isSome = (s.issues.get? id).isSome :=
  Option.isSome_map

/-- The changes of the last step. -/
theorem displayed_cons {event : Step ι} {before after : Store} (stretch : Stretch id start part before)
    (here : event.query.perform before event.answer after) :
    displayed start id (event :: part) = displayed start id part ++
      (changesBetween before after id).map fun change => (event.thread, change) := by
  have first := replay_of_steps stretch.steps
  have last : replay start (event :: part) = after := by
    unfold replay
    rw [first]
    exact effect_of_perform here
  show displayed start id part ++ List.map _ (changesBetween (replay start part)
    (replay start (event :: part)) id) = _
  rw [first, last]

/-- **Where every change shows, what is committed is what a comparison of the texts finds.** -/
theorem Stretch.committed_eq (stretch : Stretch id start part s) (shows_ : ChangesShow start id part) :
    committed start id part = displayed start id part := by
  refine stretch.keeps (fun part _ => ChangesShow start id part → committed start id part = displayed start id part)
    (fun _ => rfl) (fun event earlier before after early here step _ ih shows_ => ?_) shows_
  have first := replay_of_steps early.steps
  have last : replay start (event :: earlier) = after := by
    unfold replay
    rw [first]
    exact effect_of_perform here
  have changes : fieldChanges before after id = changesBetween before after id := by
    refine step.changes fun row row' found found' => ?_
    have shown := shows_ [] event earlier row row' rfl
    rw [first, last] at shown
    exact shown found found'
  have before_ : ChangesShow start id earlier :=
    ChangesShow.earlier (show ChangesShow start id ([event] ++ earlier) from shows_)
  rw [displayed_cons early here, ← changes, ← ih before_]
  show committed start id earlier ++
    List.map _ (fieldChanges (replay start earlier) (replay start (event :: earlier)) id) = _
  rw [first, last]

/-- **Without a change the texts stay as they are.** -/
theorem Stretch.texts (stretch : Stretch id start part s) (none : displayed start id part = []) :
    s.texts id = start.texts id := by
  refine stretch.keeps (fun part s => displayed start id part = [] → s.texts id = start.texts id)
    (fun _ => rfl) (fun event earlier before after early here step _ ih none => ?_) none
  rw [displayed_cons early here] at none
  obtain ⟨none, unchanged⟩ := List.append_eq_nil_iff.mp none
  refine Eq.trans ?_ (ih none)
  have same := List.map_eq_nil_iff.mp unchanged
  have present : (after.issue? id).isSome = (before.issue? id).isSome :=
    issue?_isSome.trans (step.present.trans issue?_isSome.symm)
  unfold changesBetween at same
  unfold Store.texts
  cases old : before.issue? id with
  | none =>
      rw [old] at present
      rw [Option.isNone_iff_eq_none.mp (Option.isSome_eq_false_iff.mp present)]
  | some old' =>
      rw [old] at present
      obtain ⟨updated, new⟩ := Option.isSome_iff_exists.mp present
      rw [old, new] at same
      rw [new]
      exact congrArg some (diffIssueFields_eq_nil.mp same).symm

variable [DecidableEq ι] {thread : ι}

/-- **A thread commits nothing while it rewrites nothing.** -/
theorem Stretch.commits_nothing (stretch : Stretch id start part s)
    (silent : ∀ entry ∈ own thread part, Entry.rewrites entry = none) :
    (displayed start id part).filter (fun change => change.1 = thread) = [] := by
  refine stretch.keeps (fun part _ => (∀ entry ∈ own thread part, Entry.rewrites entry = none) →
    (displayed start id part).filter (fun change => change.1 = thread) = []) (fun _ => rfl)
    (fun event earlier before after early here step _ ih silent => ?_) silent
  rw [displayed_cons early here, List.filter_append]
  by_cases same : event.thread = thread
  · subst same
    rw [own_cons_self] at silent
    rw [ih fun entry member => silent entry (.tail _ member),
      texts_changes (step.texts (silent _ List.mem_cons_self))]
    rfl
  · rw [own_cons_other same] at silent
    rw [ih silent, List.nil_append, List.filter_eq_nil_iff]
    intro change member
    obtain ⟨_, _, rfl⟩ := List.mem_map.mp member
    simpa using same

/-- Who commits alone and commits nothing leaves nothing. -/
theorem none_displayed {changes : List (ι × ChangeData)} (alone : ∀ change ∈ changes, change.1 = thread)
    (none : changes.filter (fun change => change.1 = thread) = []) : changes = [] := by
  rw [List.filter_eq_self.mpr fun change member => decide_eq_true (alone change member)] at none
  exact none

omit [DecidableEq ι] in
/-- An issue that changes is there, so the update has found its updater. -/
theorem updateIssue_updater {before after : Store} {cols : IssueColumns} {rows userID : Int}
    (applied : (Write.updateIssue id cols).apply before = .ok (rows, after))
    (updater : cols.updatedBy = nullableUserID (some userID))
    (changed : changesBetween before after id ≠ []) : refExists before.users (actor userID) = true := by
  have known : (before.issues.get? id).isSome = true := by
    by_contra unknown
    refine changed (texts_changes ?_)
    have gone := Option.isNone_iff_eq_none.mp (Option.isSome_eq_false_iff.mp (Bool.eq_false_iff.mpr unknown))
    have gone' := updateIssue_get? applied
    rw [gone] at gone'
    simp only [Store.texts, Store.issue?, Select.eval, gone, gone', Option.map_none]
  obtain ⟨row, found⟩ := Option.isSome_iff_exists.mp known
  obtain ⟨refs, _⟩ := require_bind_ok.mp applied
  rcases (Bool.or_eq_true _ _).mp refs with none | refs
  · exact absurd (Table.count_eq_zero_iff.mp (beq_iff_eq.mp none) id row found) (by simp)
  · simp only [Store.issueRefsExist, Bool.and_eq_true, updater] at refs
    unfold actor
    split
    · next positive =>
        have same : nullableUserID (some userID) = some userID := by simp [nullableUserID, ne_of_gt positive]
        rw [← same]
        exact refs.1.1.2
    · rfl

/-- **Alone between its two reads, a PUT commits what differs between them**, and if there is a difference
then its user exists. -/
theorem Stretch.edits {t t' : Store} {userID : Int} (stretch : Stretch id t part t')
    (alone : ∀ change ∈ displayed t id part, change.1 = thread)
    (edits : EditPart userID id (own thread part)) :
    displayed t id part = (changesBetween t t' id).map (fun change => (thread, change)) ∧
      (changesBetween t t' id ≠ [] → refExists t.users (actor userID) = true) := by
  generalize log : own thread part = entries at edits
  cases edits with
  | none silent =>
      have none := none_displayed alone (stretch.commits_nothing fun entry member =>
        (silent entry (log ▸ member)).rewrites)
      rw [none, texts_changes (stretch.texts none)]
      exact ⟨rfl, fun some_ => absurd rfl some_⟩
  | once late early updater =>
      obtain ⟨later, update, earlier, rfl, rfl, entry, rfl, rfl⟩ := own_eq_append_cons log
      obtain ⟨after, first, last⟩ := stretch.split
      obtain ⟨before, first', here, _⟩ := first.last
      rw [displayed_append, replay_of_steps first.steps, displayed_cons first' here] at alone ⊢
      have none : displayed t id earlier = [] := none_displayed
        (fun change member => alone change (List.mem_append_left _ (List.mem_append_left _ member)))
        (first'.commits_nothing fun entry member => (early entry member).rewrites)
      have none' : displayed after id later = [] := none_displayed
        (fun change member => alone change (List.mem_append_right _ member))
        (last.commits_nothing fun entry member => (late entry member).rewrites)
      have same : changesBetween before after id = changesBetween t t' id :=
        changesBetween_congr (first'.texts none) (last.texts none').symm
      rw [none, none', List.nil_append, List.append_nil, same]
      refine ⟨rfl, fun changed => ?_⟩
      obtain ⟨_, query, answer⟩ := update
      cases entry
      rw [← first'.users]
      exact updateIssue_updater (Write.apply_of_ok here) updater (same ▸ changed)

/-! ### The entries of a thread -/

omit [DecidableEq ι] in
/-- **The entries that the steps of a trace have inserted**, each with the thread of its step. -/
def inserted : List (Step ι) → List (ι × ChangeData)
  | [] => []
  | event :: earlier =>
      inserted earlier ++ ((Entry.inserted event.entry).map fun row => (event.thread, row.data)).toList

/-- The entries of a thread are read off its local history. -/
theorem inserted_own (trace : List (Step ι)) :
    (inserted trace).filter (fun change => change.1 = thread) =
      ((own thread trace).reverse.filterMap Entry.inserted).map fun row => (thread, row.data) := by
  induction trace with
  | nil => rfl
  | cons event trace ih =>
      unfold inserted
      rw [List.filter_append, ih]
      by_cases same : event.thread = thread
      · subst same
        rw [own_cons_self, List.reverse_cons, List.filterMap_append, List.map_append]
        cases row : Entry.inserted event.entry with
        | none => simp [row]
        | some row' => simp [row]
      · rw [own_cons_other same]
        cases Entry.inserted event.entry with
        | none => simp
        | some row' => simp [same]

theorem inserted_of_none {entry : Entry Query.Answer} (none : Entry.inserts entry = none) :
    Entry.inserted entry = Option.none := by
  unfold Entry.inserted
  split
  · exact nomatch none
  · rfl

/-- **History inserts succeed** while the issue and the user exist. -/
theorem Stretch.inserts {userID : Int} (stretch : Stretch id start part s)
    (present : (start.issues.get? id).isSome = true) (known : refExists start.users (actor userID) = true)
    (rows : ∀ entry ∈ own thread part, ∀ row, Entry.inserts entry = some row →
      row.issueID = id ∧ row.userID = actor userID ∧ row.event = .updated) :
    ∀ entry ∈ own thread part, Entry.inserted entry = Entry.inserts entry := by
  intro entry member
  cases inserts : Entry.inserts entry with
  | none => exact inserted_of_none inserts
  | some row =>
      obtain ⟨issue, user, _⟩ := rows entry member row inserts
      obtain ⟨event, inside, _, rfl⟩ := mem_own.mp member
      obtain ⟨later, earlier, rfl⟩ := List.append_of_mem inside
      obtain ⟨_, upTo, _⟩ := stretch.split
      obtain ⟨before, first, here, _⟩ := upTo.last
      obtain ⟨_, query, answer⟩ := event
      unfold Entry.inserts Event.entry at inserts
      split at inserts
      · next inserted_ answer_ same =>
          cases inserts
          cases same
          have refs : (refExists before.issues (some row.issueID) && refExists before.users row.userID) =
              true := by
            rw [issue, user, first.users, known, Bool.and_true]
            exact first.present.trans present
          rcases Write.exec_cases here with ⟨_, rfl, _⟩ | ⟨_, rfl, _⟩
          · rfl
          · unfold Query.perform Write.exec at here
            simp only [Write.apply, refs] at here
            exact nomatch here
      · exact nomatch inserts

theorem EditPart.inserts {userID : Int} {edit : Past} (edits : EditPart userID id edit) :
    ∀ entry ∈ edit, Entry.inserts entry = Option.none := by
  intro entry member
  cases edits with
  | none silent => exact (silent entry member).inserts
  | once late early _ =>
      rcases List.mem_append.mp member with member | member
      · exact (late entry member).inserts
      · rcases List.mem_cons.mp member with rfl | member
        · rfl
        · exact (early entry member).inserts

theorem inserted_nil {entries : Past} (none : ∀ entry ∈ entries, Entry.inserts entry = none) :
    entries.filterMap Entry.inserted = [] :=
  List.filterMap_eq_nil_iff.mpr fun entry member => inserted_of_none (none entry member)

omit [DecidableEq ι] in
theorem loads_issue {event : Step ι} {P : Int} {found : Issue} {before after : Store}
    (entry : event.entry = ⟨.read (.issueByIDInProject id P), .ok (some found)⟩)
    (here : event.query.perform before event.answer after) :
    after = before ∧ before.issue? id = some found := by
  obtain ⟨_, query, answer⟩ := event
  cases entry
  obtain ⟨answer, same⟩ := perform_read here
  obtain ⟨row, chosen, rfl⟩ := Option.map_eq_some_iff.mp (Except.ok.inj answer).symm
  exact ⟨same, Option.map_eq_some_iff.mpr ⟨row, (Option.filter_eq_some_iff.mp chosen).1, rfl⟩⟩

omit [DecidableEq ι] in
theorem rereads_issue {event : Step ι} {updated : Issue} {before after : Store}
    (entry : event.entry = ⟨.read (.issueByID id), .ok (some updated)⟩)
    (here : event.query.perform before event.answer after) :
    after = before ∧ before.issue? id = some updated := by
  obtain ⟨_, query, answer⟩ := event
  cases entry
  obtain ⟨answer, same⟩ := perform_read here
  exact ⟨same, (Except.ok.inj answer).symm⟩

/-- **A PUT inserts an entry for each change that it has made**, in the same order. -/
theorem Stretch.credited {userID : Int} (stretch : Stretch id start part s)
    (present : (start.issues.get? id).isSome = true) (undisturbed : Undisturbed start id part)
    (shows_ : ChangesShow start id part) (log : EditLog userID id (own thread part)) :
    (displayed start id part).filter (fun change => change.1 = thread) =
      (inserted part).filter fun change => change.1 = thread := by
  rw [inserted_own]
  generalize entries : own thread part = past at log
  cases log with
  | silent silent =>
      rw [stretch.commits_nothing fun entry member => (silent entry (entries ▸ member)).rewrites,
        List.filterMap_reverse, inserted_nil fun entry member => (silent entry member).inserts]
      rfl
  | @edited P found updated records edit early silent edits recorded =>
      obtain ⟨later, reread, rest, rfl, rfl, last, rfl, log⟩ := own_eq_append_cons entries
      obtain ⟨between, load, earlier, rfl, same, first, rfl, rfl⟩ := own_eq_append_cons log
      -- the databases of the two reads
      obtain ⟨after, upToReread, recording⟩ := stretch.split
      obtain ⟨t', upToEdit, rereads, _⟩ := upToReread.last
      obtain ⟨rfl, updated_⟩ := rereads_issue last rereads
      obtain ⟨t, upToLoad, editing⟩ := upToEdit.split
      obtain ⟨_, _, loads, _⟩ := upToLoad.last
      obtain ⟨rfl, found_⟩ := loads_issue first loads
      have changes : changesBetween t after id = diffIssueFields found updated := by
        unfold changesBetween
        rw [found_, updated_]
      have alone := undisturbed later reread between load earlier P found updated rfl same.symm first last
      have shown : ChangesShow t id between := by
        have whole : ChangesShow start id ((later ++ [reread]) ++ (between ++ load :: earlier)) := by
          rw [List.append_assoc]
          exact shows_
        have rest : ChangesShow (replay start (load :: earlier)) id between := whole.earlier.later
        rwa [replay_of_steps upToLoad.steps] at rest
      rw [replay_of_steps upToLoad.steps, same, editing.committed_eq shown] at alone
      obtain ⟨commits, known⟩ := editing.edits alone edits
      rw [changes] at commits known
      -- what is changed: nothing before the first read and after the second one
      have before : (displayed start id (load :: earlier)).filter
          (fun change => change.1 = reread.thread) = [] := by
        refine upToLoad.commits_nothing fun entry member => ?_
        rw [← same, own_cons_self, same, first] at member
        rcases List.mem_cons.mp member with rfl | member
        · rfl
        · exact (silent entry member).rewrites
      have between_ : (displayed t id between).filter (fun change => change.1 = reread.thread) =
          (diffIssueFields found updated).map fun change => (reread.thread, change) := by
        rw [List.filter_eq_self.mpr fun change member => decide_eq_true (alone change member), commits]
      have total : (displayed start id (later ++ reread :: (between ++ load :: earlier))).filter
          (fun change => change.1 = reread.thread) =
            (diffIssueFields found updated).map fun change => (reread.thread, change) := by
        rw [displayed_append, replay_of_steps upToReread.steps, displayed_cons upToEdit rereads,
          texts_changes rfl, displayed_append, replay_of_steps upToLoad.steps]
        simp only [List.filter_append, before, between_, List.map_nil,
          recording.commits_nothing recorded.silent, List.append_nil, List.nil_append]
      -- what is inserted: the entries of the last part
      have part : (own reread.thread (later ++ reread :: (between ++ load :: earlier))).reverse.filterMap
          Entry.inserted = (own reread.thread later).reverse.filterMap Entry.inserted := by
        rw [entries, List.filterMap_reverse, List.filterMap_reverse, List.filterMap_append,
          List.filterMap_cons_none rfl, List.filterMap_append, List.filterMap_cons_none rfl,
          inserted_nil edits.inserts, inserted_nil fun entry member => (silent entry member).inserts,
          List.append_nil, List.append_nil]
      have success : ∀ entry ∈ own reread.thread later, Entry.inserted entry = Entry.inserts entry := by
        by_cases none : diffIssueFields found updated = []
        · intro entry member
          have nothing := List.map_eq_nil_iff.mp (recorded.data.trans none)
          have absent := List.filterMap_eq_nil_iff.mp nothing entry (List.mem_reverse.mpr member)
          exact (inserted_of_none absent).trans absent.symm
        · refine recording.inserts (upToReread.present.trans present) ?_ recorded.rows
          rw [editing.users]
          exact known none
      have attempts : (own reread.thread later).reverse.filterMap Entry.inserted =
          (own reread.thread later).reverse.filterMap Entry.inserts :=
        List.filterMap_congr fun entry member => success entry (List.mem_reverse.mp member)
      rw [total, ← entries, part, attempts, ← recorded.data, List.map_map]
      rfl

/-! ### The new entries of the issue -/

omit [DecidableEq ι] in
/-- One step adds at most one entry to the history. -/
theorem newEntries_step {entry : Entry Query.Answer} {before after : Store}
    (step : PutStep id entry before after) (later : start.history.seq ≤ before.history.seq) :
    start.history.seq ≤ after.history.seq ∧ newEntries start after id = newEntries start before id ++
      (((Entry.inserted entry).filter fun row => row.issueID == id && row.event == .updated).map
        fun row => (row.userID, row.data)).toList := by
  have history := step.history
  cases inserts : Entry.inserted entry with
  | none =>
      rw [inserts] at history
      unfold newEntries
      rw [show after.history = before.history from history]
      exact ⟨later, (List.append_nil _).symm⟩
  | some row =>
      rw [inserts] at history
      have entries : after.history.entries = before.history.entries ++ [(before.history.seq + 1, row)] :=
        congrArg Table.entries history
      refine ⟨?_, ?_⟩
      · rw [show after.history = before.history.insert row from history, Table.seq_insert]
        omega
      · unfold newEntries
        rw [entries, List.filter_append, List.map_append]
        have fresh : decide (start.history.seq < before.history.seq + 1) = true := decide_eq_true (by omega)
        rw [List.filter_singleton, Option.filter_some, fresh, Bool.true_and]
        cases row.issueID == id && row.event == HistoryEvent.updated with
        | true => rfl
        | false => rfl

omit [DecidableEq ι] in
theorem newEntries_self : newEntries start start id = [] := by
  unfold newEntries
  rw [List.map_eq_nil_iff, List.filter_eq_nil_iff]
  intro entry member chosen
  have old := (start.history.bounded entry member).2
  simp only [Bool.and_eq_true, decide_eq_true_eq] at chosen
  omega

theorem inserts_of_inserted {entry : Entry Query.Answer} {row : HistoryRow}
    (inserted_ : Entry.inserted entry = some row) : Entry.inserts entry = some row := by
  unfold Entry.inserted at inserted_
  split at inserted_
  · exact inserted_
  · exact nomatch inserted_

omit [DecidableEq ι] in
/-- **The new entries are those that the steps have inserted.** -/
theorem Stretch.entries (stretch : Stretch id start part s) {author : ι → Option Int}
    (rows : ∀ event ∈ part, ∀ row, Entry.inserts event.entry = some row →
      row.issueID = id ∧ row.userID = author event.thread ∧ row.event = .updated) :
    newEntries start s id = credit author (inserted part) := by
  refine (stretch.keeps (fun part s => start.history.seq ≤ s.history.seq ∧
    newEntries start s id = credit author (inserted part)) ⟨le_refl _, newEntries_self⟩ ?_).2
  rintro event earlier before after _ _ step ⟨later, rfl⟩ ⟨grown, ih⟩
  obtain ⟨grown, added⟩ := newEntries_step step grown
  refine ⟨grown, ?_⟩
  rw [added, ih]
  show _ = List.map _ (inserted earlier ++ _)
  rw [List.map_append]
  refine congrArg (credit author (inserted earlier) ++ ·) ?_
  cases inserts : Entry.inserted event.entry with
  | none => rfl
  | some row =>
      obtain ⟨issue, user, updated⟩ := rows event (by simp) row (inserts_of_inserted inserts)
      simp [Option.filter, issue, user, updated]

omit [DecidableEq ι] in
/-- Without the issue there is nothing to change and nothing to record. -/
theorem Stretch.absent (stretch : Stretch id start part s) (absent : (start.issues.get? id).isSome = false) :
    newEntries start s id = [] ∧ displayed start id part = [] := by
  have gone : ∀ {earlier : List (Step ι)} {before}, Stretch id start earlier before →
      before.issues.get? id = none := fun early =>
    Option.isNone_iff_eq_none.mp (Option.isSome_eq_false_iff.mp (early.present.trans absent))
  refine (stretch.keeps (fun part s => start.history.seq ≤ s.history.seq ∧
    newEntries start s id = [] ∧ displayed start id part = []) ⟨le_refl _, newEntries_self, rfl⟩ ?_).2
  rintro event earlier before after early here step _ ⟨grown, none, nothing⟩
  obtain ⟨grown, added⟩ := newEntries_step step grown
  refine ⟨grown, ?_, ?_⟩
  · rw [added, none, List.nil_append]
    cases inserts : Entry.inserted event.entry with
    | none => rfl
    | some row =>
        have other : row.issueID ≠ id := by
          obtain ⟨_, query, answer⟩ := event
          unfold Entry.inserted Event.entry at inserts
          split at inserts
          · next row_ rows same =>
              cases inserts
              cases same
              obtain ⟨refs, _⟩ := require_bind_ok.mp (Write.apply_of_ok here)
              rintro rfl
              have known : (before.issues.get? row.issueID).isSome = true :=
                ((Bool.and_eq_true _ _).mp refs).1
              rw [gone early] at known
              exact nomatch known
          · exact nomatch inserts
        simp [Option.filter, other]
  · rw [displayed_cons early here, nothing]
    have old : before.issue? id = Option.none := Option.map_eq_none_iff.mpr (gone early)
    unfold changesBetween
    rw [old]
    rfl

end Stretches

/-! ### Runs of PUTs -/

theorem EditLog.rows {userID id : Int} {past : Past} (log : EditLog userID id past) :
    ∀ entry ∈ past, ∀ row, Entry.inserts entry = some row →
      row.issueID = id ∧ row.userID = actor userID ∧ row.event = .updated := by
  intro entry member row inserts
  have never : ∀ {others : Past}, (∀ entry ∈ others, Entry.inserts entry = none) → entry ∉ others :=
    fun none inside => nomatch (none entry inside).symm.trans inserts
  cases log with
  | silent silent => exact absurd member (never fun entry inside => (silent entry inside).inserts)
  | edited silent edits recorded =>
      rcases List.mem_append.mp member with member | member
      · exact recorded.rows entry member row inserts
      · rcases List.mem_cons.mp member with rfl | member
        · exact nomatch inserts
        · rcases List.mem_append.mp member with member | member
          · exact absurd member (never edits.inserts)
          · rcases List.mem_cons.mp member with rfl | member
            · exact nomatch inserts
            · exact absurd member (never fun entry inside => (silent entry inside).inserts)

section Runs

variable {ι : Type} [DecidableEq ι] {host : Host} {start s : Store} {reqs : ι → Request}
  {trace : List (Step ι)} {current : ι → Backend Response} {id : Int} {caller : ι → Caller}

/-- The requests are PUTs on one issue, each by its caller. -/
def ArePuts (reqs : ι → Request) (caller : ι → Caller) (id : Int) : Prop :=
  ∀ i, ∃ pId ifMatch body, reqs i = .putIssue (caller i) pId (some id) ifMatch body

theorem ServesFrom.stretch (run : ServesFrom host start reqs trace s current)
    (puts : ArePuts reqs caller id) : Stretch id start trace s := by
  refine ⟨run.steps, fun event member => ?_⟩
  obtain ⟨later, earlier, rfl⟩ := List.append_of_mem member
  have allowed := run.allowed
  obtain ⟨pId, ifMatch, body, put⟩ := puts event.thread
  rw [put] at allowed
  obtain ⟨thread, query, answer⟩ := event
  cases query with
  | write w =>
      cases allowed with
      | putIssue => exact .inl ⟨_, rfl⟩
      | putIssuePosition => exact .inr (.inl ⟨_, rfl⟩)
      | editHistory => exact .inr (.inr (.inl ⟨_, rfl⟩))
      | history records => exact nomatch records
      | session sessions => exact .inr (.inr (.inr sessions))
  | _ => trivial

omit [DecidableEq ι] in
theorem answered_of_present {query : Query} {answer : query.Answer} {before after : Store} {row : IssueRow}
    (here : query.perform before answer after) (found : before.issues.get? id = some row) :
    Answered id query answer := by
  cases query with
  | read q =>
      obtain ⟨rfl, _⟩ := perform_read here
      cases q with
      | issueByID key =>
          rintro rfl
          simp [Select.eval, found]
      | _ => trivial
  | write w =>
      rcases Write.exec_cases here with ⟨rows, rfl, applied⟩ | ⟨_, rfl, _⟩
      · cases w with
        | updateIssue key cols =>
            rintro rfl rfl
            obtain ⟨_, rest⟩ := require_bind_ok.mp applied
            have none := (Prod.mk.inj (Except.ok.inj rest)).1
            exact absurd (Table.count_eq_zero_iff.mp none _ row found) (by simp)
        | _ => trivial
      · cases w with
        | _ => trivial
  | _ => trivial

omit [DecidableEq ι] in
/-- An issue that is there stays there. -/
theorem Stretch.answered (stretch : Stretch id start trace s)
    (present : (start.issues.get? id).isSome = true) :
    ∀ event ∈ trace, Answered id event.query event.answer := by
  intro event member
  obtain ⟨later, earlier, rfl⟩ := List.append_of_mem member
  obtain ⟨_, upTo, _⟩ := stretch.split
  obtain ⟨before, first, here, _⟩ := upTo.last
  obtain ⟨row, found⟩ := Option.isSome_iff_exists.mp (first.present.trans present)
  exact answered_of_present here found

omit [DecidableEq ι] in
/-- Requests that are served one at a time do not disturb each other. -/
theorem undisturbed_of_oneAtATime (one : Interleave.OneAtATime trace) : Undisturbed start id trace := by
  intro later reread between load earlier _ _ _ place same _ _ change member
  obtain ⟨event, inside, thread⟩ := collected_thread member
  exact thread ▸ (one later reread between load earlier place same event inside).trans same

end Runs

/-! ### Two users -/

/-- The second user. -/
def secondUser : Caller := ⟨2, "user@example.com", .user⟩

/-- The two users and an issue. -/
def twoUsers : List (Request × List (Unit × Input)) :=
  [(.createIssue sampleAdmin (some 1) (.json { title := "Crash", status := .todo }),
      stepsOf () 20 { instant := 3 }),
    (.createUser sampleAdmin (.json
        { email := "user@example.com", firstName := "Test", lastName := "User", role := .user, active := true
          password := "correct horse 8!" }),
      stepsOf () 12 { instant := 2, text := some "bcrypt:correct horse 8!" }),
    (bootstrap, stepsOf () 9 { instant := 1, text := some "bcrypt:correct horse 7!" })]

/-- One renames the issue, the other one then raises its priority, each with the version it has seen. -/
def twoEdits : Fin 2 → Request
  | 0 => .putIssue sampleAdmin (some 1) (some 1) (formatETag 3)
      (.json { title := "Crash on start", status := .todo, priority := .normal })
  | 1 => .putIssue secondUser (some 1) (some 1) (formatETag 4)
      (.json { title := "Crash on start", status := .todo, priority := .high })

def twoEditors : Fin 2 → Caller
  | 0 => sampleAdmin
  | 1 => secondUser

theorem twoEdits_puts : ArePuts twoEdits twoEditors 1
  | 0 => ⟨_, _, _, rfl⟩
  | 1 => ⟨_, _, _, rfl⟩

/-- The first request takes `n` steps before the second one is served. -/
def edited (n : Nat) : Config (Fin 2) Query.Answer Store Response :=
  executeFrom sampleHost (executeAll sampleHost createTables twoUsers) twoEdits
    (stepsOf 0 n { instant := 4 } ++ stepsOf 1 20 { instant := 5 } ++ stepsOf 0 20 { instant := 6 })

theorem edited_run (n : Nat) : ServesFrom sampleHost (executeAll sampleHost createTables twoUsers) twoEdits
    (edited n).past (edited n).store (edited n).current :=
  ServesFrom.of_moves _ _ _ _

/-- The changes of the two edits. -/
def titleAndPriority : List (Fin 2 × ChangeData) :=
  [(0, { field := "title" }), (1, { field := "priority", from_ := "Normal", to_ := "High" })]

end Wuflow

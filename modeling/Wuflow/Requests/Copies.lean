/-
**The copies that requests work on.**

A handler reads an issue in one statement and writes all of its columns back in another.

* `Loads` — a step of the run has read the issue, in the database `loaded`.
* `ServesFrom.copied` — the copy that a request has loaded (`LoadedIssue`) is a row of an earlier
  database of the run, with the references of that row.
* `Kept`, `kept_iff` — a write that takes some of the columns from such a copy keeps them exactly if they
  have not changed since the copy was read.
-/

import Wuflow.Requests.Sequential

namespace Wuflow

open Calendar (Instant)
open Interleave (Entry Event Steps own mem_own)
open Relational (Table)

variable {ι : Type} [DecidableEq ι] {host : Host} {start s : Store} {reqs : ι → Request}
  {trace earlier : List (Step ι)} {current : ι → Backend Response} {thread : ι} {id P : Int}

/-! ### The step that has read the copy -/

/-- The step reads the issue, in the database `loaded`. -/
structure Loads (start : Store) (read : Step ι) (earlier : List (Step ι)) (loaded : Store)
    (id : Int) : Prop where
  reached : Steps Query.perform start earlier loaded
  reads : ∃ P found, read.entry = ⟨.read (.issueByIDInProject id P), .ok (some found)⟩

/-- The copy has the columns of the row. -/
structure Copies (row : IssueRow) (id : Int) (copy : Issue) : Prop where
  id : copy.id = id
  columns : copy.columns = { row.toIssueColumns with updatedBy := nullableUserID row.updatedBy }

omit [DecidableEq ι] in
/-- In a consistent database a copy loses nothing. -/
theorem Consistent.copies (consistent : Consistent s) {row : IssueRow}
    (found : s.issues.get? id = some row) (tasks : List Task) :
    Copies row id { s.scanIssueRow id row with tasks } := by
  obtain ⟨project, label, release, assignee⟩ := consistent.scanIssueRow_columns found
  refine ⟨rfl, ?_⟩
  simp only [Issue.columns, label, assignee, project, release]
  rfl

/-- **The copy that a request has loaded.** -/
theorem ServesFrom.copied (consistent : Consistent start)
    (run : ServesFrom host start reqs trace s current) {copy : Issue}
    (loaded : LoadedIssue (own thread trace) id P copy) :
    ∃ between read earlier t row, trace = between ++ read :: earlier ∧ read.thread = thread ∧
      Loads start read earlier t id ∧ Consistent t ∧ t.issues.get? id = some row ∧
      row.projectID = P ∧ Copies row id copy := by
  obtain ⟨found, tasks, rfl, member⟩ := loaded
  obtain ⟨read, inside, same, entry⟩ := mem_own.mp member
  obtain ⟨between, earlier, rfl⟩ := List.append_of_mem inside
  obtain ⟨t, pool, t', run', here, _⟩ := run.split
  have consistent' : Consistent t := (ServesFrom.references consistent run').consistent
  obtain ⟨_, query, answer⟩ := read
  cases entry
  obtain ⟨answer, rfl⟩ := perform_read here
  obtain ⟨row, found', rfl⟩ := Option.map_eq_some_iff.mp (Except.ok.inj answer).symm
  obtain ⟨found', place⟩ := Option.filter_eq_some_iff.mp found'
  exact ⟨between, _, earlier, t', row, rfl, same, ⟨run'.steps, _, _, rfl⟩, consistent', found',
    beq_iff_eq.mp place, consistent'.copies found' tasks⟩

/-! ### What a write keeps -/

/-- From `t` to `s` a part of the columns of the issue has not changed. -/
def Kept {α : Type} (part : IssueColumns → α) (id : Int) (t s : Store) : Prop :=
  ∀ row row', t.issues.get? id = some row → s.issues.get? id = some row' →
    part row'.toIssueColumns = part row.toIssueColumns

omit [DecidableEq ι] in
/-- The issue after all of its columns have been written. -/
theorem updateIssue_get? {cols : IssueColumns} {rows : Int} {s' : Store}
    (applied : (Write.updateIssue id cols).apply s = .ok (rows, s')) :
    s'.issues.get? id = (s.issues.get? id).map fun row => { row with toIssueColumns := cols } := by
  obtain ⟨_, rest⟩ := require_bind_ok.mp applied
  cases rest
  rw [Table.get?_update]
  simp

omit [DecidableEq ι] in
/-- **A write keeps the columns that it takes from a copy exactly if they have not changed since the copy
was read.** -/
theorem kept_iff {α : Type} {part : IssueColumns → α} {t s s' : Store} {row : IssueRow}
    {cols : IssueColumns} {rows : Int} (found : t.issues.get? id = some row)
    (taken : part cols = part row.toIssueColumns)
    (applied : (Write.updateIssue id cols).apply s = .ok (rows, s')) :
    Kept part id s s' ↔ Kept part id t s := by
  have after := updateIssue_get? applied
  constructor
  · intro kept old now here there
    cases here.symm.trans found
    rw [there] at after
    exact (kept now _ there after).symm.trans taken
  · intro kept now new here there
    rw [here] at after
    cases there.symm.trans after
    exact taken.trans (kept row now found here).symm

end Wuflow

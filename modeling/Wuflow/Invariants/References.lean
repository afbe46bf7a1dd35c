/-
**An issue refers to rows of its own project.**

The schema only checks that a label or a release exists. That it is in the issue's project was checked by
the request, in an earlier step of its own, and other requests may run in between. The invariant
(`References`) therefore has two parts: the database is `Consistent`, and whatever an answer in the trace
vouches for is still true of the row under that key, if there still is one. Keys are not reused, a label
never changes and a release keeps its project, so the second part is never lost; with it, the foreign key
that the write itself checks is enough for the first.
-/

import Wuflow.Requests.Runs

namespace Wuflow

open Calendar (Instant)
open Interleave (Prog Entry Event Run Steps own mem_own)
open Relational (Table)

/-! ### The invariant -/

/-- The references of issues name rows, and labels and releases of the issue's project. -/
structure Consistent (s : Store) : Prop where
  project : ∀ id row, s.issues.get? id = some row → ∃ p, s.projects.get? row.projectID = some p
  label : ∀ id row l, s.issues.get? id = some row → row.labelID = some l →
    ∃ label, s.labels.get? l = some label ∧ label.projectID = row.projectID
  release : ∀ id row r, s.issues.get? id = some row → row.releaseID = some r →
    ∃ release, s.releases.get? r = some release ∧ release.projectID = row.projectID
  assignee : ∀ id row u, s.issues.get? id = some row → row.assigneeID = some u →
    ∃ user, s.users.get? u = some user

/-- The key was given out, and a label under it is in the project. -/
structure LabelPinned (s : Store) (l projectID : Int) : Prop where
  given : l ≤ s.labels.seq
  project : ∀ label, s.labels.get? l = some label → label.projectID = projectID

/-- The key was given out, and a release under it is in the project. -/
structure ReleasePinned (s : Store) (r projectID : Int) : Prop where
  given : r ≤ s.releases.seq
  project : ∀ release, s.releases.get? r = some release → release.projectID = projectID

/-- The database is consistent, and every answer of the trace is still true. -/
structure References {ι : Type} (trace : List (Step ι)) (s : Store) : Prop where
  consistent : Consistent s
  labels : ∀ event ∈ trace, ∀ l p, VouchesLabel event.entry l p → LabelPinned s l p
  releases : ∀ event ∈ trace, ∀ r p, VouchesRelease event.entry r p → ReleasePinned s r p

/-! ### Pins are never lost -/

section Pins

variable {s s' : Store} {l r p : Int}

theorem LabelPinned.evolves (pinned : LabelPinned s l p) (evolves : s.Evolves s') :
    LabelPinned s' l p := by
  obtain ⟨given, project⟩ := evolves.labels.pinned
    (fun _ _ (same : SameLabel _ _ _) here => same ▸ here) pinned.given pinned.project
  exact ⟨given, project⟩

theorem ReleasePinned.evolves (pinned : ReleasePinned s r p) (evolves : s.Evolves s') :
    ReleasePinned s' r p := by
  obtain ⟨given, project⟩ := evolves.releases.pinned
    (fun _ _ (same : SameReleaseProject _ _ _) here => same.symm.trans here) pinned.given
    pinned.project
  exact ⟨given, project⟩

theorem LabelPinned.of_row {label : LabelRow} (found : s.labels.get? l = some label) :
    LabelPinned s l label.projectID := by
  refine ⟨(Table.get?_le_seq found).2, fun other here => ?_⟩
  cases found.symm.trans here
  rfl

theorem ReleasePinned.of_row {release : ReleaseRow} (found : s.releases.get? r = some release) :
    ReleasePinned s r release.projectID := by
  refine ⟨(Table.get?_le_seq found).2, fun other here => ?_⟩
  cases found.symm.trans here
  rfl

end Pins

/-! ### What a read shows -/

section Reads

variable {s : Store} {id : Int} {row : IssueRow}

/-- In a consistent database the joins of an issue lose nothing. -/
theorem Consistent.scanIssueRow_columns (consistent : Consistent s)
    (found : s.issues.get? id = some row) :
    (s.scanIssueRow id row).projectID = row.projectID ∧
      (s.scanIssueRow id row).label.map (·.id) = row.labelID ∧
      (s.scanIssueRow id row).releaseID = row.releaseID ∧
      (s.scanIssueRow id row).assigneeID = row.assigneeID := by
  refine ⟨?_, ?_, ?_, ?_⟩
  · obtain ⟨p, here⟩ := consistent.project id row found
    simp [Store.scanIssueRow, here]
  · cases refers : row.labelID with
    | none => simp [Store.scanIssueRow, refers]
    | some l =>
        obtain ⟨label, here, _⟩ := consistent.label id row l found refers
        simp [Store.scanIssueRow, refers, here]
  · cases refers : row.releaseID with
    | none => simp [Store.scanIssueRow, refers]
    | some r =>
        obtain ⟨release, here, _⟩ := consistent.release id row r found refers
        simp [Store.scanIssueRow, refers, here]
  · cases refers : row.assigneeID with
    | none => simp [Store.scanIssueRow, Store.joinedUser, refers]
    | some u =>
        obtain ⟨user, here⟩ := consistent.assignee id row u found refers
        simp [Store.scanIssueRow, Store.joinedUser, refers, here]

theorem Consistent.vouchesLabel_pinned (consistent : Consistent s) {query : Query} {s' : Store}
    {answer : query.Answer} (here : query.perform s answer s') {l p : Int}
    (vouches : VouchesLabel ⟨query, answer⟩ l p) : LabelPinned s l p := by
  cases query with
  | read q =>
      cases q with
      | labelExistsInProject label project =>
          obtain ⟨rfl, rfl, positive⟩ := vouches
          have holds := Except.ok.inj (here.1.symm.trans positive)
          obtain ⟨row, found, chosen⟩ := Table.holds_eq_true_iff.mp holds
          rw [beq_iff_eq] at chosen
          exact chosen ▸ .of_row found
      | issueByIDInProject id project =>
          obtain ⟨issue, positive, carries, rfl⟩ := vouches
          have read := Except.ok.inj (here.1.symm.trans positive)
          obtain ⟨row, found, rfl⟩ := Option.map_eq_some_iff.mp read
          have found := (Option.filter_eq_some_iff.mp found).1
          obtain ⟨sameProject, sameLabel, _⟩ := consistent.scanIssueRow_columns found
          rw [sameLabel] at carries
          obtain ⟨label, found', inside⟩ := consistent.label id row l found carries
          rw [sameProject, ← inside]
          exact .of_row found'
      | _ => exact vouches.elim
  | _ => exact vouches.elim

theorem Consistent.vouchesRelease_pinned (consistent : Consistent s) {query : Query} {s' : Store}
    {answer : query.Answer} (here : query.perform s answer s') {r p : Int}
    (vouches : VouchesRelease ⟨query, answer⟩ r p) : ReleasePinned s r p := by
  cases query with
  | read q =>
      cases q with
      | releaseExistsInProject release project =>
          obtain ⟨rfl, rfl, positive⟩ := vouches
          have holds := Except.ok.inj (here.1.symm.trans positive)
          obtain ⟨row, found, chosen⟩ := Table.holds_eq_true_iff.mp holds
          rw [beq_iff_eq] at chosen
          exact chosen ▸ .of_row found
      | issueByIDInProject id project =>
          obtain ⟨issue, positive, carries, rfl⟩ := vouches
          have read := Except.ok.inj (here.1.symm.trans positive)
          obtain ⟨row, found, rfl⟩ := Option.map_eq_some_iff.mp read
          have found := (Option.filter_eq_some_iff.mp found).1
          obtain ⟨sameProject, _, sameRelease, _⟩ := consistent.scanIssueRow_columns found
          rw [sameRelease] at carries
          obtain ⟨release, found', inside⟩ := consistent.release id row r found carries
          rw [sameProject, ← inside]
          exact .of_row found'
      | _ => exact vouches.elim
  | _ => exact vouches.elim

end Reads

/-! ### Writes -/

section Writes

variable {s s' : Store} {rows : Int} {w : Write}

theorem refExists_some {ρ : Type} {t : Table ρ} {id : Int} (here : refExists t (some id) = true) :
    ∃ row, t.get? id = some row := Option.isSome_iff_exists.mp here

/-- What a write of columns needs besides the foreign keys. -/
structure PinnedColumns (s : Store) (cols : IssueColumns) : Prop where
  label : ∀ l, cols.labelID = some l → LabelPinned s l cols.projectID
  release : ∀ r, cols.releaseID = some r → ReleasePinned s r cols.projectID

/-- The references of written columns, after the write. -/
theorem PinnedColumns.references {cols : IssueColumns} (pinned : PinnedColumns s cols)
    (refs : s.issueRefsExist cols = true) (grows : s.Grows s') :
    (∃ p, s'.projects.get? cols.projectID = some p) ∧
      (∀ l, cols.labelID = some l →
        ∃ label, s'.labels.get? l = some label ∧ label.projectID = cols.projectID) ∧
      (∀ r, cols.releaseID = some r →
        ∃ release, s'.releases.get? r = some release ∧ release.projectID = cols.projectID) ∧
      (∀ u, cols.assigneeID = some u → ∃ user, s'.users.get? u = some user) := by
  unfold Store.issueRefsExist at refs
  simp only [Bool.and_eq_true] at refs
  obtain ⟨⟨⟨⟨label, assignee⟩, _⟩, project⟩, release⟩ := refs
  refine ⟨?_, ?_, ?_, ?_⟩
  · obtain ⟨p, found⟩ := refExists_some project
    exact grows.projects _ p found
  · intro l same
    rw [same] at label
    obtain ⟨row, found⟩ := refExists_some label
    exact ⟨row, grows.labels l row found, (pinned.label l same).project row found⟩
  · intro r same
    rw [same] at release
    obtain ⟨row, found⟩ := refExists_some release
    obtain ⟨row', found', sameProject⟩ := grows.releases r row found
    exact ⟨row', found', sameProject.trans ((pinned.release r same).project row found)⟩
  · intro u same
    rw [same] at assignee
    obtain ⟨row, found⟩ := refExists_some assignee
    exact grows.users u row found

/-- **A write keeps the database consistent**, if the columns it writes are pinned. -/
theorem Consistent.write (consistent : Consistent s) (applied : w.apply s = .ok (rows, s'))
    (inserted : ∀ row, w = .insertIssue row → PinnedColumns s row.toIssueColumns)
    (updated : ∀ id cols, w = .updateIssue id cols → PinnedColumns s cols) : Consistent s' := by
  suffices references : ∀ id row, s'.issues.get? id = some row →
      (∃ p, s'.projects.get? row.projectID = some p) ∧
        (∀ l, row.labelID = some l →
          ∃ label, s'.labels.get? l = some label ∧ label.projectID = row.projectID) ∧
        (∀ r, row.releaseID = some r →
          ∃ release, s'.releases.get? r = some release ∧ release.projectID = row.projectID) ∧
        (∀ u, row.assigneeID = some u → ∃ user, s'.users.get? u = some user) from
    { project := fun id row found => (references id row found).1
      label := fun id row l found => (references id row found).2.1 l
      release := fun id row r found => (references id row found).2.2.1 r
      assignee := fun id row u found => (references id row found).2.2.2 u }
  intro id row' found
  rcases Write.issue_cases applied found with
    ⟨rfl, _, refs, grows⟩ | ⟨row, cols, rfl, _, rfl, refs, grows⟩ | ⟨row, here, carried⟩
  · exact (inserted row' rfl).references refs grows
  · exact (updated id cols rfl).references refs grows
  · refine ⟨?_, ?_, ?_, ?_⟩
    · obtain ⟨p, found⟩ := consistent.project id row here
      rw [carried.sameProject]
      exact carried.project p found
    · intro l same
      obtain ⟨same, survives⟩ := carried.label l same
      obtain ⟨label, found, inside⟩ := consistent.label id row l here same
      exact ⟨label, survives label found, inside.trans carried.sameProject.symm⟩
    · intro r same
      obtain ⟨same, survives⟩ := carried.release r same
      obtain ⟨release, found, inside⟩ := consistent.release id row r here same
      obtain ⟨release', found', sameProject⟩ := survives release found
      exact ⟨release', found', (sameProject.trans inside).trans carried.sameProject.symm⟩
    · intro u same
      obtain ⟨same, survives⟩ := carried.assignee u same
      obtain ⟨user, found⟩ := consistent.assignee id row u here same
      exact survives user found

end Writes

/-! ### Runs -/

section Runs

variable {ι : Type} [DecidableEq ι] {host : Host} {reqs : ι → Request} {trace : List (Step ι)}
  {s : Store} {current : ι → Backend Response}

/-- What a request has been told about its columns is still true. -/
theorem References.pinnedColumns (references : References trace s) {thread : ι} {cols : IssueColumns}
    (vouched : Vouched (own thread trace) cols) : PinnedColumns s cols where
  label l same := by
    obtain ⟨entry, member, vouches⟩ := vouched.label l same
    obtain ⟨event, inside, _, rfl⟩ := mem_own.mp member
    exact references.labels event inside l cols.projectID vouches
  release r same := by
    obtain ⟨entry, member, vouches⟩ := vouched.release r same
    obtain ⟨event, inside, _, rfl⟩ := mem_own.mp member
    exact references.releases event inside r cols.projectID vouches

theorem createTables_consistent : Consistent createTables where
  project _ _ found := nomatch found
  label _ _ _ found := nomatch found
  release _ _ _ found := nomatch found
  assignee _ _ _ found := nomatch found

/-- One step of a run. -/
theorem References.step {event : Step ι} {past : List (Step ι)} {before after : Store}
    (disciplined : Discipline host (reqs event.thread) (own event.thread past) event.query)
    (here : event.query.perform before event.answer after) (references : References past before) :
    References (event :: past) after := by
  have evolves := perform_evolves here
  refine ⟨?_, fun e member l p vouches => ?_, fun e member r p vouches => ?_⟩
  · rcases perform_cases here with ⟨w, rows, same, applied⟩ | ⟨rfl, _⟩
    · obtain ⟨thread, query, answer⟩ := event
      cases same
      refine references.consistent.write applied ?_ ?_
      · rintro row rfl
        exact references.pinnedColumns disciplined.1
      · rintro id cols rfl
        exact references.pinnedColumns disciplined.1
    · exact references.consistent
  · refine LabelPinned.evolves ?_ evolves
    rcases List.mem_cons.mp member with rfl | member
    · exact references.consistent.vouchesLabel_pinned here vouches
    · exact references.labels e member l p vouches
  · refine ReleasePinned.evolves ?_ evolves
    rcases List.mem_cons.mp member with rfl | member
    · exact references.consistent.vouchesRelease_pinned here vouches
    · exact references.releases e member r p vouches

/-- **The invariant holds along every run.** -/
theorem Serves.references (run : Serves host reqs trace s current) : References trace s :=
  Serves.invariant run References
    ⟨createTables_consistent, fun _ member => absurd member List.not_mem_nil,
      fun _ member => absurd member List.not_mem_nil⟩
    fun _ _ _ _ disciplined here references => references.step disciplined here

/-- **Project consistency**: in every database a run reaches, the label of an issue is a label of the
issue's project, and so is its release. -/
theorem label_and_release_in_project (run : Serves host reqs trace s current) {id : Int}
    {row : IssueRow} (found : s.issues.get? id = some row) :
    (∀ l, row.labelID = some l →
      ∃ label, s.labels.get? l = some label ∧ label.projectID = row.projectID) ∧
    ∀ r, row.releaseID = some r →
      ∃ release, s.releases.get? r = some release ∧ release.projectID = row.projectID :=
  ⟨fun l => run.references.consistent.label id row l found,
    fun r => run.references.consistent.release id row r found⟩

end Runs

/-- A label and an issue that carries it. -/
def labelledIssue : Fin 3 → Request
  | 0 => bootstrap
  | 1 => .createLabel sampleAdmin (some 1) (.json { name := "bug", color := "#ff0000" })
  | 2 => .createIssue sampleAdmin (some 1)
      (.json { title := "Crash", status := .todo, label := some { id := 1 } })

def labelledIssueMoves : List (Fin 3 × Input) :=
  stepsOf 0 9 { instant := 1, text := some "bcrypt:correct horse 7!" } ++
    stepsOf 1 9 { instant := 2 } ++ stepsOf 2 9 { instant := 3 }

theorem label_and_release_in_project_labelled :
    ∃ label, (execute sampleHost labelledIssue labelledIssueMoves).store.labels.get? 1 = some label ∧
      label.projectID = 1 := by
  have found : (execute sampleHost labelledIssue labelledIssueMoves).store.issues.get? 1 = some
      { title := "Crash", description := "", status := .todo, position := 1, deadline := none,
        plannedDates := none, priority := .normal, labelID := some 1, assigneeID := none,
        updatedBy := some 1, projectID := 1, releaseID := none, updatedAt := 3,
        creatorID := some 1 } := by decide +kernel
  exact (label_and_release_in_project (Serves.of_moves sampleHost labelledIssue labelledIssueMoves)
    found).1 1 rfl

end Wuflow

/-
**Archived issues are frozen.**

`Frozen start i row s` — the row of issue `i` is `row`, and its tasks and comments are those of `start`.

* `Frozen.write` — a sanctioned write keeps it: a handler that writes below an issue has read that its
  status is not `Archive`, in a database in which `i` was archived as it is now, so the issue is another
  one; a reorder and a release trigger pass over archived rows in their `WHERE` clause; a project with an
  issue in it is not deleted.
* `reorder_rolled_back` — a reorder that lists an archived issue leaves the whole database as it is.
* `archived_frozen` — both, over every sequential run of requests that do not thaw the issue.
-/

import Wuflow.Model.Checks
import Wuflow.Requests.Sequential

namespace Wuflow

open Calendar (Instant)
open Interleave (Prog Run)
open Interleave.Stopping (Asks Obeys)
open Relational (Table)

/-- The requests that may touch an archived issue: unarchiving it, deleting the label or the release it
refers to, deleting a user. -/
def Request.Thaws (i : Int) (row : IssueRow) : Request → Prop
  | .unarchiveIssue _ _ id => id = some i
  | .deleteLabel _ _ id _ => ∃ label, id = some label ∧ row.labelID = some label
  | .deleteRelease _ _ id _ => ∃ release, id = some release ∧ row.releaseID = some release
  | .deleteUser _ _ _ => True
  | _ => False

/-- Issue `i` has the columns `row`, and the tasks and comments it had in `start`. -/
structure Frozen (start : Store) (i : Int) (row : IssueRow) (s : Store) : Prop where
  issue : s.issues.get? i = some row
  tasks : Table.SameOn (fun _ task => task.issueID = i) start.tasks s.tasks
  comments : Table.SameOn (fun _ comment => comment.issueID = i) start.comments s.comments

theorem Frozen.refl {start : Store} {i : Int} {row : IssueRow}
    (found : start.issues.get? i = some row) : Frozen start i row start where
  issue := found
  tasks := .refl _
  comments := .refl _

theorem Frozen.trans {start middle s : Store} {i : Int} {row : IssueRow}
    (first : Frozen start i row middle) (second : Frozen middle i row s) : Frozen start i row s where
  issue := second.issue
  tasks := first.tasks.trans second.tasks
  comments := first.comments.trans second.comments

/-! ### One write -/

section Writes

variable {start s : Store} {i : Int} {row : IssueRow}

/-- A change of issues that leaves `i` out. -/
theorem Frozen.updateIssues (frozen : Frozen start i row s) {selects : Int → IssueRow → Bool}
    {change : IssueRow → IssueRow} (spared : selects i row = false) :
    Frozen start i row { s with issues := s.issues.update selects change } :=
  { frozen with
    issue := by
      rw [Table.get?_update, frozen.issue]
      simp [spared] }

/-- A change of one other issue. -/
theorem Frozen.updateIssueRow (frozen : Frozen start i row s) {id : Int} (other : id ≠ i)
    {change : IssueRow → IssueRow} :
    Frozen start i row { s with issues := s.issues.update (fun key _ => key == id) change } :=
  frozen.updateIssues (beq_false_of_ne other.symm)

/-- A reference of `i` that is not deleted. -/
theorem Frozen.setNull_issues (frozen : Frozen start i row s) {deleted : Int → Bool}
    {reference : IssueRow → Option Int} {clear : IssueRow → IssueRow}
    (spared : ∀ key, reference row = some key → deleted key = false) :
    (setNull s.issues deleted reference clear).get? i = some row := by
  have untouched : (reference row).any deleted = false := by
    cases here : reference row with
    | none => rfl
    | some key => exact spared key here
  unfold setNull
  rw [Table.get?_update, frozen.issue]
  simp [untouched]

theorem Frozen.deleteLabels (frozen : Frozen start i row s) {selects : Int → LabelRow → Bool}
    (spared : ∀ label, row.labelID = some label → s.labels.holds label (selects label) = false) :
    Frozen start i row (s.deleteLabels selects) :=
  { frozen with issue := s.deleteLabels_issues selects ▸ frozen.setNull_issues spared }

theorem Frozen.deleteReleases (frozen : Frozen start i row s) {selects : Int → ReleaseRow → Bool}
    (spared : ∀ r, row.releaseID = some r → s.releases.holds r (selects r) = false) :
    Frozen start i row (s.deleteReleases selects) :=
  { frozen with issue := s.deleteReleases_issues selects ▸ frozen.setNull_issues spared }

/-- A project without `i` in it is deleted: the label and the release of `i` are in its own project. -/
theorem Frozen.deleteProjectRow (frozen : Frozen start i row s) (consistent : Consistent s) {id : Int}
    (outside : row.projectID ≠ id) : Frozen start i row (s.deleteProjectRow id) := by
  have labels : Frozen start i row (s.deleteLabels fun _ label => label.projectID == id) := by
    refine frozen.deleteLabels fun l refers => Bool.eq_false_iff.mpr fun held => ?_
    obtain ⟨label, found, chosen⟩ := Table.holds_eq_true_iff.mp held
    obtain ⟨label', found', inside⟩ := consistent.label i row l frozen.issue refers
    cases found.symm.trans found'
    exact outside (inside.symm.trans (beq_iff_eq.mp chosen))
  have releases : Frozen start i row ((s.deleteLabels fun _ label => label.projectID == id).deleteReleases
      fun _ release => release.projectID == id) := by
    refine labels.deleteReleases fun r refers => Bool.eq_false_iff.mpr fun held => ?_
    obtain ⟨release, found, chosen⟩ := Table.holds_eq_true_iff.mp held
    obtain ⟨release', found', inside⟩ := consistent.release i row r frozen.issue refers
    cases found.symm.trans found'
    exact outside (inside.symm.trans (beq_iff_eq.mp chosen))
  exact { releases with }

/-- A position update in another scope. -/
theorem applyPositionUpdates_archived {updates : List PositionUpdate} {projectID : Int}
    {t t' : Table IssueRow} (archived : row.status = .archive) (found : t.get? i = some row)
    (applied : applyPositionUpdates
      (fun row : IssueRow => row.projectID == projectID && row.status != .archive)
      IssueRow.setPosition .issueNotFound updates t = .ok t') : t'.get? i = some row := by
  have same : Table.SameOn (fun _ row => row.status = IssueStatus.archive) t t' := by
    refine applyPositionUpdates_sameOn (fun id position row chosen => ?_) applied
    rw [Bool.and_eq_true, bne_iff_ne] at chosen
    exact ⟨chosen.2, chosen.2⟩
  exact (same i row archived).mp found

variable {host : Host} {req : Request} {past : Past} {s' : Store} {rows P : Int} {w : Write}

/-- The issue that a handler found not to be archived is another one. -/
theorem Witnessed.not_archived
    (witnessed : Witnessed (fun t => Consistent t ∧ Frozen start i row t) past s)
    (archived : row.status = .archive) {id : Int} {issue : Issue}
    (loaded : LoadedIssue past id P issue) (writable : issue.status ≠ .archive) : id ≠ i := by
  rintro rfl
  obtain ⟨t, row', tasks, ⟨_, frozen⟩, _, found, _, rfl⟩ := witnessed.issue loaded
  cases found.symm.trans frozen.issue
  exact writable archived

/-- **One write of a request** that does not thaw the issue. -/
theorem Frozen.write (archived : row.status = .archive) (cold : ¬ req.Thaws i row)
    (sanctioned : Sanctioned host req past w)
    (witnessed : Witnessed (fun t => Consistent t ∧ Frozen start i row t) past s)
    (applied : w.apply s = .ok (rows, s')) (consistent : Consistent s)
    (frozen : Frozen start i row s) : Frozen start i row s' := by
  cases sanctioned with
  -- issues
  | createIssue =>
      obtain ⟨_, rest⟩ := require_bind_ok.mp applied
      cases rest
      have old := (Table.get?_le_seq frozen.issue).2
      exact { frozen with issue := (Table.get?_insert_of_le _ _ old).trans frozen.issue }
  | createdHistory | editHistory | history =>
      obtain ⟨_, rest⟩ := require_bind_ok.mp applied
      cases rest
      exact { frozen with }
  | putIssue unwritten entered accepted changed =>
      obtain ⟨_, rest⟩ := require_bind_ok.mp applied
      cases rest
      exact frozen.updateIssueRow (witnessed.not_archived archived accepted.loaded accepted.writable)
  | putIssuePosition unwritten entered accepted =>
      cases applied
      exact frozen.updateIssueRow (witnessed.not_archived archived accepted.loaded accepted.writable)
  | putIssuePositions unwritten entered decoded =>
      obtain ⟨issues, rfl, moved⟩ := updateIssuePositions_cases applied
      exact { frozen with issue := applyPositionUpdates_archived archived frozen.issue moved }
  | archiveIssue unwritten entered loaded writable =>
      obtain ⟨_, rest⟩ := require_bind_ok.mp applied
      cases rest
      rw [(witnessed.issue_columns loaded).1]
      exact frozen.updateIssueRow (witnessed.not_archived archived loaded writable)
  | unarchiveIssue unwritten entered loaded =>
      obtain ⟨_, rest⟩ := require_bind_ok.mp applied
      cases rest
      rw [(witnessed.issue_columns loaded).1]
      exact frozen.updateIssueRow fun same => cold (congrArg some same)
  | moveIssue unwritten entered loaded writable =>
      obtain ⟨_, rest⟩ := require_bind_ok.mp applied
      cases rest
      rw [(witnessed.issue_columns loaded).1]
      exact frozen.updateIssueRow (witnessed.not_archived archived loaded writable)
  | deleteIssue unwritten entered loaded writable =>
      cases applied
      have other := witnessed.not_archived archived loaded writable
      split
      · exact frozen
      · exact
          { issue := Table.get?_delete_eq_some.mpr ⟨frozen.issue, beq_false_of_ne other.symm⟩
            tasks := frozen.tasks.trans (.delete fun _ task _ chosen inside =>
              other ((beq_iff_eq.mp chosen).symm.trans inside))
            comments := frozen.comments.trans (.delete fun _ comment _ chosen inside =>
              other ((beq_iff_eq.mp chosen).symm.trans inside)) }
  -- tasks and comments
  | createTask unwritten entered loaded writable =>
      obtain ⟨_, rest⟩ := require_bind_ok.mp applied
      cases rest
      have other := witnessed.not_archived archived loaded writable
      exact { frozen with tasks := frozen.tasks.trans (.insert other) }
  | putTask unwritten entered loaded writable =>
      cases applied
      have other := witnessed.not_archived archived loaded writable
      refine { frozen with tasks := frozen.tasks.trans (.update fun _ task _ chosen => ?_) }
      rw [Bool.and_eq_true, beq_iff_eq, beq_iff_eq] at chosen
      exact ⟨chosen.2 ▸ other, chosen.2 ▸ other⟩
  | putTaskPositions unwritten entered loaded writable =>
      obtain ⟨tasks, moved, rest⟩ := bind_ok.mp applied
      cases rest
      have other := witnessed.not_archived archived loaded writable
      refine { frozen with
        tasks := frozen.tasks.trans (applyPositionUpdates_sameOn (fun _ _ task chosen => ?_) moved) }
      rw [beq_iff_eq] at chosen
      exact ⟨chosen ▸ other, chosen ▸ other⟩
  | deleteTask unwritten entered loaded writable =>
      cases applied
      have other := witnessed.not_archived archived loaded writable
      refine { frozen with tasks := frozen.tasks.trans (.delete fun _ task _ chosen => ?_) }
      rw [Bool.and_eq_true, beq_iff_eq, beq_iff_eq] at chosen
      exact chosen.2 ▸ other
  | createComment unwritten entered loaded writable =>
      obtain ⟨_, rest⟩ := require_bind_ok.mp applied
      cases rest
      have other := witnessed.not_archived archived loaded writable
      exact { frozen with comments := frozen.comments.trans (.insert other) }
  | putComment unwritten entered loaded writable =>
      cases applied
      have other := witnessed.not_archived archived loaded writable
      refine { frozen with comments := frozen.comments.trans (.update fun _ comment _ chosen => ?_) }
      rw [Bool.and_eq_true, Bool.and_eq_true, beq_iff_eq, beq_iff_eq] at chosen
      exact ⟨chosen.1.2 ▸ other, chosen.1.2 ▸ other⟩
  | deleteComment unwritten entered loaded writable =>
      cases applied
      have other := witnessed.not_archived archived loaded writable
      refine { frozen with comments := frozen.comments.trans (.delete fun _ comment _ chosen => ?_) }
      rw [Bool.and_eq_true, Bool.and_eq_true, beq_iff_eq, beq_iff_eq] at chosen
      exact chosen.1.2 ▸ other
  -- labels, status configs and projects
  | createLabel | updateStatusConfig | createProject | updateProject =>
      obtain ⟨_, rest⟩ := require_bind_ok.mp applied
      cases rest
      exact { frozen with }
  | seedStatusConfig =>
      obtain ⟨_, rfl⟩ := seedStatusConfig_cases applied
      exact { frozen with }
  | deleteLabel =>
      cases applied
      refine frozen.deleteLabels fun label refers => Bool.eq_false_iff.mpr fun held => ?_
      obtain ⟨_, _, chosen⟩ := Table.holds_eq_true_iff.mp held
      rw [Bool.and_eq_true, beq_iff_eq] at chosen
      exact cold ⟨label, congrArg some chosen.1.symm, refers⟩
  | deleteProject =>
      obtain ⟨allowed, rest⟩ := require_bind_ok.mp applied
      cases rest
      split
      · exact frozen
      · next exists_ =>
          rw [Bool.or_eq_true, Bool.not_eq_true'] at allowed
          have empty := Bool.eq_false_iff.mp (allowed.resolve_left exists_)
          refine frozen.deleteProjectRow consistent fun inside => ?_
          exact empty (Table.any_eq_true_iff.mpr ⟨i, row, frozen.issue, beq_iff_eq.mpr inside⟩)
  -- releases
  | createRelease | putRelease =>
      obtain ⟨_, rest⟩ := require_bind_ok.mp applied
      obtain ⟨_, rest⟩ := require_bind_ok.mp rest
      cases rest
      exact { frozen with }
  | deleteRelease =>
      cases applied
      refine frozen.deleteReleases fun release refers => Bool.eq_false_iff.mpr fun held => ?_
      obtain ⟨_, _, chosen⟩ := Table.holds_eq_true_iff.mp held
      exact cold ⟨release, congrArg some (beq_iff_eq.mp chosen).symm, refers⟩
  | triggerRelease | reopenRelease =>
      cases applied
      exact { frozen with }
  | archiveDone =>
      cases applied
      refine frozen.updateIssues ?_
      rw [archived]
      exact Bool.and_false _
  -- accounts
  | createUser | firstUser | updateUser | updateSelf =>
      obtain ⟨_, rest⟩ := require_bind_ok.mp applied
      cases rest
      exact { frozen with }
  | deleteUser => exact absurd trivial cold
  | lastLogin =>
      cases applied
      exact { frozen with }
  | session sessions =>
      obtain ⟨_, rfl⟩ := sessions.alone applied
      exact { frozen with }

end Writes

/-! ### A reorder that lists the issue -/

/-- Every row that a reorder lists is in its scope. -/
theorem applyPositionUpdates_listed {ρ : Type} {scope : ρ → Bool} {setPosition : Int → ρ → ρ}
    (keeps : ∀ position row, scope (setPosition position row) = scope row) {notFound : Err}
    {updates : List PositionUpdate} {t t' : Table ρ}
    (applied : applyPositionUpdates scope setPosition notFound updates t = .ok t')
    {u : PositionUpdate} (listed : u ∈ updates) :
    ∃ row, t.get? u.id = some row ∧ scope row = true := by
  induction updates generalizing t with
  | nil => exact absurd listed List.not_mem_nil
  | cons first updates ih =>
      obtain ⟨counted, rest⟩ := require_bind_ok.mp applied
      rcases List.mem_cons.mp listed with rfl | listed
      · by_contra none
        refine absurd (Table.count_eq_zero_iff.mpr fun id row found => ?_) (bne_iff_ne.mp counted)
        rw [Bool.and_eq_false_iff, beq_eq_false_iff_ne]
        by_contra both
        rw [not_or, not_not, Bool.not_eq_false] at both
        exact none ⟨row, both.1 ▸ found, both.2⟩
      · obtain ⟨row', found', inside⟩ := ih rest listed
        obtain ⟨row, found, ⟨_, rfl⟩ | ⟨_, rfl⟩⟩ := update_found found'
        · exact ⟨row, found, keeps first.position row ▸ inside⟩
        · exact ⟨row', found, inside⟩

/-- The one write of a reorder. -/
def Query.Reorders (updates : List PositionUpdate) : Query → Prop
  | .write w => ∃ projectID, w = .updateIssuePositions projectID updates
  | _ => True

theorem putIssuePositions_reorders (host : Host) (caller : Caller) (pId : Option Int)
    (updates : List PositionUpdate) :
    (serve host (.putIssuePositions caller pId (.json updates))).Asks (Query.Reorders updates) := by
  have handles : ∀ projectID, Asks (Query.Reorders updates)
      (handlePutIssuePositions (.json updates) projectID) := by
    refine fun projectID => decode_asks fun checked valid => ?_
    obtain rfl := (validatePositionUpdates_checked valid).1
    exact Asks.bind (orFail_asks (Asks.bind (exec_asks ⟨projectID, rfl⟩) fun _ => Asks.pure _) _)
      fun _ => Asks.pure _
  exact Handler.respond_asks (Asks.bind (ensure_asks _ _) fun _ =>
    Asks.bind (checkProjectAccess_asks (fun _ => trivial) pId) handles)

/-- **A reorder that lists an archived issue is rolled back as a whole.** -/
theorem reorder_rolled_back {host : Host} {start s : Store} {i : Int} {row : IssueRow}
    (found : start.issues.get? i = some row) (archived : row.status = .archive) {caller : Caller}
    {pId : Option Int} {updates : List PositionUpdate} {u : PositionUpdate} (listed : u ∈ updates)
    (lists : u.id = i) {steps : List (Step Unit)} {current : Unit → Backend Response}
    (run : ServesOne host start (.putIssuePositions caller pId (.json updates)) steps s current) :
    s = start := by
  refine Run.asks_invariant (fun _ => putIssuePositions_reorders host caller pId updates)
    (fun _ s => s = start) rfl (fun event past before after allowed here same => ?_) run
  subst same
  rcases perform_cases here with ⟨w, rows, entry, applied⟩ | ⟨rfl, _⟩
  · obtain ⟨thread, query, answer⟩ := event
    cases entry
    obtain ⟨projectID, rfl⟩ := allowed
    obtain ⟨issues, rfl, moved⟩ := updateIssuePositions_cases applied
    have keeps : ∀ (position : Int) (row : IssueRow),
        ((row.setPosition position).projectID == projectID &&
          (row.setPosition position).status != .archive) =
        (row.projectID == projectID && row.status != .archive) := fun _ _ => rfl
    obtain ⟨row', found', inside⟩ := applyPositionUpdates_listed keeps moved listed
    rw [lists] at found'
    cases found'.symm.trans found
    rw [archived] at inside
    exact absurd inside (by simp)
  · rfl

/-! ### Whole runs -/

/-- **Archived issues are frozen.** From any database that a sequential run reaches, an archived issue
keeps its row, its tasks and its comments under any further requests but those that thaw it; and a
reorder that lists it changes nothing at all. -/
theorem archived_frozen {host : Host} {earlier reqs : List Request} {start s : Store} {i : Int}
    {row : IssueRow} (reached : Sequential host createTables earlier start)
    (found : start.issues.get? i = some row) (archived : row.status = .archive)
    (cold : ∀ req ∈ reqs, ¬ req.Thaws i row) (run : Sequential host start reqs s) :
    Frozen start i row s ∧
      ∀ caller pId updates u, u ∈ updates → u.id = i → ∀ steps s' current,
        ServesOne host s (.putIssuePositions caller pId (.json updates)) steps s' current → s' = s := by
  have consistent : Consistent start := reached.consistent createTables_consistent
  have frozen : Frozen start i row s := by
    induction run with
    | nil => exact .refl found
    | @serve reqs req trace middle s current before one ih =>
        have spared : Frozen start i row middle :=
          ih fun req member => cold req (List.mem_cons_of_mem _ member)
        refine spared.trans (one.keeps (before.consistent consistent) (Frozen middle i row)
          (.refl spared.issue) fun _ w rows past _ _ sanctioned witnessed applied consistent frozen => ?_)
        exact frozen.write archived (cold req List.mem_cons_self) sanctioned witnessed applied consistent
  exact ⟨frozen, fun _ _ _ _ listed lists _ _ _ one =>
    reorder_rolled_back frozen.issue archived listed lists one⟩

/-- An issue is created and archived. -/
def archivedCrash : List (Request × List (Unit × Input)) :=
  [(.archiveIssue sampleAdmin (some 1) (some 1), stepsOf () 20 { instant := 3 }),
    (.createIssue sampleAdmin (some 1) (.json { title := "Crash", status := .todo }),
      stepsOf () 20 { instant := 2 }),
    (bootstrap, stepsOf () 9 { instant := 1, text := some "bcrypt:correct horse 7!" })]

def archivedCrashRow : IssueRow :=
  { title := "Crash", description := "", status := .archive, position := 1, deadline := none,
    plannedDates := none, priority := .normal, labelID := none, assigneeID := none,
    updatedBy := some 1, projectID := 1, releaseID := none, updatedAt := 3, creatorID := some 1 }

/-- A task is added to it, and it is deleted. -/
def afterCrash : List (Request × List (Unit × Input)) :=
  [(.deleteIssue sampleAdmin (some 1) (some 1) (.json { adminPassword := "correct horse 7!" }),
      stepsOf () 20 { instant := 5 }),
    (.createTask sampleAdmin (some 1) (some 1) (.json { title := "Reproduce" }),
      stepsOf () 20 { instant := 4 })]

theorem archived_frozen_crash :
    let start := executeAll sampleHost createTables archivedCrash
    let s := executeAll sampleHost start afterCrash
    Frozen start 1 archivedCrashRow s ∧
      ∀ caller pId updates u, u ∈ updates → u.id = 1 → ∀ steps s' current,
        ServesOne sampleHost s (.putIssuePositions caller pId (.json updates)) steps s' current →
          s' = s :=
  archived_frozen (Sequential.of_moves sampleHost createTables archivedCrash) (by decide +kernel) rfl
    (by simp [afterCrash, Request.Thaws])
    (Sequential.of_moves sampleHost _ afterCrash)

end Wuflow

/-
**A request stays within the project of its path.**

`SameProject exempt start Q s` — everything that belonged to project `Q` in `start` is the same in `s`,
and nothing was added to it, up to `exempt` issues. Issues, labels, releases and status configs belong
to their project, tasks, comments and history rows to the project of their issue.

A handler that writes by an id alone has found that id in the project of its path before, in a database
in which `Q` was as it is now; so the row it writes is not one of `Q`. A label or release delete reaches
issues through their references, and in a consistent database these stay within one project. The one
exemption is an issue that a move puts into `Q`.
-/

import Wuflow.Requests.Sequential

namespace Wuflow

open Calendar (Instant)
open Relational (Table)

/-! ### Belonging to a project -/

/-- The issue is in the project. -/
def Store.InProject (s : Store) (id projectID : Int) : Prop :=
  ∃ row, s.issues.get? id = some row ∧ row.projectID = projectID

/-- What belonged to project `Q` in `start` is the same in `s`, and nothing was added to it but `exempt`
issues. -/
structure SameProject (exempt : Int → Prop) (start : Store) (Q : Int) (s : Store) : Prop where
  project : s.projects.get? Q = start.projects.get? Q
  issues : Table.SameOn (fun id row => ¬ exempt id ∧ row.projectID = Q) start.issues s.issues
  tasks : Table.SameOn (fun _ row => start.InProject row.issueID Q) start.tasks s.tasks
  comments : Table.SameOn (fun _ row => start.InProject row.issueID Q) start.comments s.comments
  history : Table.SameOn (fun _ row => start.InProject row.issueID Q) start.history s.history
  labels : Table.SameOn (fun _ row => row.projectID = Q) start.labels s.labels
  releases : Table.SameOn (fun _ row => row.projectID = Q) start.releases s.releases
  statusConfig : ∀ cfg, cfg.projectID = Q → (cfg ∈ start.statusConfig ↔ cfg ∈ s.statusConfig)

theorem SameProject.refl (exempt : Int → Prop) (start : Store) (Q : Int) :
    SameProject exempt start Q start where
  project := rfl
  issues := .refl _
  tasks := .refl _
  comments := .refl _
  history := .refl _
  labels := .refl _
  releases := .refl _
  statusConfig _ _ := Iff.rfl

/-! ### One write -/

section Writes

variable {exempt : Int → Prop} {start s : Store} {Q : Int}

/-- An issue of another project at some time of the run was never one of `Q`. -/
theorem SameProject.not_inProject (same : SameProject exempt start Q s)
    (exempt_other : ∀ id, exempt id → ¬ start.InProject id Q) {id projectID : Int} {row : IssueRow}
    (found : s.issues.get? id = some row) (inside : row.projectID = projectID) (other : Q ≠ projectID) :
    ¬ start.InProject id Q := by
  rintro ⟨row', found', inside'⟩
  have kept := (same.issues id row' ⟨fun here => exempt_other id here ⟨row', found', inside'⟩,
    inside'⟩).mp found'
  cases found.symm.trans kept
  exact other (inside'.symm.trans inside)

/-- A row that the write may touch: its issue is not one of `Q`. -/
theorem SameProject.outside (same : SameProject exempt start Q s) {id : Int}
    (spared : ¬ start.InProject id Q) {row : IssueRow} (found : s.issues.get? id = some row) :
    ¬ (¬ exempt id ∧ row.projectID = Q) := by
  rintro ⟨listed, inside⟩
  exact spared ⟨row, (same.issues id row ⟨listed, inside⟩).mpr found, inside⟩

/-- A write on the row of one issue. -/
theorem SameProject.updateIssueRow (same : SameProject exempt start Q s) {id : Int}
    (spared : ¬ start.InProject id Q) {change : IssueRow → IssueRow}
    (stays : ∀ row, s.issues.get? id = some row →
      exempt id ∨ (change row).projectID = row.projectID ∨ (change row).projectID ≠ Q) :
    SameProject exempt start Q
      { s with issues := s.issues.update (fun key _ => key == id) change } :=
  { same with
    issues := same.issues.trans (.update fun key row found chosen => by
      rw [beq_iff_eq] at chosen
      subst chosen
      refine ⟨same.outside spared found, fun inside => ?_⟩
      rcases stays row found with listed | kept | other
      · exact inside.1 listed
      · exact same.outside spared found ⟨inside.1, kept ▸ inside.2⟩
      · exact other inside.2) }

/-- A write on the issues that a deleted reference clears. -/
theorem SameProject.setNull_issues (same : SameProject exempt start Q s) {deleted : Int → Bool}
    {reference : IssueRow → Option Int} {clear : IssueRow → IssueRow}
    (keeps : ∀ row, (clear row).projectID = row.projectID)
    (other : ∀ id row key, s.issues.get? id = some row → reference row = some key →
      deleted key = true → row.projectID ≠ Q) :
    Table.SameOn (fun id row => ¬ exempt id ∧ row.projectID = Q) start.issues
      (setNull s.issues deleted reference clear) := by
  refine same.issues.trans (.update fun id row found chosen => ?_)
  obtain ⟨key, refers, gone⟩ := (Option.any_eq_true _ _).mp chosen
  have outside := other id row key found refers gone
  exact ⟨fun inside => outside inside.2, fun inside => outside (keeps row ▸ inside.2)⟩

theorem SameProject.deleteLabels (same : SameProject exempt start Q s) (consistent : Consistent s)
    {selects : Int → LabelRow → Bool}
    (other : ∀ id row, selects id row = true → row.projectID ≠ Q) :
    SameProject exempt start Q (s.deleteLabels selects) :=
  { same with
    labels := same.labels.trans (.delete fun id row _ chosen => other id row chosen)
    issues := by
      rw [Store.deleteLabels_issues]
      refine same.setNull_issues (fun _ => rfl) fun id row l found refers gone => ?_
      obtain ⟨label, here, chosen⟩ := Table.holds_eq_true_iff.mp gone
      obtain ⟨label', here', inside⟩ := consistent.label id row l found refers
      cases here.symm.trans here'
      exact inside ▸ other l label chosen }

theorem SameProject.deleteReleases (same : SameProject exempt start Q s)
    (owned : ∀ id row r, s.issues.get? id = some row → row.releaseID = some r →
      ∃ release, s.releases.get? r = some release ∧ release.projectID = row.projectID)
    {selects : Int → ReleaseRow → Bool}
    (other : ∀ id row, s.releases.get? id = some row → selects id row = true → row.projectID ≠ Q) :
    SameProject exempt start Q (s.deleteReleases selects) :=
  { same with
    releases := same.releases.trans (.delete fun id row found chosen => other id row found chosen)
    issues := by
      rw [Store.deleteReleases_issues]
      refine same.setNull_issues (fun _ => rfl) fun id row r found refers gone => ?_
      obtain ⟨release, here, chosen⟩ := Table.holds_eq_true_iff.mp gone
      obtain ⟨release', here', inside⟩ := owned id row r found refers
      cases here.symm.trans here'
      exact inside ▸ other r release here chosen }

theorem SameProject.updateReleaseRow (same : SameProject exempt start Q s)
    {selects : Int → ReleaseRow → Bool} {change : ReleaseRow → ReleaseRow}
    (keeps : ∀ row, (change row).projectID = row.projectID)
    (other : ∀ id row, s.releases.get? id = some row → selects id row = true → row.projectID ≠ Q) :
    SameProject exempt start Q { s with releases := s.releases.update selects change } :=
  { same with
    releases := same.releases.trans (.update fun id row found chosen => by
      have outside := other id row found chosen
      exact ⟨outside, keeps row ▸ outside⟩) }

theorem SameProject.deleteProjectRow (same : SameProject exempt start Q s)
    (consistent : Consistent s) {id : Int} (other : Q ≠ id) :
    SameProject exempt start Q (s.deleteProjectRow id) := by
  have labels : SameProject exempt start Q (s.deleteLabels fun _ row => row.projectID == id) :=
    same.deleteLabels consistent fun _ row chosen inside =>
      other (inside.symm.trans (beq_iff_eq.mp chosen))
  have releases : SameProject exempt start Q
      ((s.deleteLabels fun _ row => row.projectID == id).deleteReleases
        fun _ row => row.projectID == id) := by
    refine labels.deleteReleases (fun key row r found refers => ?_) fun _ row _ chosen inside =>
      other (inside.symm.trans (beq_iff_eq.mp chosen))
    rw [Store.deleteLabels_issues] at found
    obtain ⟨old, here, ⟨_, _, _, rfl⟩ | ⟨_, rfl⟩⟩ := setNull_found found
    · exact consistent.release key old r here refers
    · exact consistent.release key row r here refers
  refine { releases with project := Eq.trans ?_ same.project, statusConfig := fun cfg inside => ?_ }
  · show (s.projects.delete fun key _ => key == id).get? Q = s.projects.get? Q
    rw [Table.get?_delete, beq_false_of_ne other]
    cases s.projects.get? Q with
    | none => rfl
    | some _ => rfl
  · refine (same.statusConfig cfg inside).trans ?_
    show cfg ∈ s.statusConfig ↔ cfg ∈ s.statusConfig.filter fun cfg => cfg.projectID != id
    rw [List.mem_filter]
    exact ⟨fun member => ⟨member, bne_iff_ne.mpr (inside ▸ other)⟩, fun both => both.1⟩

end Writes

/-! ### Requests under a project -/

/-- The project in the path of a request. -/
def Request.path : Request → Option Int
  | .createIssue _ pId _ | .getIssue _ pId _ | .putIssue _ pId _ _ _ | .putIssuePositions _ pId _
  | .archiveIssue _ pId _ | .unarchiveIssue _ pId _ | .moveIssue _ pId _ _ | .deleteIssue _ pId _ _
  | .createTask _ pId _ _ | .putTask _ pId _ _ _ | .putTaskPositions _ pId _ _ | .deleteTask _ pId _ _
  | .createComment _ pId _ _ | .putComment _ pId _ _ _ | .deleteComment _ pId _ _
  | .createLabel _ pId _ | .deleteLabel _ pId _ _ | .getStatusConfig _ pId
  | .updateStatusConfig _ pId _ | .updateProject _ pId _ | .deleteProject _ pId _
  | .createRelease _ pId _ | .getRelease _ pId _ | .putRelease _ pId _ _ | .deleteRelease _ pId _ _
  | .triggerRelease _ pId _ _ | .reopenRelease _ pId _ => pId
  | _ => none

/-- The request asks to move an issue to a project. -/
def Request.MovesTo (req : Request) (id projectID : Int) : Prop :=
  ∃ caller pId body, req = .moveIssue caller pId (some id) (.json body) ∧ body.newProjectID = projectID

/-- The issue that a move may add to `Q`. -/
def Request.Adds (req : Request) (start : Store) (Q id : Int) : Prop :=
  req.MovesTo id Q ∧ ¬ start.InProject id Q

theorem validateMoveIssue_same {projectID : Int} {sent req : MoveIssueRequest}
    (valid : validateMoveIssue projectID sent = .ok req) : req = sent := by
  unfold validateMoveIssue at valid
  obtain ⟨_, _, valid⟩ := bind_ok.mp valid
  obtain ⟨_, _, valid⟩ := bind_ok.mp valid
  cases valid
  rfl

theorem Request.records_path {req : Request} {caller : Caller} {action : Action} {pId : Option Int}
    {id : Int} (records : req.records = some (caller, action, pId, id)) : req.path = pId := by
  unfold Request.records at records
  split at records
  all_goals cases records
  all_goals rfl

section Requests

variable {host : Host} {req : Request} {past : Past} {start s s' : Store} {P Q rows : Int} {w : Write}

theorem Witnessed.issue_outside
    (witnessed : Witnessed (fun t => Consistent t ∧ SameProject (req.Adds start Q) start Q t) past s)
    (other : Q ≠ P) {id : Int} {issue : Issue} (loaded : LoadedIssue past id P issue) :
    ¬ start.InProject id Q := by
  obtain ⟨t, row, tasks, ⟨_, same⟩, _, found, inside, _⟩ := witnessed.issue loaded
  exact same.not_inProject (fun _ adds => adds.2) found inside other

theorem Witnessed.release_outside {kept : Store → Prop} (witnessed : Witnessed kept past s)
    (other : Q ≠ P) {id : Int} {release : Release} (loaded : LoadedRelease past id P release)
    {row : ReleaseRow} (found : s.releases.get? id = some row) : row.projectID ≠ Q := by
  obtain ⟨t, row', _, evolves, found', inside, _⟩ := witnessed.release loaded
  obtain ⟨row'', here, same⟩ :=
    evolves.releases.old id row (Table.get?_le_seq found').2 found
  cases found'.symm.trans here
  intro inside'
  exact other (inside'.symm.trans (same.symm.trans inside))

/-- **One write of a request** leaves the other projects as they are. -/
theorem SameProject.write (path : req.path = some P) (other : Q ≠ P)
    (sanctioned : Sanctioned host req past w)
    (witnessed : Witnessed (fun t => Consistent t ∧ SameProject (req.Adds start Q) start Q t) past s)
    (applied : w.apply s = .ok (rows, s')) (consistent : Consistent s)
    (same : SameProject (req.Adds start Q) start Q s) :
    SameProject (req.Adds start Q) start Q s' := by
  cases sanctioned with
  -- issues
  | createIssue unwritten entered decoded last =>
      cases entered.path.symm.trans path
      obtain ⟨_, rest⟩ := require_bind_ok.mp applied
      cases rest
      exact { same with issues := same.issues.trans (.insert fun inside => other inside.2.symm) }
  | createdHistory entered inserted own issue =>
      cases entered.path.symm.trans path
      obtain ⟨_, rest⟩ := require_bind_ok.mp applied
      cases rest
      obtain ⟨t, t', ⟨_, before⟩, performed, _⟩ := witnessed _ inserted
      obtain ⟨_, rest⟩ := require_bind_ok.mp (Write.apply_of_ok performed)
      cases rest
      refine { same with history := same.history.trans (.insert ?_) }
      rintro ⟨row, found, inside⟩
      have kept := (before.issues _ row ⟨fun adds => adds.2 ⟨row, found, inside⟩, inside⟩).mp found
      have bound := (Table.get?_le_seq kept).2
      rw [issue] at bound
      exact absurd bound (by simp [Table.nextId])
  | putIssue unwritten entered accepted changed =>
      cases entered.path.symm.trans path
      obtain ⟨_, rest⟩ := require_bind_ok.mp applied
      cases rest
      obtain ⟨sent, _, rfl⟩ := accepted.sent
      exact same.updateIssueRow (witnessed.issue_outside other accepted.loaded)
        fun _ _ => .inr (.inr fun inside => other inside.symm)
  | putIssuePosition unwritten entered accepted =>
      cases entered.path.symm.trans path
      cases applied
      exact same.updateIssueRow (witnessed.issue_outside other accepted.loaded)
        fun _ _ => .inr (.inl rfl)
  | editHistory entered loaded reread changed issue =>
      cases entered.path.symm.trans path
      obtain ⟨_, rest⟩ := require_bind_ok.mp applied
      cases rest
      refine { same with history := same.history.trans (.insert ?_) }
      rw [issue]
      exact witnessed.issue_outside other loaded
  | putIssuePositions unwritten entered decoded =>
      cases entered.path.symm.trans path
      obtain ⟨issues, rfl, moved⟩ := updateIssuePositions_cases applied
      refine { same with
        issues := same.issues.trans (applyPositionUpdates_sameOn (fun id position row chosen => ?_) moved) }
      rw [Bool.and_eq_true, beq_iff_eq] at chosen
      have outside : row.projectID ≠ Q := fun inside => other (inside.symm.trans chosen.1)
      exact ⟨fun inside => outside inside.2, fun inside => outside inside.2⟩
  | archiveIssue unwritten entered loaded | unarchiveIssue unwritten entered loaded =>
      cases entered.path.symm.trans path
      obtain ⟨_, rest⟩ := require_bind_ok.mp applied
      cases rest
      obtain ⟨own, inside⟩ := witnessed.issue_columns loaded
      exact same.updateIssueRow (own ▸ witnessed.issue_outside other loaded)
        fun _ _ => .inr (.inr fun inside' => other (inside'.symm.trans inside))
  | @moveIssue caller _ id _ _ _ current move updatedAt unwritten entered loaded writable decoded =>
      cases entered.path.symm.trans path
      obtain ⟨_, rest⟩ := require_bind_ok.mp applied
      cases rest
      obtain ⟨own, _⟩ := witnessed.issue_columns loaded
      have spared := witnessed.issue_outside other loaded
      obtain ⟨sent, rfl, valid⟩ := decoded
      obtain rfl := validateMoveIssue_same valid
      refine same.updateIssueRow (own ▸ spared) fun row found => ?_
      by_cases target : move.newProjectID = Q
      · exact .inl ⟨⟨caller, _, move, by rw [own], target⟩, own ▸ spared⟩
      · exact .inr (.inr target)
  | @deleteIssue _ _ id _ _ _ _ unwritten entered loaded writable =>
      cases entered.path.symm.trans path
      cases applied
      have spared := witnessed.issue_outside other loaded
      split
      · exact same
      · have outside : ∀ key, (key == id) = true → ¬ start.InProject key Q := by
          intro key chosen
          rw [beq_iff_eq] at chosen
          exact chosen ▸ spared
        exact { same with
          issues := same.issues.trans (.delete fun key row found chosen => by
            exact same.outside (outside key chosen) found)
          tasks := same.tasks.trans (.delete fun _ row _ chosen => outside row.issueID chosen)
          comments := same.comments.trans (.delete fun _ row _ chosen => outside row.issueID chosen)
          history := same.history.trans (.delete fun _ row _ chosen => outside row.issueID chosen) }
  | history records entered loaded own =>
      cases entered.path.symm.trans ((Request.records_path records).symm.trans path)
      obtain ⟨_, rest⟩ := require_bind_ok.mp applied
      cases rest
      refine { same with history := same.history.trans (.insert ?_) }
      rw [own]
      exact witnessed.issue_outside other loaded
  -- tasks and comments
  | createTask unwritten entered loaded writable decoded last =>
      cases entered.path.symm.trans path
      obtain ⟨_, rest⟩ := require_bind_ok.mp applied
      cases rest
      exact { same with tasks := same.tasks.trans (.insert (witnessed.issue_outside other loaded)) }
  | putTask unwritten entered loaded writable decoded =>
      cases entered.path.symm.trans path
      cases applied
      have spared := witnessed.issue_outside other loaded
      refine { same with tasks := same.tasks.trans (.update fun _ row _ chosen => ?_) }
      rw [Bool.and_eq_true, beq_iff_eq, beq_iff_eq] at chosen
      exact ⟨chosen.2 ▸ spared, chosen.2 ▸ spared⟩
  | putTaskPositions unwritten entered loaded writable decoded =>
      cases entered.path.symm.trans path
      obtain ⟨tasks, moved, rest⟩ := bind_ok.mp applied
      cases rest
      have spared := witnessed.issue_outside other loaded
      refine { same with
        tasks := same.tasks.trans (applyPositionUpdates_sameOn (fun _ _ row chosen => ?_) moved) }
      rw [beq_iff_eq] at chosen
      exact ⟨chosen ▸ spared, chosen ▸ spared⟩
  | deleteTask unwritten entered loaded writable =>
      cases entered.path.symm.trans path
      cases applied
      have spared := witnessed.issue_outside other loaded
      refine { same with tasks := same.tasks.trans (.delete fun _ row _ chosen => ?_) }
      rw [Bool.and_eq_true, beq_iff_eq, beq_iff_eq] at chosen
      exact chosen.2 ▸ spared
  | createComment unwritten entered loaded writable decoded =>
      cases entered.path.symm.trans path
      obtain ⟨_, rest⟩ := require_bind_ok.mp applied
      cases rest
      exact { same with
        comments := same.comments.trans (.insert (witnessed.issue_outside other loaded)) }
  | putComment unwritten entered loaded writable decoded =>
      cases entered.path.symm.trans path
      cases applied
      have spared := witnessed.issue_outside other loaded
      refine { same with comments := same.comments.trans (.update fun _ row _ chosen => ?_) }
      rw [Bool.and_eq_true, Bool.and_eq_true, beq_iff_eq, beq_iff_eq] at chosen
      exact ⟨chosen.1.2 ▸ spared, chosen.1.2 ▸ spared⟩
  | deleteComment unwritten entered loaded writable =>
      cases entered.path.symm.trans path
      cases applied
      have spared := witnessed.issue_outside other loaded
      refine { same with comments := same.comments.trans (.delete fun _ row _ chosen => ?_) }
      rw [Bool.and_eq_true, Bool.and_eq_true, beq_iff_eq, beq_iff_eq] at chosen
      exact chosen.1.2 ▸ spared
  -- labels, status configs and projects
  | createLabel unwritten entered decoded =>
      cases entered.path.symm.trans path
      obtain ⟨_, rest⟩ := require_bind_ok.mp applied
      cases rest
      exact { same with labels := same.labels.trans (.insert other.symm) }
  | deleteLabel unwritten entered =>
      cases entered.path.symm.trans path
      cases applied
      refine same.deleteLabels consistent fun _ row chosen inside => ?_
      rw [Bool.and_eq_true, beq_iff_eq, beq_iff_eq] at chosen
      exact other (inside.symm.trans chosen.2)
  | updateStatusConfig unwritten entered decoded =>
      cases entered.path.symm.trans path
      obtain ⟨_, rest⟩ := require_bind_ok.mp applied
      cases rest
      refine { same with statusConfig := fun cfg inside => (same.statusConfig cfg inside).trans ?_ }
      rw [List.mem_append, List.mem_filter, List.mem_singleton]
      constructor
      · exact fun member => .inl ⟨member, bne_iff_ne.mpr (inside ▸ other)⟩
      · rintro (member | rfl)
        · exact member.1
        · exact absurd inside.symm other
  | createProject unwritten permitted => exact absurd path.symm (Option.some_ne_none P)
  | seedStatusConfig permitted inserted => exact absurd path.symm (Option.some_ne_none P)
  | updateProject unwritten entered =>
      cases entered.path.symm.trans path
      obtain ⟨_, rest⟩ := require_bind_ok.mp applied
      cases rest
      refine { same with project := Eq.trans ?_ same.project }
      rw [Table.get?_update, beq_false_of_ne other]
      simp
  | deleteProject unwritten entered =>
      cases entered.path.symm.trans path
      obtain ⟨_, rest⟩ := require_bind_ok.mp applied
      cases rest
      split
      · exact same
      · exact same.deleteProjectRow consistent other
  -- releases
  | createRelease unwritten entered own =>
      cases entered.path.symm.trans path
      obtain ⟨_, rest⟩ := require_bind_ok.mp applied
      obtain ⟨_, rest⟩ := require_bind_ok.mp rest
      cases rest
      exact { same with releases := same.releases.trans (.insert (own ▸ other.symm)) }
  | putRelease unwritten entered loaded open_ =>
      cases entered.path.symm.trans path
      obtain ⟨_, rest⟩ := require_bind_ok.mp applied
      obtain ⟨_, rest⟩ := require_bind_ok.mp rest
      cases rest
      refine same.updateReleaseRow (fun row => rfl) fun key row found chosen => ?_
      rw [beq_iff_eq] at chosen
      subst chosen
      exact witnessed.release_outside other loaded found
  | deleteRelease unwritten entered loaded =>
      cases entered.path.symm.trans path
      cases applied
      refine same.deleteReleases consistent.release fun key row found chosen => ?_
      rw [beq_iff_eq] at chosen
      subst chosen
      exact witnessed.release_outside other loaded found
  | triggerRelease unwritten entered loaded | reopenRelease unwritten entered loaded =>
      cases entered.path.symm.trans path
      cases applied
      refine same.updateReleaseRow (fun row => rfl) fun key row found chosen => ?_
      rw [Bool.and_eq_true, beq_iff_eq] at chosen
      obtain ⟨rfl, _⟩ := chosen
      exact witnessed.release_outside other loaded found
  | archiveDone entered loaded =>
      cases entered.path.symm.trans path
      cases applied
      refine { same with issues := same.issues.trans (.update fun key row found chosen => ?_) }
      rw [Bool.and_eq_true, beq_iff_eq] at chosen
      obtain ⟨release, here, inside⟩ := consistent.release key row _ found chosen.1
      have outside := witnessed.release_outside other loaded here
      rw [inside] at outside
      exact ⟨fun inside => outside inside.2, fun inside => outside inside.2⟩
  -- accounts
  | createUser | updateUser | deleteUser | updateSelf | lastLogin | firstUser =>
      exact absurd path.symm (Option.some_ne_none P)
  | session sessions =>
      obtain ⟨_, rfl⟩ := sessions.alone applied
      exact { same with }

/-- **Project isolation.** From any database that a run reaches, a request under a project leaves every
issue, task, comment, history row, label, release and status config of every other project exactly as it
was, and adds nothing to it but the issue that a move puts there. -/
theorem project_isolated {ι : Type} [DecidableEq ι] {reqs : ι → Request} {trace : List (Step ι)}
    {pool : ι → Backend Response} (reached : Serves host reqs trace start pool)
    {steps : List (Step Unit)} {current : Unit → Backend Response} (path : req.path = some P)
    (run : ServesOne host start req steps s current) (other : Q ≠ P) :
    SameProject (req.Adds start Q) start Q s :=
  run.keeps reached.references.consistent (SameProject (req.Adds start Q) start Q) (.refl _ _ _)
    fun _ _ _ _ _ _ sanctioned witnessed applied consistent same =>
      same.write path other sanctioned witnessed applied consistent

end Requests

/-- A second project, and a label and an issue with it in the first one. -/
def twoProjects : Fin 4 → Request
  | 0 => bootstrap
  | 1 => .createProject sampleAdmin (.json { name := "second" })
  | 2 => .createLabel sampleAdmin (some 1) (.json { name := "bug", color := "#ff0000" })
  | 3 => .createIssue sampleAdmin (some 1)
      (.json { title := "Crash", status := .todo, label := some { id := 1 } })

def twoProjectsMoves : List (Fin 4 × Input) :=
  stepsOf 0 9 { instant := 1, text := some "bcrypt:correct horse 7!" } ++
    stepsOf 1 9 { instant := 2 } ++ stepsOf 2 9 { instant := 3 } ++ stepsOf 3 9 { instant := 4 }

/-- The label of the first project, deleted under the second one. -/
def foreignLabel : Request :=
  .deleteLabel sampleAdmin (some 2) (some 1) (.json { adminPassword := "correct horse 7!" })

theorem project_isolated_label :
    SameProject (foreignLabel.Adds (execute sampleHost twoProjects twoProjectsMoves).store 1)
      (execute sampleHost twoProjects twoProjectsMoves).store 1
      (executeFrom sampleHost (execute sampleHost twoProjects twoProjectsMoves).store
        (fun _ : Unit => foreignLabel) (stepsOf () 5 {})).store :=
  project_isolated (Serves.of_moves sampleHost twoProjects twoProjectsMoves) rfl
    (ServesFrom.of_moves sampleHost _ (fun _ => foreignLabel) (stepsOf () 5 {})) (by decide)

end Wuflow

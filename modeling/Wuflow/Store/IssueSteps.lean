/-
**What a write can do to an issue.**

`Write.issue_cases` is the one inversion of all writes as far as issues are concerned: a row found after
a write was inserted by it, was set by `UpdateIssue`, or was `Carried` over from the row before it. A row
carried over keeps its project, keeps a reference only if the referenced row is still there, and either
is stamped with the write's time or keeps its version and its content, up to a label or release that the
write has deleted.
-/

import Wuflow.Store.Evolution

namespace Wuflow

open Calendar (Instant)
open Relational (Table)

/-! ### Versions -/

/-- The version a write stamps issues with. -/
def Write.stamp : Write → Option Instant
  | .insertIssue row => some row.updatedAt
  | .updateIssue _ cols => some cols.updatedAt
  | .archiveDone _ now => some now
  | .deleteUser _ _ _ now _ => some now
  | _ => none

/-- The content of two rows is the same, apart from label and release. -/
structure IssueRow.SameText (a b : IssueRow) : Prop where
  title : b.title = a.title
  description : b.description = a.description
  status : b.status = a.status
  priority : b.priority = a.priority
  deadline : b.deadline = a.deadline
  plannedDates : b.plannedDates = a.plannedDates
  assigneeID : b.assigneeID = a.assigneeID

namespace IssueRow.SameText

theorem refl (row : IssueRow) : row.SameText row := ⟨rfl, rfl, rfl, rfl, rfl, rfl, rfl⟩

theorem trans {a b c : IssueRow} (first : a.SameText b) (second : b.SameText c) : a.SameText c where
  title := second.title.trans first.title
  description := second.description.trans first.description
  status := second.status.trans first.status
  priority := second.priority.trans first.priority
  deadline := second.deadline.trans first.deadline
  plannedDates := second.plannedDates.trans first.plannedDates
  assigneeID := second.assigneeID.trans first.assigneeID

end IssueRow.SameText

/-- The rows differ at most in position, creator and updater. -/
structure IssueRow.SameVersion (a b : IssueRow) : Prop where
  text : a.SameText b
  projectID : b.projectID = a.projectID
  labelID : b.labelID = a.labelID
  releaseID : b.releaseID = a.releaseID
  updatedAt : b.updatedAt = a.updatedAt

namespace IssueRow.SameVersion

theorem refl (row : IssueRow) : row.SameVersion row := ⟨.refl row, rfl, rfl, rfl, rfl⟩

theorem trans {a b c : IssueRow} (first : a.SameVersion b) (second : b.SameVersion c) :
    a.SameVersion c where
  text := first.text.trans second.text
  projectID := second.projectID.trans first.projectID
  labelID := second.labelID.trans first.labelID
  releaseID := second.releaseID.trans first.releaseID
  updatedAt := second.updatedAt.trans first.updatedAt

end IssueRow.SameVersion

/-- The write deletes the label of the row. -/
def LosesLabel (w : Write) (s : Store) (row : IssueRow) : Prop :=
  ∃ l label, row.labelID = some l ∧ s.labels.get? l = some label ∧
    (w = .deleteLabel l label.projectID ∨
      (w = .deleteProject label.projectID ∧
        ∀ id other, s.issues.get? id = some other → other.projectID ≠ label.projectID))

/-- The write deletes the release of the row. -/
def LosesRelease (w : Write) (s : Store) (row : IssueRow) : Prop :=
  ∃ r release, row.releaseID = some r ∧ s.releases.get? r = some release ∧
    (w = .deleteRelease r ∨
      (w = .deleteProject release.projectID ∧
        ∀ id other, s.issues.get? id = some other → other.projectID ≠ release.projectID))

/-- The row keeps its version and its content, up to references to deleted rows. -/
structure Unstamped (w : Write) (s : Store) (row row' : IssueRow) : Prop where
  version : row'.updatedAt = row.updatedAt
  text : row.SameText row'
  label : row'.labelID = row.labelID ∨ (row'.labelID = none ∧ LosesLabel w s row)
  release : row'.releaseID = row.releaseID ∨ (row'.releaseID = none ∧ LosesRelease w s row)

/-- The row is carried over by a write. -/
structure Carried (w : Write) (s s' : Store) (row row' : IssueRow) : Prop where
  sameProject : row'.projectID = row.projectID
  project : ∀ p, s.projects.get? row.projectID = some p → ∃ p', s'.projects.get? row.projectID = some p'
  label : ∀ l, row'.labelID = some l → row.labelID = some l ∧
    ∀ label, s.labels.get? l = some label → s'.labels.get? l = some label
  release : ∀ r, row'.releaseID = some r → row.releaseID = some r ∧
    ∀ release, s.releases.get? r = some release →
      ∃ release', s'.releases.get? r = some release' ∧ release'.projectID = release.projectID
  assignee : ∀ u, row'.assigneeID = some u → row.assigneeID = some u ∧
    ∀ user, s.users.get? u = some user → ∃ user', s'.users.get? u = some user'
  version : w.stamp = some row'.updatedAt ∨ Unstamped w s row row'

/-! ### Stores that only grow -/

/-- Every row an issue can refer to is still there. -/
structure Store.Grows (s s' : Store) : Prop where
  projects : ∀ id p, s.projects.get? id = some p → ∃ p', s'.projects.get? id = some p'
  labels : ∀ id label, s.labels.get? id = some label → s'.labels.get? id = some label
  releases : ∀ id release, s.releases.get? id = some release →
    ∃ release', s'.releases.get? id = some release' ∧ release'.projectID = release.projectID
  users : ∀ id user, s.users.get? id = some user → ∃ user', s'.users.get? id = some user'

namespace Store.Grows

theorem refl (s : Store) : s.Grows s where
  projects _ p here := ⟨p, here⟩
  labels _ _ here := here
  releases _ release here := ⟨release, here, rfl⟩
  users _ user here := ⟨user, here⟩

section Parts

variable {s : Store}

/-! Writes that keep all these rows. -/

theorem of_issues {t : Table IssueRow} : s.Grows { s with issues := t } := { refl s with }

theorem of_sessions {t : Table SessionRow} : s.Grows { s with sessions := t } := { refl s with }

theorem of_others {tasks : Table TaskRow} {history : Table HistoryRow} {comments : Table CommentRow}
    {statusConfig : List StatusConfig} :
    s.Grows { s with tasks, history, comments, statusConfig } := { refl s with }

end Parts

theorem insert_keeps {ρ : Type} {t : Table ρ} (row : ρ) {id : Int} {old : ρ}
    (found : t.get? id = some old) : (t.insert row).get? id = some old := by
  rw [Table.get?_insert_of_le t row (Table.get?_le_seq found).2]
  exact found

theorem update_keeps {ρ : Type} {t : Table ρ} (selects : Int → ρ → Bool) (change : ρ → ρ) {id : Int}
    {old : ρ} (found : t.get? id = some old) :
    (t.update selects change).get? id = some (if selects id old then change old else old) := by
  rw [Table.get?_update, found]
  rfl

theorem of_insertProject (s : Store) (row : ProjectRow) :
    s.Grows { s with projects := s.projects.insert row } :=
  { refl s with projects := fun _ p here => ⟨p, insert_keeps row here⟩ }

theorem of_updateProject (s : Store) (selects : Int → ProjectRow → Bool)
    (change : ProjectRow → ProjectRow) :
    s.Grows { s with projects := s.projects.update selects change } :=
  { refl s with projects := fun _ _ here => ⟨_, update_keeps selects change here⟩ }

theorem of_insertLabel (s : Store) (row : LabelRow) :
    s.Grows { s with labels := s.labels.insert row } :=
  { refl s with labels := fun _ _ here => insert_keeps row here }

theorem of_insertRelease (s : Store) (row : ReleaseRow) :
    s.Grows { s with releases := s.releases.insert row } :=
  { refl s with releases := fun _ release here => ⟨release, insert_keeps row here, rfl⟩ }

theorem of_updateRelease (s : Store) (selects : Int → ReleaseRow → Bool)
    {change : ReleaseRow → ReleaseRow} (keeps : ∀ row, (change row).projectID = row.projectID) :
    s.Grows { s with releases := s.releases.update selects change } :=
  { refl s with
    releases := fun _ release here => by
      refine ⟨_, update_keeps selects change here, ?_⟩
      split
      · exact keeps release
      · rfl }

theorem of_insertUser (s : Store) (row : UserRow) : s.Grows { s with users := s.users.insert row } :=
  { refl s with users := fun _ user here => ⟨user, insert_keeps row here⟩ }

theorem of_updateUser (s : Store) (selects : Int → UserRow → Bool) (change : UserRow → UserRow) :
    s.Grows { s with users := s.users.update selects change } :=
  { refl s with users := fun _ _ here => ⟨_, update_keeps selects change here⟩ }

end Store.Grows

/-- A row whose references stay within those it had. -/
theorem Carried.of_grows {w : Write} {s s' : Store} (grows : s.Grows s') {row row' : IssueRow}
    (sameProject : row'.projectID = row.projectID) (label : row'.labelID = row.labelID)
    (release : row'.releaseID = row.releaseID)
    (assignee : ∀ u, row'.assigneeID = some u → row.assigneeID = some u)
    (version : w.stamp = some row'.updatedAt ∨ Unstamped w s row row') : Carried w s s' row row' where
  sameProject
  project := grows.projects row.projectID
  label l same := ⟨label ▸ same, grows.labels l⟩
  release r same := ⟨release ▸ same, grows.releases r⟩
  assignee u same := ⟨assignee u same, grows.users u⟩
  version

theorem Unstamped.refl (w : Write) (s : Store) (row : IssueRow) : Unstamped w s row row :=
  ⟨rfl, .refl row, .inl rfl, .inl rfl⟩

/-- A row the write does not touch. -/
theorem Carried.untouched {w : Write} {s s' : Store} (grows : s.Grows s') (row : IssueRow) :
    Carried w s s' row row :=
  .of_grows grows rfl rfl rfl (fun _ same => same) (.inr (.refl w s row))

/-! ### One write -/

/-- A row after an update of the table. -/
theorem update_found {ρ : Type} {t : Table ρ} {selects : Int → ρ → Bool} {change : ρ → ρ} {id : Int}
    {row' : ρ} (found : (t.update selects change).get? id = some row') :
    ∃ row, t.get? id = some row ∧
      ((selects id row = true ∧ row' = change row) ∨ (selects id row = false ∧ row' = row)) := by
  rw [Table.get?_update] at found
  obtain ⟨row, here, rfl⟩ := Option.map_eq_some_iff.mp found
  refine ⟨row, here, ?_⟩
  cases chosen : selects id row with
  | true => exact .inl ⟨rfl, if_pos rfl⟩
  | false => exact .inr ⟨rfl, if_neg nofun⟩

/-- A row after its reference to deleted keys is cleared. -/
theorem setNull_found {ρ : Type} {t : Table ρ} {deleted : Int → Bool} {reference : ρ → Option Int}
    {clear : ρ → ρ} {id : Int} {row' : ρ}
    (found : (setNull t deleted reference clear).get? id = some row') :
    ∃ row, t.get? id = some row ∧
      ((∃ key, reference row = some key ∧ deleted key = true ∧ row' = clear row) ∨
        (∀ key, reference row = some key → deleted key = false) ∧ row' = row) := by
  obtain ⟨row, here, outcome⟩ := update_found found
  refine ⟨row, here, ?_⟩
  rcases outcome with ⟨chosen, same⟩ | ⟨chosen, same⟩
  · obtain ⟨key, refers, gone⟩ := (Option.any_eq_true _ _).mp chosen
    exact .inl ⟨key, refers, gone, same⟩
  · refine .inr ⟨fun key refers => ?_, same⟩
    rw [refers] at chosen
    exact chosen

/-- A row that is not selected survives a delete. -/
theorem delete_keeps {ρ : Type} {t : Table ρ} {selects : Int → ρ → Bool} {id : Int} {row : ρ}
    (spared : t.holds id (selects id) = false) (found : t.get? id = some row) :
    (t.delete selects).get? id = some row := by
  refine Table.get?_delete_eq_some.mpr ⟨found, ?_⟩
  unfold Table.holds at spared
  rw [found] at spared
  exact spared

/-- A row after a reorder. -/
theorem applyPositionUpdates_found {ρ : Type} {kept : ρ → ρ → Prop} (reflexive : ∀ row, kept row row)
    (transitive : ∀ a b c, kept a b → kept b c → kept a c) {scope : ρ → Bool}
    {setPosition : Int → ρ → ρ} (sets : ∀ position row, kept row (setPosition position row))
    {notFound : Err} {updates : List PositionUpdate} {t t' : Table ρ}
    (applied : applyPositionUpdates scope setPosition notFound updates t = .ok t') {id : Int} {row' : ρ}
    (found : t'.get? id = some row') : ∃ row, t.get? id = some row ∧ kept row row' := by
  induction updates generalizing t with
  | nil =>
      cases applied
      exact ⟨row', found, reflexive row'⟩
  | cons u updates ih =>
      obtain ⟨_, rest⟩ := require_bind_ok.mp applied
      obtain ⟨middle, between, later⟩ := ih rest
      obtain ⟨row, here, ⟨_, rfl⟩ | ⟨_, rfl⟩⟩ := update_found between
      · exact ⟨row, here, transitive _ _ _ (sets u.position row) later⟩
      · exact ⟨_, here, later⟩

/-- The rows differ in their position only. -/
def Repositioned (row row' : IssueRow) : Prop := ∃ position, row' = row.setPosition position

theorem Repositioned.refl (row : IssueRow) : Repositioned row row := ⟨row.position, rfl⟩

theorem Repositioned.of_set (position : Int) (row : IssueRow) :
    Repositioned row (row.setPosition position) := ⟨position, rfl⟩

theorem Repositioned.trans (a b c : IssueRow) (first : Repositioned a b) (second : Repositioned b c) :
    Repositioned a c := by
  obtain ⟨_, rfl⟩ := first
  obtain ⟨position, rfl⟩ := second
  exact ⟨position, rfl⟩

section Cases

variable {w : Write} {s s' : Store} {rows id : Int} {row row' : IssueRow}

theorem Repositioned.carried (grows : s.Grows s') (moved : Repositioned row row') :
    Carried w s s' row row' := by
  obtain ⟨position, rfl⟩ := moved
  exact .of_grows grows rfl rfl rfl (fun _ same => same)
    (.inr ⟨rfl, ⟨rfl, rfl, rfl, rfl, rfl, rfl, rfl⟩, .inl rfl, .inl rfl⟩)

theorem deleteLabel_carried {labelID projectID : Int}
    (found : (s.deleteLabels fun key row => key == labelID && row.projectID == projectID).issues.get? id
      = some row') :
    ∃ row, s.issues.get? id = some row ∧ Carried (.deleteLabel labelID projectID) s
      (s.deleteLabels fun key row => key == labelID && row.projectID == projectID) row row' := by
  rw [Store.deleteLabels_issues] at found
  obtain ⟨row, here, ⟨l, refers, gone, rfl⟩ | ⟨spared, rfl⟩⟩ := setNull_found found
  · refine ⟨row, here, ?_⟩
    obtain ⟨label, found', chosen⟩ := Table.holds_eq_true_iff.mp gone
    rw [Bool.and_eq_true, beq_iff_eq, beq_iff_eq] at chosen
    obtain ⟨rfl, rfl⟩ := chosen
    exact
      { sameProject := rfl
        project := fun p here => ⟨p, here⟩
        label := fun _ same => nomatch same
        release := fun r same => ⟨same, fun release here => ⟨release, here, rfl⟩⟩
        assignee := fun u same => ⟨same, fun user here => ⟨user, here⟩⟩
        version := .inr ⟨rfl, ⟨rfl, rfl, rfl, rfl, rfl, rfl, rfl⟩,
          .inr ⟨rfl, l, label, refers, found', .inl rfl⟩, .inl rfl⟩ }
  · refine ⟨row', here, ?_⟩
    exact
      { sameProject := rfl
        project := fun p here => ⟨p, here⟩
        label := fun l same => ⟨same, fun _ here => delete_keeps (spared l same) here⟩
        release := fun r same => ⟨same, fun release here => ⟨release, here, rfl⟩⟩
        assignee := fun u same => ⟨same, fun user here => ⟨user, here⟩⟩
        version := .inr (.refl _ _ _) }

theorem deleteRelease_carried {release : Int}
    (found : (s.deleteReleases fun key _ => key == release).issues.get? id = some row')  :
    ∃ row, s.issues.get? id = some row ∧ Carried (.deleteRelease release) s
      (s.deleteReleases fun key _ => key == release) row row' := by
  rw [Store.deleteReleases_issues] at found
  obtain ⟨row, here, ⟨r, refers, gone, rfl⟩ | ⟨spared, rfl⟩⟩ := setNull_found found
  · refine ⟨row, here, ?_⟩
    obtain ⟨deleted, found', chosen⟩ := Table.holds_eq_true_iff.mp gone
    rw [beq_iff_eq] at chosen
    subst chosen
    exact
      { sameProject := rfl
        project := fun p here => ⟨p, here⟩
        label := fun l same => ⟨same, fun _ here => here⟩
        release := fun _ same => nomatch same
        assignee := fun u same => ⟨same, fun user here => ⟨user, here⟩⟩
        version := .inr ⟨rfl, ⟨rfl, rfl, rfl, rfl, rfl, rfl, rfl⟩, .inl rfl,
          .inr ⟨rfl, r, deleted, refers, found', .inl rfl⟩⟩ }
  · refine ⟨row', here, ?_⟩
    exact
      { sameProject := rfl
        project := fun p here => ⟨p, here⟩
        label := fun l same => ⟨same, fun _ here => here⟩
        release := fun r same =>
          ⟨same, fun deleted here => ⟨deleted, delete_keeps (spared r same) here, rfl⟩⟩
        assignee := fun u same => ⟨same, fun user here => ⟨user, here⟩⟩
        version := .inr (.refl _ _ _) }

/-- A project is deleted without its issues, and with its labels and releases. -/
theorem deleteProject_carried {project : Int}
    (empty : ∀ key other, s.issues.get? key = some other → other.projectID ≠ project)
    (found : (s.deleteProjectRow project).issues.get? id = some row') :
    ∃ row, s.issues.get? id = some row ∧
      Carried (.deleteProject project) s (s.deleteProjectRow project) row row' := by
  have unfolded : (s.deleteProjectRow project).issues =
      setNull (setNull s.issues
        (fun key => s.labels.holds key fun row => row.projectID == project) (·.labelID)
        IssueRow.clearLabel)
        (fun key => s.releases.holds key fun row => row.projectID == project) (·.releaseID)
        IssueRow.clearRelease := rfl
  rw [unfolded] at found
  obtain ⟨middle, between, release⟩ := setNull_found found
  obtain ⟨row, here, label⟩ := setNull_found between
  have labels : row.SameText middle ∧ middle.updatedAt = row.updatedAt ∧
      middle.projectID = row.projectID ∧ middle.releaseID = row.releaseID ∧
      (∀ l, middle.labelID = some l → row.labelID = some l ∧
        s.labels.holds l (fun row => row.projectID == project) = false) ∧
      (middle.labelID = row.labelID ∨
        (middle.labelID = none ∧ LosesLabel (.deleteProject project) s row)) := by
    rcases label with ⟨l, refers, gone, rfl⟩ | ⟨spared, rfl⟩
    · obtain ⟨deleted, found', chosen⟩ := Table.holds_eq_true_iff.mp gone
      rw [beq_iff_eq] at chosen
      subst chosen
      refine ⟨⟨rfl, rfl, rfl, rfl, rfl, rfl, rfl⟩, rfl, rfl, rfl, (fun _ same => nomatch same), ?_⟩
      exact .inr ⟨rfl, l, deleted, refers, found', .inr ⟨rfl, empty⟩⟩
    · exact ⟨.refl _, rfl, rfl, rfl, fun l same => ⟨same, spared l same⟩, .inl rfl⟩
  have releases : middle.SameText row' ∧ row'.updatedAt = middle.updatedAt ∧
      row'.projectID = middle.projectID ∧ row'.labelID = middle.labelID ∧
      (∀ r, row'.releaseID = some r → middle.releaseID = some r ∧
        s.releases.holds r (fun row => row.projectID == project) = false) ∧
      (row'.releaseID = middle.releaseID ∨ (row'.releaseID = none ∧
        ∃ r deleted, middle.releaseID = some r ∧ s.releases.get? r = some deleted ∧
          deleted.projectID = project)) := by
    rcases release with ⟨r, refers, gone, rfl⟩ | ⟨spared, rfl⟩
    · obtain ⟨deleted, found', chosen⟩ := Table.holds_eq_true_iff.mp gone
      rw [beq_iff_eq] at chosen
      refine ⟨⟨rfl, rfl, rfl, rfl, rfl, rfl, rfl⟩, rfl, rfl, rfl, (fun _ same => nomatch same), ?_⟩
      exact .inr ⟨rfl, r, deleted, refers, found', chosen⟩
    · exact ⟨.refl _, rfl, rfl, rfl, fun r same => ⟨same, spared r same⟩, .inl rfl⟩
  obtain ⟨text, version, sameProject, sameRelease, keptLabel, label⟩ := labels
  obtain ⟨text', version', sameProject', sameLabel, keptRelease, release⟩ := releases
  refine ⟨row, here, ?_⟩
  exact
    { sameProject := sameProject'.trans sameProject
      project := fun p found => by
        refine ⟨p, Table.get?_delete_eq_some.mpr ⟨found, beq_false_of_ne ?_⟩⟩
        exact empty id row here
      label := fun l same => by
        obtain ⟨same, spared⟩ := keptLabel l (sameLabel ▸ same)
        exact ⟨same, fun _ found => delete_keeps spared found⟩
      release := fun r same => by
        obtain ⟨same, spared⟩ := keptRelease r same
        exact ⟨sameRelease ▸ same, fun kept found => ⟨kept, delete_keeps spared found, rfl⟩⟩
      assignee := fun u same => by
        rw [text'.assigneeID, text.assigneeID] at same
        exact ⟨same, fun user here => ⟨user, here⟩⟩
      version := .inr
        { version := version'.trans version
          text := text.trans text'
          label := by rwa [sameLabel]
          release := by
            rw [sameRelease] at release
            refine release.imp (fun same => same) fun lost => ⟨lost.1, ?_⟩
            obtain ⟨_, r, deleted, refers, found', rfl⟩ := lost
            exact ⟨r, deleted, refers, found', .inr ⟨rfl, empty⟩⟩ } }

/-- The two stages of a user delete: the unassignment is stamped, and then the foreign-key actions find
no assignment left. -/
theorem deleteUser_carried {user rows : Int} {actor : Option Int} {userName : String}
    {now created : Instant} (deleted : s.deleteUser user actor userName now created = .ok (rows, s'))
    (found : s'.issues.get? id = some row') :
    ∃ row, s.issues.get? id = some row ∧ Carried (.deleteUser user actor userName now created) s s' row
      row' := by
  obtain ⟨_, rest⟩ := require_bind_ok.mp deleted
  obtain ⟨_, rest⟩ := require_bind_ok.mp rest
  obtain ⟨_, rest⟩ := require_bind_ok.mp rest
  cases rest
  rw [Store.deleteUserRow_issues] at found
  obtain ⟨third, found, updater⟩ := setNull_found found
  obtain ⟨second, found, assignee⟩ := setNull_found found
  obtain ⟨first, found, creator⟩ := setNull_found found
  obtain ⟨row, here, unassigned⟩ := update_found found
  have free : first.assigneeID ≠ some user := by
    rcases unassigned with ⟨_, rfl⟩ | ⟨other, rfl⟩
    · exact nofun
    · exact beq_eq_false_iff_ne.mp other
  have creators : first.SameVersion second := by
    rcases creator with ⟨_, _, _, rfl⟩ | ⟨_, rfl⟩
    · exact ⟨⟨rfl, rfl, rfl, rfl, rfl, rfl, rfl⟩, rfl, rfl, rfl, rfl⟩
    · exact .refl _
  have assignees : second.SameVersion third := by
    rcases assignee with ⟨key, refers, gone, _⟩ | ⟨_, rfl⟩
    · rw [creators.text.assigneeID] at refers
      rw [beq_iff_eq] at gone
      exact absurd (gone ▸ refers) free
    · exact .refl _
  have updaters : third.SameVersion row' := by
    rcases updater with ⟨_, _, _, rfl⟩ | ⟨_, rfl⟩
    · exact ⟨⟨rfl, rfl, rfl, rfl, rfl, rfl, rfl⟩, rfl, rfl, rfl, rfl⟩
    · exact .refl _
  have cleared := (creators.trans assignees).trans updaters
  refine ⟨row, here, ?_⟩
  have columns : first.projectID = row.projectID ∧ first.labelID = row.labelID ∧
      first.releaseID = row.releaseID ∧
      (∀ u, first.assigneeID = some u → row.assigneeID = some u) ∧
      (first.updatedAt = now ∨ first = row) := by
    rcases unassigned with ⟨_, rfl⟩ | ⟨_, rfl⟩
    · exact ⟨rfl, rfl, rfl, (fun _ same => nomatch same), .inl rfl⟩
    · exact ⟨rfl, rfl, rfl, fun _ same => same, .inr rfl⟩
  obtain ⟨sameProject, sameLabel, sameRelease, kept, version⟩ := columns
  exact
    { sameProject := cleared.projectID.trans sameProject
      project := fun p here => ⟨p, here⟩
      label := fun l same => ⟨sameLabel ▸ cleared.labelID ▸ same, fun _ here => here⟩
      release := fun r same => ⟨sameRelease ▸ cleared.releaseID ▸ same, fun release here =>
        ⟨_, Store.Grows.update_keeps _ _ here, by split <;> rfl⟩⟩
      assignee := fun u same => by
        rw [cleared.text.assigneeID] at same
        refine ⟨kept u same, fun other here => ⟨other, Table.get?_delete_eq_some.mpr ⟨here, ?_⟩⟩⟩
        exact beq_false_of_ne fun gone => free (gone ▸ same)
      version := by
        rcases version with stamped | rfl
        · exact .inl (congrArg some (cleared.updatedAt.trans stamped).symm)
        · exact .inr ⟨cleared.updatedAt, cleared.text, .inl cleared.labelID, .inl cleared.releaseID⟩ }

theorem deleteIssue_carried {key : Int} (found : (s.deleteIssueRow key).issues.get? id = some row') :
    ∃ row, s.issues.get? id = some row ∧
      Carried (.deleteIssue key) s (s.deleteIssueRow key) row row' := by
  have grows : s.Grows (s.deleteIssueRow key) := { Store.Grows.refl s with }
  exact ⟨row', (Table.get?_delete_eq_some.mp found).1, .untouched grows row'⟩

theorem archiveDone_carried {release : Int} {now : Instant}
    (found : (s.issues.update (fun _ row => row.releaseID == some release && row.status == .done)
      (IssueRow.archive now)).get? id = some row') :
    ∃ row, s.issues.get? id = some row ∧ ∀ {s' : Store}, s.Grows s' →
      Carried (.archiveDone release now) s s' row row' := by
  obtain ⟨row, here, ⟨_, rfl⟩ | ⟨_, rfl⟩⟩ := update_found found
  · exact ⟨row, here, fun grows => .of_grows grows rfl rfl rfl (fun _ same => same) (.inl rfl)⟩
  · exact ⟨row', here, fun grows => .untouched grows row'⟩

/-- **What a write can do to an issue.** -/
theorem Write.issue_cases (applied : w.apply s = .ok (rows, s'))
    (found : s'.issues.get? id = some row') :
    (w = .insertIssue row' ∧ id = s.issues.nextId ∧ s.issueRefsExist row'.toIssueColumns = true ∧
      s.Grows s') ∨
    (∃ row cols, w = .updateIssue id cols ∧ s.issues.get? id = some row ∧
      row' = { row with toIssueColumns := cols } ∧ s.issueRefsExist cols = true ∧ s.Grows s') ∨
    ∃ row, s.issues.get? id = some row ∧ Carried w s s' row row' := by
  -- a write that keeps the issues as they are
  have unchanged : s.Grows s' → s'.issues = s.issues →
      ∃ row, s.issues.get? id = some row ∧ Carried w s s' row row' :=
    fun grows same => ⟨row', same ▸ found, .untouched grows row'⟩
  cases w with
  | updateTask | deleteTask | updateComment | deleteComment =>
      cases applied
      exact .inr (.inr (unchanged .of_others rfl))
  | insertTask | insertHistory | insertComment | upsertStatusConfig =>
      obtain ⟨_, rest⟩ := require_bind_ok.mp applied
      cases rest
      exact .inr (.inr (unchanged .of_others rfl))
  | updateTaskPositions =>
      obtain ⟨tasks, rfl⟩ := updateTaskPositions_cases applied
      exact .inr (.inr (unchanged .of_others rfl))
  | seedStatusConfig =>
      obtain ⟨statusConfig, rfl⟩ := seedStatusConfig_cases applied
      exact .inr (.inr (unchanged .of_others rfl))
  | insertProject row =>
      obtain ⟨_, rest⟩ := require_bind_ok.mp applied
      cases rest
      exact .inr (.inr (unchanged (.of_insertProject s row) rfl))
  | updateProject =>
      obtain ⟨_, rest⟩ := require_bind_ok.mp applied
      cases rest
      exact .inr (.inr (unchanged (.of_updateProject s _ _) rfl))
  | insertLabel row =>
      obtain ⟨_, rest⟩ := require_bind_ok.mp applied
      cases rest
      exact .inr (.inr (unchanged (.of_insertLabel s row) rfl))
  | insertRelease row =>
      obtain ⟨_, rest⟩ := require_bind_ok.mp applied
      obtain ⟨_, rest⟩ := require_bind_ok.mp rest
      cases rest
      exact .inr (.inr (unchanged (.of_insertRelease s row) rfl))
  | updateRelease =>
      obtain ⟨_, rest⟩ := require_bind_ok.mp applied
      obtain ⟨_, rest⟩ := require_bind_ok.mp rest
      cases rest
      exact .inr (.inr (unchanged (.of_updateRelease s _ fun _ => rfl) rfl))
  | reopenRelease | closeRelease =>
      cases applied
      exact .inr (.inr (unchanged (.of_updateRelease s _ fun _ => rfl) rfl))
  | insertUser row =>
      obtain ⟨_, rest⟩ := require_bind_ok.mp applied
      cases rest
      exact .inr (.inr (unchanged (.of_insertUser s row) rfl))
  | updateUser =>
      obtain ⟨_, rest⟩ := require_bind_ok.mp applied
      cases rest
      exact .inr (.inr (unchanged (.of_updateUser s _ _) rfl))
  | updateUserLastLogin =>
      cases applied
      exact .inr (.inr (unchanged (.of_updateUser s _ _) rfl))
  | insertSession =>
      obtain ⟨_, rest⟩ := require_bind_ok.mp applied
      cases rest
      exact .inr (.inr (unchanged .of_sessions rfl))
  | updateSession | deleteSession | deleteSessionsByUserID | deleteExpiredSessions =>
      cases applied
      exact .inr (.inr (unchanged .of_sessions rfl))
  | insertIssue row =>
      obtain ⟨refs, rest⟩ := require_bind_ok.mp applied
      cases rest
      rw [Bool.and_eq_true] at refs
      rw [Table.get?_insert] at found
      by_cases new : id = s.issues.seq + 1
      · rw [if_pos new] at found
        cases found
        exact .inl ⟨rfl, new, refs.1, .of_issues⟩
      · rw [if_neg new] at found
        exact .inr (.inr ⟨row', found, .untouched .of_issues row'⟩)
  | updateIssue key cols =>
      obtain ⟨refs, rest⟩ := require_bind_ok.mp applied
      cases rest
      obtain ⟨row, here, ⟨chosen, rfl⟩ | ⟨_, rfl⟩⟩ := update_found found
      · rw [beq_iff_eq] at chosen
        subst chosen
        have changed : s.issues.count (fun key _ => key == id) ≠ 0 := by
          intro none
          have := Table.count_eq_zero_iff.mp none id row here
          rw [beq_self_eq_true] at this
          cases this
        rw [Bool.or_eq_true, beq_iff_eq] at refs
        exact .inr (.inl ⟨row, cols, rfl, here, rfl, refs.resolve_left changed, .of_issues⟩)
      · exact .inr (.inr ⟨row', here, .untouched .of_issues row'⟩)
  | updateIssuePosition key position =>
      cases applied
      obtain ⟨row, here, ⟨_, rfl⟩ | ⟨_, rfl⟩⟩ := update_found found
      · exact .inr (.inr ⟨row, here, Repositioned.carried .of_issues ⟨position, rfl⟩⟩)
      · exact .inr (.inr ⟨row', here, .untouched .of_issues row'⟩)
  | updateIssuePositions =>
      obtain ⟨issues, rfl, moved⟩ := updateIssuePositions_cases applied
      obtain ⟨row, here, repositioned⟩ := applyPositionUpdates_found Repositioned.refl
        Repositioned.trans Repositioned.of_set moved found
      exact .inr (.inr ⟨row, here, repositioned.carried .of_issues⟩)
  | deleteLabel labelID projectID =>
      cases applied
      exact .inr (.inr (deleteLabel_carried found))
  | deleteRelease =>
      cases applied
      exact .inr (.inr (deleteRelease_carried found))
  | deleteProject project =>
      obtain ⟨allowed, rest⟩ := require_bind_ok.mp applied
      cases rest
      rw [Bool.or_eq_true, Bool.not_eq_true', beq_iff_eq] at allowed
      split at found
      · rw [if_pos ‹_›]
        exact .inr (.inr ⟨row', found, .untouched (.refl s) row'⟩)
      · next exists_ =>
          rw [if_neg exists_]
          have empty : ∀ key other, s.issues.get? key = some other → other.projectID ≠ project := by
            intro key other here same
            have any := Bool.eq_false_iff.mp (allowed.resolve_left fun none => exists_ (by simp [none]))
            exact any (Table.any_eq_true_iff.mpr ⟨key, other, here, beq_iff_eq.mpr same⟩)
          exact .inr (.inr (deleteProject_carried empty found))
  | archiveDone =>
      cases applied
      obtain ⟨row, here, carried⟩ := archiveDone_carried found
      exact .inr (.inr ⟨row, here, carried .of_issues⟩)
  | deleteIssue key =>
      cases applied
      split at found
      · rw [if_pos ‹_›]
        exact .inr (.inr ⟨row', found, .untouched (.refl s) row'⟩)
      · rw [if_neg ‹_›]
        exact .inr (.inr (deleteIssue_carried found))
  | deleteUser => exact .inr (.inr (deleteUser_carried applied found))

end Cases

end Wuflow

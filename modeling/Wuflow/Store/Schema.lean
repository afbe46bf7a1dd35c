/-
**The tables** (`createTables`) **and their foreign-key actions.**

A row holds the columns that some function of the backend reads or writes, apart from its key. The
declared actions of a delete are part of the delete: `ON DELETE SET NULL` clears the column of every
row that refers to a deleted key, `ON DELETE CASCADE` deletes the row. `issues.project_id` has no
action, so a project with issues cannot be deleted.
-/

import Wuflow.Model.Types
import Wuflow.Relational.Table

namespace Wuflow

open Calendar (Instant)
open Relational (Table)

/-! ### Rows -/

structure ProjectRow where
  name : String
  description : String
  deriving DecidableEq

structure ReleaseRow where
  projectID : Int
  name : String
  description : String
  startDate : Option DateTime
  releaseDate : Option DateTime
  closedAt : Option Instant
  status : ReleaseStatus
  ownerID : Option Int
  createdAt : Instant
  updatedAt : Instant
  deriving DecidableEq

/-- The columns of an issue that `UpdateIssue` sets: all but its creator. -/
structure IssueColumns where
  title : String
  description : String
  status : IssueStatus
  position : Int
  deadline : Option DateTime
  plannedDates : Option (List String)
  priority : IssuePriority
  labelID : Option Int
  assigneeID : Option Int
  updatedBy : Option Int
  projectID : Int
  releaseID : Option Int
  updatedAt : Instant
  deriving DecidableEq

structure IssueRow extends IssueColumns where
  creatorID : Option Int
  deriving DecidableEq

structure TaskRow where
  issueID : Int
  title : String
  done : Bool
  position : Int
  deadline : Option DateTime
  updatedAt : Instant
  deriving DecidableEq

structure LabelRow where
  name : String
  color : String
  projectID : Int
  deriving DecidableEq

structure UserRow where
  email : String
  firstName : String
  lastName : String
  passwordHash : String
  role : UserRole
  active : Bool
  updatedAt : Instant
  lastLogin : Option Instant
  deriving DecidableEq

structure SessionRow where
  userID : Int
  sessionToken : List UInt8
  tokenHash : String
  expiresAt : Instant
  deriving DecidableEq

structure HistoryRow where
  issueID : Int
  userID : Option Int
  event : HistoryEvent
  data : ChangeData
  createdAt : Instant
  deriving DecidableEq

structure CommentRow where
  issueID : Int
  userID : Option Int
  body : String
  edited : Bool
  createdAt : Instant
  updatedAt : Instant
  deriving DecidableEq

/-! ### The store -/

/-- The database. `project_status_config` has no key of its own: one row for each project at most. -/
structure Store where
  projects : Table ProjectRow := .empty
  releases : Table ReleaseRow := .empty
  issues : Table IssueRow := .empty
  tasks : Table TaskRow := .empty
  labels : Table LabelRow := .empty
  statusConfig : List StatusConfig := []
  users : Table UserRow := .empty
  sessions : Table SessionRow := .empty
  history : Table HistoryRow := .empty
  comments : Table CommentRow := .empty

/-- A new database, with the default project under id 1. -/
def createTables : Store :=
  { projects := Table.empty.insert ⟨"default", "Default project"⟩ }

/-! ### References -/

/-- A nullable reference is null or names a row. -/
def refExists {ρ : Type} (t : Table ρ) : Option Int → Bool
  | none => true
  | some id => (t.get? id).isSome

/-- The foreign keys of the columns `UpdateIssue` sets. -/
def Store.issueRefsExist (s : Store) (cols : IssueColumns) : Bool :=
  refExists s.labels cols.labelID && refExists s.users cols.assigneeID &&
    refExists s.users cols.updatedBy && refExists s.projects (some cols.projectID) &&
    refExists s.releases cols.releaseID

/-- `ON DELETE SET NULL`: clear a column in the rows that refer to a deleted key. -/
def setNull {ρ : Type} (t : Table ρ) (deleted : Int → Bool) (reference : ρ → Option Int)
    (clear : ρ → ρ) : Table ρ :=
  t.update (fun _ row => (reference row).any deleted) clear

def IssueRow.clearLabel (row : IssueRow) : IssueRow :=
  { row with toIssueColumns := { row.toIssueColumns with labelID := none } }

def IssueRow.clearRelease (row : IssueRow) : IssueRow :=
  { row with toIssueColumns := { row.toIssueColumns with releaseID := none } }

def IssueRow.clearAssignee (row : IssueRow) : IssueRow :=
  { row with toIssueColumns := { row.toIssueColumns with assigneeID := none } }

def IssueRow.clearUpdater (row : IssueRow) : IssueRow :=
  { row with toIssueColumns := { row.toIssueColumns with updatedBy := none } }

def IssueRow.clearCreator (row : IssueRow) : IssueRow := { row with creatorID := none }

/-! ### Deletes with their foreign-key actions -/

/-- `DELETE FROM labels`. -/
def Store.deleteLabels (s : Store) (selects : Int → LabelRow → Bool) : Store :=
  { s with
    labels := s.labels.delete selects
    issues := setNull s.issues (fun id => s.labels.holds id (selects id)) (·.labelID)
      IssueRow.clearLabel }

/-- `DELETE FROM releases`. -/
def Store.deleteReleases (s : Store) (selects : Int → ReleaseRow → Bool) : Store :=
  { s with
    releases := s.releases.delete selects
    issues := setNull s.issues (fun id => s.releases.holds id (selects id)) (·.releaseID)
      IssueRow.clearRelease }

section Deletes

variable (s : Store)

theorem Store.deleteLabels_issues (selects : Int → LabelRow → Bool) :
    (s.deleteLabels selects).issues =
      setNull s.issues (fun id => s.labels.holds id (selects id)) (·.labelID) IssueRow.clearLabel := rfl

theorem Store.deleteReleases_issues (selects : Int → ReleaseRow → Bool) :
    (s.deleteReleases selects).issues =
      setNull s.issues (fun id => s.releases.holds id (selects id)) (·.releaseID)
        IssueRow.clearRelease := rfl

end Deletes

/-- `DELETE FROM projects WHERE id = ?`, once no issue refers to it. -/
def Store.deleteProjectRow (s : Store) (id : Int) : Store :=
  let cascaded := (s.deleteLabels fun _ row => row.projectID == id).deleteReleases
    fun _ row => row.projectID == id
  { cascaded with
    projects := s.projects.delete fun key _ => key == id
    statusConfig := s.statusConfig.filter fun cfg => cfg.projectID != id }

/-- `DELETE FROM issues WHERE id = ?`. -/
def Store.deleteIssueRow (s : Store) (id : Int) : Store :=
  { s with
    issues := s.issues.delete fun key _ => key == id
    tasks := s.tasks.delete fun _ row => row.issueID == id
    history := s.history.delete fun _ row => row.issueID == id
    comments := s.comments.delete fun _ row => row.issueID == id }

/-- `DELETE FROM users WHERE id = ?`. -/
def Store.deleteUserRow (s : Store) (id : Int) : Store :=
  let gone := fun key : Int => key == id
  { s with
    users := s.users.delete fun key _ => gone key
    sessions := s.sessions.delete fun _ row => gone row.userID
    releases := setNull s.releases gone (·.ownerID) fun row => { row with ownerID := none }
    issues := setNull (setNull (setNull s.issues gone (·.creatorID) IssueRow.clearCreator) gone
      (·.assigneeID) IssueRow.clearAssignee) gone (·.updatedBy) IssueRow.clearUpdater
    history := setNull s.history gone (·.userID) fun row => { row with userID := none }
    comments := setNull s.comments gone (·.userID) fun row => { row with userID := none } }

theorem Store.deleteUserRow_issues (s : Store) (id : Int) :
    (s.deleteUserRow id).issues =
      setNull (setNull (setNull s.issues (· == id) (·.creatorID) IssueRow.clearCreator) (· == id)
        (·.assigneeID) IssueRow.clearAssignee) (· == id) (·.updatedBy) IssueRow.clearUpdater := rfl

theorem Store.deleteUserRow_releases (s : Store) (id : Int) :
    (s.deleteUserRow id).releases =
      setNull s.releases (· == id) (·.ownerID) fun row => { row with ownerID := none } := rfl

end Wuflow

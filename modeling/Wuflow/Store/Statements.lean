/-
**The SQL statements of the backend.**

* `Select` — a read; `Select.eval` is its result in a store.
* `Write` — a single write statement, or a transaction (`UpdateIssuePositions`, `UpdateTaskPositions`,
  `DeleteUser`); `Write.apply` is its row count (or the new key of an insert) and the store after it,
  or the constraint it violates. A failed write leaves the store as it is: SQLite undoes the statement,
  and the transactions roll back (`Write.exec`).
-/

import Mathlib.Data.List.Sort
import Wuflow.Store.Schema

namespace Wuflow

open Calendar (Instant)
open Relational (Table)

/-! ### Joins -/

/-- The user joined to an assignee, owner, actor or author column. -/
def Store.joinedUser (s : Store) (id : Option Int) : Option User :=
  id.bind fun id => (s.users.get? id).map fun row =>
    { id, email := row.email, firstName := row.firstName, lastName := row.lastName }

/-- `issueSelectBase` and `scanIssueRow`: one issue with its label, assignee, project and release, and
without its tasks. -/
def Store.scanIssueRow (s : Store) (id : Int) (row : IssueRow) : Issue :=
  let label := row.labelID.bind fun id => (s.labels.get? id).map fun l =>
    ({ id, name := l.name, color := l.color } : Label)
  let assignee := s.joinedUser row.assigneeID
  let project := (s.projects.get? row.projectID).map fun p =>
    ({ id := row.projectID, name := p.name, description := p.description } : Project)
  let release := row.releaseID.bind fun id => (s.releases.get? id).map fun r =>
    ({ id, name := r.name, status := r.status, releaseDate := r.releaseDate } : Release)
  { id
    title := row.title
    description := row.description
    status := row.status
    position := row.position
    deadline := row.deadline
    plannedDates := row.plannedDates
    priority := row.priority
    creatorID := row.creatorID.getD 0
    assigneeID := assignee.map (·.id)
    updaterID := row.updatedBy
    projectID := (project.map (·.id)).getD 0
    releaseID := release.map (·.id)
    assignee, label, release, project
    updatedAt := row.updatedAt }

def scanTaskRow (id : Int) (row : TaskRow) : Task :=
  { id, issueID := row.issueID, title := row.title, done := row.done, position := row.position,
    deadline := row.deadline, updatedAt := row.updatedAt }

def scanUserRow (id : Int) (row : UserRow) : User :=
  { id, email := row.email, firstName := row.firstName, lastName := row.lastName,
    passwordHash := row.passwordHash, role := row.role, active := row.active,
    updatedAt := row.updatedAt, lastLogin := row.lastLogin }

def scanSessionRow (id : Int) (row : SessionRow) : Session :=
  { id, userID := row.userID, sessionToken := row.sessionToken, tokenHash := row.tokenHash,
    expiresAt := row.expiresAt }

def Store.scanRelease (s : Store) (id : Int) (row : ReleaseRow) : Release :=
  { id, projectID := row.projectID, name := row.name, description := row.description,
    startDate := row.startDate, releaseDate := row.releaseDate, closedAt := row.closedAt,
    status := row.status, ownerID := (s.joinedUser row.ownerID).map (·.id),
    owner := s.joinedUser row.ownerID, createdAt := row.createdAt, updatedAt := row.updatedAt }

def Store.scanComment (s : Store) (id : Int) (row : CommentRow) : Comment :=
  { id, issueID := row.issueID, userID := row.userID, user := s.joinedUser row.userID,
    body := row.body, edited := row.edited, createdAt := row.createdAt, updatedAt := row.updatedAt }

def scanProjectRow (id : Int) (row : ProjectRow) : Project :=
  { id, name := row.name, description := row.description }

/-! ### Reads -/

inductive Select
  | issueByID (id : Int)
  | issueByIDInProject (id projectID : Int)
  | tasksByIssueID (issueID : Int)
  | issueExists (id : Int)
  | userExists (id : Int)
  | userExistsAndActive (id : Int)
  | labelExistsInProject (labelID projectID : Int)
  | releaseExistsInProject (releaseID projectID : Int)
  | projectExists (id : Int)
  | maxIssuePosition (status : IssueStatus)
  | maxTaskPosition (issueID : Int)
  | userByEmail (email : String)
  | userByID (id : Int)
  | countUsers
  | sessionByToken (token : List UInt8)
  | projectByID (id : Int)
  | countIssuesByProject (projectID : Int)
  | releaseByID (id : Int)
  | releaseByIDInProject (id projectID : Int)
  | commentByID (id issueID : Int)
  | statusConfig (projectID : Int)
  deriving DecidableEq

/-- What a read returns. -/
abbrev Select.Row : Select → Type
  | .issueByID _ | .issueByIDInProject _ _ => Option Issue
  | .tasksByIssueID _ => List Task
  | .issueExists _ | .userExists _ | .userExistsAndActive _ | .labelExistsInProject _ _
  | .releaseExistsInProject _ _ | .projectExists _ => Bool
  | .maxIssuePosition _ | .maxTaskPosition _ => Option Int
  | .userByEmail _ | .userByID _ => Option User
  | .countUsers | .countIssuesByProject _ => Int
  | .sessionByToken _ => Option Session
  | .projectByID _ => Option Project
  | .releaseByID _ | .releaseByIDInProject _ _ => Option Release
  | .commentByID _ _ => Option Comment
  | .statusConfig _ => Option StatusConfig

instance : (q : Select) → DecidableEq q.Row
  | .issueByID _ | .issueByIDInProject _ _ => inferInstanceAs (DecidableEq (Option Issue))
  | .tasksByIssueID _ => inferInstanceAs (DecidableEq (List Task))
  | .issueExists _ | .userExists _ | .userExistsAndActive _ | .labelExistsInProject _ _
  | .releaseExistsInProject _ _ | .projectExists _ => inferInstanceAs (DecidableEq Bool)
  | .maxIssuePosition _ | .maxTaskPosition _ => inferInstanceAs (DecidableEq (Option Int))
  | .userByEmail _ | .userByID _ => inferInstanceAs (DecidableEq (Option User))
  | .countUsers | .countIssuesByProject _ => inferInstanceAs (DecidableEq Int)
  | .sessionByToken _ => inferInstanceAs (DecidableEq (Option Session))
  | .projectByID _ => inferInstanceAs (DecidableEq (Option Project))
  | .releaseByID _ | .releaseByIDInProject _ _ => inferInstanceAs (DecidableEq (Option Release))
  | .commentByID _ _ => inferInstanceAs (DecidableEq (Option Comment))
  | .statusConfig _ => inferInstanceAs (DecidableEq (Option StatusConfig))

/-- `SELECT MAX(position)` over the selected rows. -/
def maxPosition {ρ : Type} (t : Table ρ) (selects : ρ → Bool) (position : ρ → Int) : Option Int :=
  ((t.rows.filter selects).map position).max?

def Select.eval : (q : Select) → Store → q.Row
  | .issueByID id, s => (s.issues.get? id).map (s.scanIssueRow id)
  | .issueByIDInProject id projectID, s =>
      ((s.issues.get? id).filter fun row => row.projectID == projectID).map (s.scanIssueRow id)
  | .tasksByIssueID issueID, s =>
      -- ORDER BY position ASC
      ((s.tasks.entries.filter fun entry => entry.2.issueID == issueID).map fun entry =>
        scanTaskRow entry.1 entry.2).insertionSort fun a b => a.position ≤ b.position
  | .issueExists id, s => s.issues.holds id fun _ => true
  | .userExists id, s => s.users.holds id fun _ => true
  | .userExistsAndActive id, s => s.users.holds id fun row => row.active
  | .labelExistsInProject labelID projectID, s =>
      s.labels.holds labelID fun row => row.projectID == projectID
  | .releaseExistsInProject releaseID projectID, s =>
      s.releases.holds releaseID fun row => row.projectID == projectID
  | .projectExists id, s => s.projects.holds id fun _ => true
  | .maxIssuePosition status, s => maxPosition s.issues (·.status == status) (·.position)
  | .maxTaskPosition issueID, s => maxPosition s.tasks (·.issueID == issueID) (·.position)
  | .userByEmail email, s =>
      (s.users.entries.find? fun entry => entry.2.email == email).map fun entry =>
        scanUserRow entry.1 entry.2
  | .userByID id, s => (s.users.get? id).map (scanUserRow id)
  | .countUsers, s => s.users.count fun _ _ => true
  | .sessionByToken token, s =>
      (s.sessions.entries.find? fun entry => entry.2.sessionToken == token).map fun entry =>
        scanSessionRow entry.1 entry.2
  | .projectByID id, s => (s.projects.get? id).map (scanProjectRow id)
  | .countIssuesByProject projectID, s => s.issues.count fun _ row => row.projectID == projectID
  | .releaseByID id, s => (s.releases.get? id).map (s.scanRelease id)
  | .releaseByIDInProject id projectID, s =>
      ((s.releases.get? id).filter fun row => row.projectID == projectID).map (s.scanRelease id)
  | .commentByID id issueID, s =>
      ((s.comments.get? id).filter fun row => row.issueID == issueID).map (s.scanComment id)
  | .statusConfig projectID, s => s.statusConfig.find? fun cfg => cfg.projectID == projectID

/-! ### Writes -/

inductive Write
  | insertIssue (row : IssueRow)
  | updateIssue (id : Int) (cols : IssueColumns)
  | updateIssuePosition (id position : Int)
  | updateIssuePositions (projectID : Int) (updates : List PositionUpdate)
  | deleteIssue (id : Int)
  | insertTask (row : TaskRow)
  | updateTask (id issueID : Int) (row : TaskRow)
  | updateTaskPositions (issueID : Int) (updates : List PositionUpdate)
  | deleteTask (id issueID : Int)
  | insertHistory (row : HistoryRow)
  | insertComment (row : CommentRow)
  | updateComment (id issueID : Int) (authorID : Option Int) (body : String) (now : Instant)
  | deleteComment (id issueID : Int) (authorID : Option Int)
  | insertLabel (row : LabelRow)
  | deleteLabel (labelID projectID : Int)
  | insertProject (row : ProjectRow)
  | seedStatusConfig (projectID : Int)
  | upsertStatusConfig (cfg : StatusConfig)
  | updateProject (id : Int) (row : ProjectRow)
  | deleteProject (id : Int)
  | insertRelease (row : ReleaseRow)
  | updateRelease (id : Int) (r : Release)
  | deleteRelease (id : Int)
  | reopenRelease (id : Int) (now : Instant)
  | closeRelease (id : Int) (now : Instant)
  | archiveDone (releaseID : Int) (now : Instant)
  | insertUser (row : UserRow)
  | updateUser (u : User) (removesSysAdmin : Bool)
  | updateUserLastLogin (id : Int) (at_ : Instant)
  | deleteUser (id : Int) (actor : Option Int) (userName : String) (now created : Instant)
  | insertSession (row : SessionRow)
  | updateSession (id : Int) (tokenHash : String) (expiresAt : Instant)
  | deleteSession (id : Int)
  | deleteSessionsByUserID (userID : Int)
  | deleteExpiredSessions (now : Instant)
  deriving DecidableEq

/-- A constraint that has to hold for a statement to succeed. -/
def require (holds : Bool) (violated : Err) : Except Err Unit :=
  if holds then .ok () else .error violated

/-- `applyPositionUpdates`: one update after the other, within `scope`; a statement that matches no row
ends the transaction. -/
def applyPositionUpdates {ρ : Type} (scope : ρ → Bool) (setPosition : Int → ρ → ρ) (notFound : Err) :
    List PositionUpdate → Table ρ → Except Err (Table ρ)
  | [], t => .ok t
  | u :: updates, t => do
      let selects := fun (id : Int) (row : ρ) => id == u.id && scope row
      require (t.count selects != 0) notFound
      applyPositionUpdates scope setPosition notFound updates (t.update selects (setPosition u.position))

def IssueRow.setPosition (position : Int) (row : IssueRow) : IssueRow :=
  { row with toIssueColumns := { row.toIssueColumns with position } }

def TaskRow.setPosition (position : Int) (row : TaskRow) : TaskRow := { row with position }

/-- `lastActiveSysAdminCond`: the row is an active sysadmin and there is no other. -/
def Store.lastActiveSysAdmin (s : Store) (row : UserRow) : Bool :=
  row.role == .sysadmin && row.active &&
    s.users.count (fun _ other => other.role == .sysadmin && other.active) ≤ 1

/-- The columns `UpdateUser` sets. -/
def UserRow.setFrom (u : User) (row : UserRow) : UserRow :=
  { row with
    email := u.email, firstName := u.firstName, lastName := u.lastName,
    passwordHash := u.passwordHash, role := u.role, active := u.active, updatedAt := u.updatedAt }

/-- The author filter of `UpdateComment` and `DeleteComment`. -/
def CommentRow.authoredBy (authorID : Option Int) (row : CommentRow) : Bool :=
  match authorID with
  | none => true
  | some author => row.userID == some author

/-- The columns `UPDATE issues SET assignee_id = NULL, updated_by = ?, updated_at = ?` sets. -/
def IssueRow.unassign (actor : Option Int) (now : Instant) (row : IssueRow) : IssueRow :=
  { row with toIssueColumns :=
      { row.toIssueColumns with assigneeID := none, updatedBy := actor, updatedAt := now } }

/-- The columns `UPDATE issues SET status = ?, updated_at = ?` sets. -/
def IssueRow.archive (now : Instant) (row : IssueRow) : IssueRow :=
  { row with toIssueColumns := { row.toIssueColumns with status := .archive, updatedAt := now } }

/-- The history entry of an issue that loses its assignee to a user delete. -/
def unassignedEntry (actor : Option Int) (userName : String) (created : Instant) (issueID : Int) :
    HistoryRow :=
  ⟨issueID, actor, .updated, { field := "assignee", from_ := userName ++ " (user deleted)" }, created⟩

/-- `DeleteUser`, the statements of its transaction in order. -/
def Store.deleteUser (s : Store) (id : Int) (actor : Option Int) (userName : String)
    (now created : Instant) : Except Err (Int × Store) := do
  let assigned := fun (_ : Int) (row : IssueRow) => row.assigneeID == some id
  let unassigned := s.issues.count assigned
  require (unassigned == 0 || refExists s.users actor) .foreignKey
  let history := (s.issues.entries.filter fun entry => assigned entry.1 entry.2).foldl
    (fun history entry => history.insert (unassignedEntry actor userName created entry.1)) s.history
  let issues := s.issues.update assigned (IssueRow.unassign actor now)
  let s := { s with history, issues }
  let deletable := s.users.holds id fun row => !s.lastActiveSysAdmin row
  require (deletable || !s.users.holds id fun _ => true) .lastSysAdmin
  require deletable .userNotFound
  return (unassigned, s.deleteUserRow id)

/-- **The effect of a write**: the number of rows it changed, or the key it inserted, and the store. -/
def Write.apply : Write → Store → Except Err (Int × Store)
  | .insertIssue row, s => do
      require (s.issueRefsExist row.toIssueColumns && refExists s.users row.creatorID) .foreignKey
      return (s.issues.nextId, { s with issues := s.issues.insert row })
  | .updateIssue id cols, s => do
      let selects := fun (key : Int) (_ : IssueRow) => key == id
      require (s.issues.count selects == 0 || s.issueRefsExist cols) .foreignKey
      return (s.issues.count selects,
        { s with issues := s.issues.update selects fun row => { row with toIssueColumns := cols } })
  | .updateIssuePosition id position, s =>
      let selects := fun (key : Int) (_ : IssueRow) => key == id
      .ok (s.issues.count selects,
        { s with issues := s.issues.update selects (IssueRow.setPosition position) })
  | .updateIssuePositions projectID updates, s => do
      let issues ← applyPositionUpdates
        (fun row : IssueRow => row.projectID == projectID && row.status != .archive)
        IssueRow.setPosition .issueNotFound updates s.issues
      return (updates.length, { s with issues })
  | .deleteIssue id, s =>
      let selects := fun (key : Int) (_ : IssueRow) => key == id
      .ok (s.issues.count selects,
        if s.issues.count selects == 0 then s else s.deleteIssueRow id)
  | .insertTask row, s => do
      require (refExists s.issues (some row.issueID)) .foreignKey
      return (s.tasks.nextId, { s with tasks := s.tasks.insert row })
  | .updateTask id issueID row, s =>
      let selects := fun (key : Int) (old : TaskRow) => key == id && old.issueID == issueID
      .ok (s.tasks.count selects,
        { s with tasks := s.tasks.update selects fun old => { row with issueID := old.issueID } })
  | .updateTaskPositions issueID updates, s => do
      let tasks ← applyPositionUpdates (fun row : TaskRow => row.issueID == issueID)
        TaskRow.setPosition .taskNotFound updates s.tasks
      return (updates.length, { s with tasks })
  | .deleteTask id issueID, s =>
      let selects := fun (key : Int) (row : TaskRow) => key == id && row.issueID == issueID
      .ok (s.tasks.count selects, { s with tasks := s.tasks.delete selects })
  | .insertHistory row, s => do
      require (refExists s.issues (some row.issueID) && refExists s.users row.userID) .foreignKey
      return (s.history.nextId, { s with history := s.history.insert row })
  | .insertComment row, s => do
      require (refExists s.issues (some row.issueID) && refExists s.users row.userID) .foreignKey
      return (s.comments.nextId, { s with comments := s.comments.insert row })
  | .updateComment id issueID authorID body now, s =>
      let selects := fun (key : Int) (row : CommentRow) =>
        key == id && row.issueID == issueID && row.authoredBy authorID
      .ok (s.comments.count selects,
        { s with comments := s.comments.update selects fun row =>
            { row with body, edited := true, updatedAt := now } })
  | .deleteComment id issueID authorID, s =>
      let selects := fun (key : Int) (row : CommentRow) =>
        key == id && row.issueID == issueID && row.authoredBy authorID
      .ok (s.comments.count selects, { s with comments := s.comments.delete selects })
  | .insertLabel row, s => do
      require (refExists s.projects (some row.projectID)) .foreignKey
      return (s.labels.nextId, { s with labels := s.labels.insert row })
  | .deleteLabel labelID projectID, s =>
      let selects := fun (key : Int) (row : LabelRow) => key == labelID && row.projectID == projectID
      .ok (s.labels.count selects, s.deleteLabels selects)
  | .insertProject row, s => do
      require (!s.projects.any fun _ other => other.name == row.name) .uniqueConstraint
      return (s.projects.nextId, { s with projects := s.projects.insert row })
  | .seedStatusConfig projectID, s => do
      -- INSERT OR IGNORE with the column defaults
      if s.statusConfig.any fun cfg => cfg.projectID == projectID then
        return (0, s)
      require (refExists s.projects (some projectID)) .foreignKey
      return (1, { s with
        statusConfig := s.statusConfig ++ [⟨projectID, "Pending", "Working", "", ""⟩] })
  | .upsertStatusConfig cfg, s => do
      require (refExists s.projects (some cfg.projectID)) .foreignKey
      return (1, { s with
        statusConfig := (s.statusConfig.filter fun old => old.projectID != cfg.projectID) ++ [cfg] })
  | .updateProject id row, s => do
      let selects := fun (key : Int) (_ : ProjectRow) => key == id
      require (s.projects.count selects == 0 ||
        !s.projects.any fun key other => key != id && other.name == row.name) .uniqueConstraint
      return (s.projects.count selects, { s with projects := s.projects.update selects fun _ => row })
  | .deleteProject id, s => do
      let selects := fun (key : Int) (_ : ProjectRow) => key == id
      require (s.projects.count selects == 0 || !s.issues.any fun _ row => row.projectID == id)
        .foreignKey
      return (s.projects.count selects,
        if s.projects.count selects == 0 then s else s.deleteProjectRow id)
  | .insertRelease row, s => do
      require (!s.releases.any fun _ other =>
        other.projectID == row.projectID && other.name == row.name) .uniqueConstraint
      require (refExists s.projects (some row.projectID) && refExists s.users row.ownerID) .foreignKey
      return (s.releases.nextId, { s with releases := s.releases.insert row })
  | .updateRelease id r, s => do
      let selects := fun (key : Int) (_ : ReleaseRow) => key == id
      require (!s.releases.holds id fun row => s.releases.any fun key other =>
        key != id && other.projectID == row.projectID && other.name == r.name) .uniqueConstraint
      require (s.releases.count selects == 0 || refExists s.users r.ownerID) .foreignKey
      return (s.releases.count selects,
        { s with releases := s.releases.update selects fun row =>
            { row with
              name := r.name, description := r.description, startDate := r.startDate,
              releaseDate := r.releaseDate, ownerID := r.ownerID, updatedAt := r.updatedAt } })
  | .deleteRelease id, s =>
      .ok (s.releases.count fun key _ => key == id, s.deleteReleases fun key _ => key == id)
  | .reopenRelease id now, s =>
      let selects := fun (key : Int) (row : ReleaseRow) => key == id && row.status == .closed
      .ok (s.releases.count selects,
        { s with releases := s.releases.update selects fun row =>
            { row with status := .open, closedAt := none, updatedAt := now } })
  | .closeRelease id now, s =>
      let selects := fun (key : Int) (row : ReleaseRow) => key == id && row.status == .open
      .ok (s.releases.count selects,
        { s with releases := s.releases.update selects fun row =>
            { row with status := .closed, closedAt := some now, updatedAt := now } })
  | .archiveDone releaseID now, s =>
      let selects := fun (_ : Int) (row : IssueRow) =>
        row.releaseID == some releaseID && row.status == .done
      .ok (s.issues.count selects,
        { s with issues := s.issues.update selects (IssueRow.archive now) })
  | .insertUser row, s => do
      require (!s.users.any fun _ other => other.email == row.email) .uniqueConstraint
      return (s.users.nextId, { s with users := s.users.insert row })
  | .updateUser u removesSysAdmin, s => do
      let selects := fun (key : Int) (row : UserRow) =>
        key == u.id && !(removesSysAdmin && s.lastActiveSysAdmin row)
      require (s.users.count selects == 0 ||
        !s.users.any fun key other => key != u.id && other.email == u.email) .uniqueConstraint
      return (s.users.count selects,
        { s with users := s.users.update selects (UserRow.setFrom u) })
  | .updateUserLastLogin id at_, s =>
      let selects := fun (key : Int) (_ : UserRow) => key == id
      .ok (s.users.count selects,
        { s with users := s.users.update selects fun row => { row with lastLogin := some at_ } })
  | .deleteUser id actor userName now created, s => s.deleteUser id actor userName now created
  | .insertSession row, s => do
      require (refExists s.users (some row.userID)) .foreignKey
      return (s.sessions.nextId, { s with sessions := s.sessions.insert row })
  | .updateSession id tokenHash expiresAt, s =>
      let selects := fun (key : Int) (_ : SessionRow) => key == id
      .ok (s.sessions.count selects,
        { s with sessions := s.sessions.update selects fun row => { row with tokenHash, expiresAt } })
  | .deleteSession id, s =>
      let selects := fun (key : Int) (_ : SessionRow) => key == id
      .ok (s.sessions.count selects, { s with sessions := s.sessions.delete selects })
  | .deleteSessionsByUserID userID, s =>
      let selects := fun (_ : Int) (row : SessionRow) => row.userID == userID
      .ok (s.sessions.count selects, { s with sessions := s.sessions.delete selects })
  | .deleteExpiredSessions now, s =>
      let selects := fun (_ : Int) (row : SessionRow) => decide (row.expiresAt < now)
      .ok (s.sessions.count selects, { s with sessions := s.sessions.delete selects })

/-- A write on the store: a failed one leaves it as it is. -/
def Write.exec (w : Write) (s : Store) : Except Err Int × Store :=
  match w.apply s with
  | .ok (rows, s') => (.ok rows, s')
  | .error err => (.error err, s)

end Wuflow

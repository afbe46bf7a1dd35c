/-
**The database functions** (`db.go`).

Each runs one or more statements and returns a value or an error. The functions that fill in the
struct they are given return the filled struct.
-/

import Wuflow.Backend.Query

namespace Wuflow

open Calendar (Instant)
open Interleave (Prog)

/-- A database function. -/
abbrev Db := ExceptT Err Backend

def select (q : Select) : Db q.Row := ExceptT.mk (ask (.read q))

def exec (w : Write) : Db Int := ExceptT.mk (ask (.write w))

/-- `checkRowsAffected`. -/
def checkRowsAffected (rows : Int) (notFound : Err) : Db Unit :=
  if rows = 0 then throw notFound else pure ()

/-- Report a UNIQUE violation as another error. -/
def onDuplicate {α : Type} (p : Db α) (duplicate : Err) : Db α :=
  p.adapt fun err => if err = .uniqueConstraint then duplicate else err

/-- `nullableUserID`: a zero id is stored as NULL. -/
def nullableUserID (id : Option Int) : Option Int := id.filter (· != 0)

/-! ### Issues -/

def attachTasks (issue : Option Issue) : Db (Option Issue) :=
  match issue with
  | none => pure none
  | some issue => do
      let tasks ← select (.tasksByIssueID issue.id)
      return some { issue with tasks }

def getIssueByID (id : Int) : Db (Option Issue) := do
  let issue ← select (.issueByID id)
  attachTasks issue

def getIssueByIDInProject (id projectID : Int) : Db (Option Issue) := do
  let issue ← select (.issueByIDInProject id projectID)
  attachTasks issue

/-- The columns `CreateIssue` and `UpdateIssue` take from an issue. -/
def Issue.columns (i : Issue) : IssueColumns :=
  { title := i.title, description := i.description, status := i.status, position := i.position,
    deadline := i.deadline, plannedDates := i.plannedDates, priority := i.priority,
    labelID := i.label.map (·.id), assigneeID := i.assigneeID,
    updatedBy := nullableUserID i.updaterID, projectID := i.projectID, releaseID := i.releaseID,
    updatedAt := i.updatedAt }

/-- The position after the last one, in Go's 64-bit integers. -/
def nextPosition (maxPos : Option Int) : Int := Int.bmod (maxPos.getD 0 + 1) (2 ^ 64)

def createIssue (i : Issue) : Db Issue := do
  let priority := if i.priority = .unset then .normal else i.priority
  let maxPos ← select (.maxIssuePosition i.status)
  let updatedAt ← ask .now
  let i := { i with priority, position := nextPosition maxPos, updatedAt }
  let id ← exec (.insertIssue
    { toIssueColumns := i.columns, creatorID := nullableUserID (some i.creatorID) })
  return { i with id }

def updateIssue (i : Issue) : Db Issue := do
  let updatedAt ← ask .now
  let i := { i with updatedAt }
  let rows ← exec (.updateIssue i.id i.columns)
  checkRowsAffected rows .issueNotFound
  return i

def updateIssuePosition (id position : Int) : Db Unit := do
  let rows ← exec (.updateIssuePosition id position)
  checkRowsAffected rows .issueNotFound

def updateIssuePositions (projectID : Int) (updates : List PositionUpdate) : Db Unit := do
  let _ ← exec (.updateIssuePositions projectID updates)

def deleteIssue (id : Int) : Db Unit := do
  let rows ← exec (.deleteIssue id)
  checkRowsAffected rows .issueNotFound

/-! ### Tasks -/

def createTask (t : Task) : Db Task := do
  let found ← select (.issueExists t.issueID)
  if !found then throw .issueNotFound else
  let maxPos ← select (.maxTaskPosition t.issueID)
  let updatedAt ← ask .now
  let t := { t with position := nextPosition maxPos, updatedAt }
  let id ← exec (.insertTask ⟨t.issueID, t.title, t.done, t.position, t.deadline, t.updatedAt⟩)
  return { t with id }

def updateTask (t : Task) (issueID : Int) : Db Task := do
  let updatedAt ← ask .now
  let t := { t with updatedAt }
  let rows ← exec (.updateTask t.id issueID
    ⟨t.issueID, t.title, t.done, t.position, t.deadline, t.updatedAt⟩)
  checkRowsAffected rows .taskNotFound
  return t

def updateTaskPositions (issueID : Int) (updates : List PositionUpdate) : Db Unit := do
  let _ ← exec (.updateTaskPositions issueID updates)

def deleteTask (id issueID : Int) : Db Unit := do
  let rows ← exec (.deleteTask id issueID)
  checkRowsAffected rows .taskNotFound

/-! ### History and comments -/

def createHistoryEntry (h : HistoryEntry) : Db HistoryEntry := do
  let created ← ask .currentTimestamp
  let id ← exec (.insertHistory ⟨h.issueID, nullableUserID h.userID, h.event, h.data, created⟩)
  return { h with id }

def createComment (c : Comment) : Db Comment := do
  let createdAt ← ask .now
  let c := { c with createdAt, updatedAt := createdAt }
  let id ← exec (.insertComment
    ⟨c.issueID, nullableUserID c.userID, c.body, false, c.createdAt, c.updatedAt⟩)
  return { c with id }

def getCommentByID (id issueID : Int) : Db Comment := do
  match ← select (.commentByID id issueID) with
  | some comment => pure comment
  | none => throw .commentNotFound

def updateComment (id issueID : Int) (authorID : Option Int) (body : String) : Db Unit := do
  let now ← ask .now
  let rows ← exec (.updateComment id issueID authorID body now)
  checkRowsAffected rows .commentNotFound

def deleteComment (id issueID : Int) (authorID : Option Int) : Db Unit := do
  let rows ← exec (.deleteComment id issueID authorID)
  checkRowsAffected rows .commentNotFound

/-! ### Labels, projects and status configs -/

def createLabel (l : Label) : Db Label := do
  let id ← exec (.insertLabel ⟨l.name, l.color, l.projectID⟩)
  return { l with id }

def deleteLabel (labelID projectID : Int) : Db Unit := do
  let rows ← exec (.deleteLabel labelID projectID)
  checkRowsAffected rows .labelNotFound

def createProject (p : Project) : Db Project := do
  let id ← onDuplicate (exec (.insertProject ⟨p.name, p.description⟩)) .duplicateProjectName
  let _ ← exec (.seedStatusConfig id)
  return { p with id }

def updateProject (p : Project) : Db Unit := do
  let rows ← onDuplicate (exec (.updateProject p.id ⟨p.name, p.description⟩)) .duplicateProjectName
  checkRowsAffected rows .projectNotFound

def deleteProject (id : Int) : Db Unit := do
  let rows ← exec (.deleteProject id)
  checkRowsAffected rows .projectNotFound

def getStatusConfig (projectID : Int) : Db StatusConfig := do
  match ← select (.statusConfig projectID) with
  | some cfg => pure cfg
  | none => pure ⟨projectID, "Pending", "Working", "", ""⟩

def upsertStatusConfig (cfg : StatusConfig) : Db Unit := do
  let _ ← exec (.upsertStatusConfig cfg)

/-! ### Releases -/

def createRelease (r : Release) : Db Release := do
  let createdAt ← ask .now
  let r := { r with status := .open, createdAt, updatedAt := createdAt }
  let id ← onDuplicate (exec (.insertRelease
    { projectID := r.projectID, name := r.name, description := r.description,
      startDate := r.startDate, releaseDate := r.releaseDate, closedAt := none, status := r.status,
      ownerID := r.ownerID, createdAt := r.createdAt, updatedAt := r.updatedAt }))
    .duplicateReleaseName
  return { r with id }

def updateRelease (r : Release) : Db Unit := do
  let updatedAt ← ask .now
  let rows ← onDuplicate (exec (.updateRelease r.id { r with updatedAt })) .duplicateReleaseName
  checkRowsAffected rows .releaseNotFound

def deleteRelease (id : Int) : Db Unit := do
  let rows ← exec (.deleteRelease id)
  checkRowsAffected rows .releaseNotFound

def reopenRelease (id : Int) : Db Unit := do
  let now ← ask .now
  let rows ← exec (.reopenRelease id now)
  checkRowsAffected rows .releaseNotFound

/-- Close a release and then, in a second statement, archive its Done issues. -/
def triggerRelease (id : Int) (archiveDone : Bool) : Db Unit := do
  let now ← ask .now
  let rows ← exec (.closeRelease id now)
  checkRowsAffected rows .releaseNotFound
  if archiveDone then do
    let _ ← exec (.archiveDone id now)

/-! ### Users -/

def createUser (u : User) : Db User := do
  let updatedAt ← ask .now
  let u := { u with updatedAt }
  let id ← onDuplicate (exec (.insertUser
    { email := u.email, firstName := u.firstName, lastName := u.lastName,
      passwordHash := u.passwordHash, role := u.role, active := u.active, updatedAt := u.updatedAt,
      lastLogin := none })) .duplicateEmail
  return { u with id }

/-- The error is only logged. -/
def updateUserLastLogin (userID : Int) : Db Unit := do
  let at_ ← ask .currentTimestamp
  let _ ← exec (.updateUserLastLogin userID at_)

/-- `userWriteErr`: why a guarded user write changed no row. -/
def userWriteErr (rows : Int) (userExists : Db Bool) : Db Unit :=
  if rows = 0 then do
    let found ← userExists
    throw (if found then .lastSysAdmin else .userNotFound)
  else pure ()

def updateUser (u : User) : Db User := do
  let updatedAt ← ask .now
  let u := { u with updatedAt }
  let removesSysAdmin := u.role != .sysadmin || !u.active
  let rows ← onDuplicate (exec (.updateUser u removesSysAdmin)) .duplicateEmail
  userWriteErr rows (select (.userExists u.id))
  return u

/-- The transaction reads the clock between its statements; its two times are read before it here. -/
def deleteUser (id actorID : Int) (userName : String) : Db Int := do
  let created ← ask .currentTimestamp
  let now ← ask .now
  exec (.deleteUser id (nullableUserID (some actorID)) userName now created)

/-! ### Sessions -/

def createSession (s : Session) : Db Session := do
  let id ← exec (.insertSession ⟨s.userID, s.sessionToken, s.tokenHash, s.expiresAt⟩)
  return { s with id }

def updateSession (s : Session) : Db Unit := do
  let rows ← exec (.updateSession s.id s.tokenHash s.expiresAt)
  checkRowsAffected rows .sessionNotFound

def deleteSession (id : Int) : Db Unit := do
  let rows ← exec (.deleteSession id)
  checkRowsAffected rows .sessionNotFound

def deleteSessionsByUserID (userID : Int) : Db Unit := do
  let _ ← exec (.deleteSessionsByUserID userID)

def deleteExpiredSessions : Db Int := do
  let now ← ask .now
  exec (.deleteExpiredSessions now)

end Wuflow

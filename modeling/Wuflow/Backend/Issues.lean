/-
**The issue handlers** (`handlers.go`, `activity.go`).

`handlePutIssue` reads the issue, compares the ETag, checks the references of the body and then writes,
each in a step of its own; a PUT that changes no content writes at most the position
(`persistIssueUpdate`). Archive and unarchive write back the issue they read, move writes it into
another project without label and release.
-/

import Wuflow.Backend.Auth

namespace Wuflow

open Calendar (Instant)

/-! ### History -/

/-- `recordHistory`: best effort, a failed insert is only logged. -/
def recordHistory (issueID userID : Int) (event : HistoryEvent) (data : ChangeData) : Backend Unit := do
  let entry : HistoryEntry :=
    { issueID, userID := if 0 < userID then some userID else none, event, data }
  let _ ← (createHistoryEntry entry).run

def deadlineStr (t : Option DateTime) : String :=
  match t with
  | none => ""
  | some t => String.ofList t.date.text

def assigneeName (i : Issue) : String :=
  match i.assignee with
  | none => ""
  | some user => trimSpace (user.firstName ++ " " ++ user.lastName)

def labelName (i : Issue) : String := (i.label.map (·.name)).getD ""

def releaseName (i : Issue) : String := (i.release.map (·.name)).getD ""

/-- An entry for a field whose two texts differ. -/
def changeOf (field old updated : String) : List ChangeData :=
  if old ≠ updated then [{ field, from_ := old, to_ := updated }] else []

/-- `diffIssueFields`: one entry for each changed field; title and description without their texts. -/
def diffIssueFields (old updated : Issue) : List ChangeData :=
  (if old.title ≠ updated.title then [{ field := "title" }] else []) ++
  (if old.description ≠ updated.description then [{ field := "description" }] else []) ++
  changeOf "status" old.status.text updated.status.text ++
  changeOf "priority" old.priority.text updated.priority.text ++
  changeOf "deadline" (deadlineStr old.deadline) (deadlineStr updated.deadline) ++
  changeOf "assignee" (assigneeName old) (assigneeName updated) ++
  changeOf "label" (labelName old) (labelName updated) ++
  changeOf "release" (releaseName old) (releaseName updated)

/-- One history entry after the other. -/
def recordChanges (issueID userID : Int) : List ChangeData → Backend Unit
  | [] => pure ()
  | change :: changes => do
      recordHistory issueID userID .updated change
      recordChanges issueID userID changes

/-- Record what an edit changed; the issue as it is after the edit, if it can be read. -/
def recordIssueEditHistory (old : Issue) (issueID userID : Int) : Backend (Option Issue) := do
  match ← (getIssueByID issueID).run with
  | .ok (some updated) =>
      recordChanges issueID userID (diffIssueFields old updated)
      return some updated
  | _ => return none

/-! ### The content of an issue -/

/-- Go's `%v` of a `[]string`. -/
def formatDates (dates : List String) : String := "[" ++ String.intercalate " " dates ++ "]"

/-- All fields of an issue that are content, as one text. Position, audit fields, creator, tasks and
comments are left out. -/
@[irreducible] def issueContentHash (i : Issue) : String :=
  String.intercalate "\x00"
    [i.title, i.description, i.status.text, i.priority.text,
     toString ((i.label.map (·.id)).getD 0), toString (i.assigneeID.getD 0),
     ((i.deadline.map fun t => String.ofList (Calendar.rfc3339 t.instant)).getD ""),
     formatDates (i.plannedDates.getD []), toString i.projectID, toString (i.releaseID.getD 0)]

/-! ### Checks -/

/-- A new assignee has to be active; the old one only has to exist. -/
def checkAssignee (i : Issue) (current : Option Issue) : Handler Unit :=
  match i.assigneeID with
  | none => pure ()
  | some assignee =>
      if (current.bind (·.assigneeID)) = some assignee then do
        let found ← orInternal (select (.userExists assignee))
        ensure found (httpError "Assignee no longer exists" 400)
      else do
        let active ← orInternal (select (.userExistsAndActive assignee))
        ensure active (httpError "Invalid or inactive assignee" 400)

/-- The label exists and belongs to the issue's project. -/
def checkLabel (i : Issue) : Handler Unit :=
  match i.label with
  | none => pure ()
  | some label => do
      let found ← orInternal (select (.labelExistsInProject label.id i.projectID))
      ensure found (httpError "Invalid label ID" 400)

/-- The release exists and belongs to the issue's project. -/
def checkRelease (i : Issue) : Handler Unit :=
  match i.releaseID with
  | none => pure ()
  | some release => do
      let found ← orInternal (select (.releaseExistsInProject release i.projectID))
      ensure found (httpError "Invalid release ID" 400)

/-- `strings.TrimPrefix(e, "W/")`. -/
def normalizeETag (etag : String) : String :=
  match etag.toList with
  | 'W' :: '/' :: rest => String.ofList rest
  | _ => etag

/-- The client's version is not the current one. -/
def ifMatchConflict (current : Issue) (ifMatch : String) : Bool :=
  normalizeETag ifMatch != normalizeETag (formatETag current.updatedAt)

def conflict : Response := httpError "Issue has been modified by another user" 409

def checkIfMatchConflict (current : Issue) (ifMatch : String) : Handler Unit :=
  ensure (ifMatch == "" || !ifMatchConflict current ifMatch) conflict

/-! ### Responses -/

def issueNotFound : Response := httpError "Issue not found" 404

/-- The response to a failed issue write. -/
def issueWriteError (err : Err) : Response :=
  if err = .issueNotFound then issueNotFound else internalServerError

def respondWithIssue (issue : Issue) : Response :=
  { status := 200, payload := .issue (some issue), etag := some (formatETag issue.updatedAt) }

/-- Read the issue again and respond with it. Reading a deleted issue gives a nil pointer, and the
handler panics on it. -/
def respondWithUpdatedIssue (id : Int) : Handler Response := do
  match ← orInternal (getIssueByID id) with
  | some updated => return respondWithIssue updated
  | none => throw { status := 0 }

/-- Load an issue of a project. -/
def loadIssue (id projectID : Int) : Handler Issue := do
  let issue ← orInternal (getIssueByIDInProject id projectID)
  orRespond issue issueNotFound

/-! ### Create, read and update -/

def handleCreateIssue (caller : Caller) (body : Body Issue) (projectID : Int) : Handler Response := do
  let i ← decodeAndValidate body validateIssue
  let i := { i with projectID, creatorID := caller.userID, updaterID := some caller.userID }
  checkAssignee i none
  checkLabel i
  checkRelease i
  let i ← orInternal (createIssue i)
  let created ← orInternal (getIssueByID i.id)
  recordHistory i.id i.creatorID .created {}
  return { status := 201, payload := .issue created }

def handleGetIssue (projectID id : Int) : Handler Response := do
  let issue ← loadIssue id projectID
  return respondWithIssue issue

/-- Write the position only, or the whole issue with a new timestamp, or nothing. -/
def persistIssueUpdate (i current : Issue) : Handler Unit :=
  if issueContentHash i = issueContentHash current then
    if i.position ≠ current.position then orFail (updateIssuePosition i.id i.position) issueWriteError
    else pure ()
  else do
    let _ ← orFail (updateIssue i) issueWriteError

/-- The issue a PUT builds from its body: creator, project, id and updater are not the client's. -/
def putBody (caller : Caller) (projectID id : Int) (current i : Issue) : Issue :=
  { i with id, projectID, creatorID := current.creatorID, updaterID := some caller.userID }

def handlePutIssue (caller : Caller) (ifMatch : String) (body : Body Issue) (projectID id : Int) :
    Handler Response := do
  let current ← loadIssue id projectID
  checkIfMatchConflict current ifMatch
  let i ← decodeAndValidate body validateIssue
  let i := putBody caller projectID id current i
  checkAssignee i (some current)
  checkLabel i
  checkRelease i
  ensure (current.status != .archive) (httpError "Archived issues are read-only" 403)
  ensure (i.status != .archive)
    (httpError "Use POST /api/projects/{pId}/issues/{id}/archive to archive an issue" 400)
  persistIssueUpdate i current
  match ← (recordIssueEditHistory current id caller.userID : Backend _) with
  | some updated => return respondWithIssue updated
  | none => respondWithUpdatedIssue id

def handlePutIssuePositions (body : Body (List PositionUpdate)) (projectID : Int) :
    Handler Response := do
  let updates ← decodeAndValidate body validatePositionUpdates
  orFail (updateIssuePositions projectID updates) issueWriteError
  return { status := 204 }

/-! ### Archive and unarchive -/

structure ArchiveToggleOpts where
  valid : IssueStatus → Bool
  newStatus : IssueStatus
  badMsg : String
  event : HistoryEvent

def handleIssueArchiveToggle (caller : Caller) (projectID id : Int) (opts : ArchiveToggleOpts) :
    Handler Response := do
  let current ← loadIssue id projectID
  ensure (opts.valid current.status) (httpError opts.badMsg 400)
  let _ ← orInternal (updateIssue { current with status := opts.newStatus })
  recordHistory id caller.userID opts.event {}
  respondWithUpdatedIssue id

def archiveOpts : ArchiveToggleOpts :=
  { valid := fun s => s != .archive, newStatus := .archive, badMsg := "Issue is already archived",
    event := .archived }

def unarchiveOpts : ArchiveToggleOpts :=
  { valid := fun s => s == .archive, newStatus := .done, badMsg := "Issue is not archived",
    event := .unarchived }

def handleArchiveIssue (caller : Caller) (projectID id : Int) : Handler Response :=
  handleIssueArchiveToggle caller projectID id archiveOpts

def handleUnarchiveIssue (caller : Caller) (projectID id : Int) : Handler Response :=
  handleIssueArchiveToggle caller projectID id unarchiveOpts

/-! ### Password confirmation -/

structure AdminPasswordRequest where
  adminPassword : String := ""

def verifyAdminPasswordOrRespond (host : Host) (caller : Caller) (password : String) :
    Handler Unit := do
  match ← (verifyAdminPassword host caller.email password : Backend _) with
  | .ok () => pure ()
  | .error .checkDB => throw internalServerError
  | .error .required => throw (httpError "admin password confirmation required" 400)

/-- A missing body is an empty password. -/
def requireAdminPassword (host : Host) (caller : Caller) (body : Body AdminPasswordRequest) :
    Handler Unit :=
  match body with
  | .malformed => throw (httpError "Invalid request body" 400)
  | .empty => verifyAdminPasswordOrRespond host caller ""
  | .json req => verifyAdminPasswordOrRespond host caller req.adminPassword

/-! ### Move and delete -/

structure MoveIssueRequest where
  newProjectID : Int := 0
  adminPassword : String := ""

def validateMoveIssue (projectID : Int) (req : MoveIssueRequest) : Except String MoveIssueRequest := do
  check (0 < req.newProjectID) "new_project_id must be a positive integer"
  check (req.newProjectID != projectID) "new_project_id must differ from the current project"
  return req

/-- The issue as a move writes it. -/
def movedIssue (caller : Caller) (newProjectID : Int) (current : Issue) : Issue :=
  { current with
    projectID := newProjectID, label := none, releaseID := none, release := none, status := .open,
    updaterID := some caller.userID }

def handleMoveIssue (host : Host) (caller : Caller) (body : Body MoveIssueRequest)
    (projectID id : Int) : Handler Response := do
  let current ← loadIssue id projectID
  ensure (current.status != .archive) (httpError "Archived issues cannot be moved" 403)
  let req ← decodeAndValidate body (validateMoveIssue projectID)
  verifyAdminPasswordOrRespond host caller req.adminPassword
  let newProject ← orInternal (select (.projectByID req.newProjectID))
  let newProject ← orRespond newProject (httpError "target project not found" 400)
  let moved ← orInternal (updateIssue (movedIssue caller req.newProjectID current))
  recordHistory id caller.userID .moved
    { field := "project", from_ := (current.project.map (·.name)).getD "", to_ := newProject.name }
  return respondWithIssue { moved with project := some newProject }

def handleDeleteIssue (host : Host) (caller : Caller) (body : Body AdminPasswordRequest)
    (projectID id : Int) : Handler Response := do
  let issue ← loadIssue id projectID
  ensure (issue.status != .archive) (httpError "Archived issues cannot be deleted" 403)
  requireAdminPassword host caller body
  orFail (deleteIssue id) issueWriteError
  return { status := 204 }

end Wuflow

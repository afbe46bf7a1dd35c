/-
**Permissions and routes** (`permissions.go`, `buildAPIMux`).

A route wrapper checks the role first, then the project, then the resource id, and for the routes below
an issue it loads that issue. `serve` is the program of a request as it is after authentication: the
claims of the access token and the path variables as `strconv.Atoi` reads them. The listing endpoints
only read and are left out.
-/

import Wuflow.Backend.Accounts
import Wuflow.Backend.Activity
import Wuflow.Backend.Projects

namespace Wuflow

/-! ### Permissions -/

inductive Action
  | getIssue | createIssue | updateIssue | deleteIssue | archiveIssue | unarchiveIssue | moveIssue
  | createTask | updateTask | deleteTask
  | createComment | updateComment | deleteComment
  | createLabel | deleteLabel
  | getUser | createUser | updateUser | deleteUser
  | createProject | updateProject | deleteProject
  | getStatusConfig | updateStatusConfig
  | getRelease | createRelease | updateRelease | deleteRelease | triggerRelease
  deriving DecidableEq

/-- `rolePermissions`. -/
def rolePermissions : Action → List UserRole
  | .getIssue | .createIssue | .updateIssue
  | .createTask | .updateTask | .deleteTask
  | .createComment | .updateComment | .deleteComment
  | .getUser | .getStatusConfig | .getRelease => [.sysadmin, .admin, .user]
  | .deleteIssue | .archiveIssue | .unarchiveIssue | .moveIssue
  | .createLabel | .deleteLabel | .updateStatusConfig
  | .createRelease | .updateRelease | .deleteRelease | .triggerRelease => [.sysadmin, .admin]
  | .createUser | .updateUser | .deleteUser
  | .createProject | .updateProject | .deleteProject => [.sysadmin]

/-- `Can`. -/
def can (role : UserRole) (action : Action) : Bool := (rolePermissions action).contains role

/-! ### Route wrappers -/

/-- `checkProjectAccess`: the project id of the path names a project. -/
def checkProjectAccess (pId : Option Int) : Handler Int := do
  let projectID ← orRespond (pId.filter (0 < ·)) (httpError "Invalid project ID" 400)
  let found ← orInternal (select (.projectExists projectID))
  ensure found (httpError "Project not found" 404)
  return projectID

/-- `resourceIDFromPath`. -/
def resourceIDFromPath (id : Option Int) : Handler Int :=
  orRespond (id.filter (0 < ·)) (httpError "Invalid ID" 400)

def withRole (caller : Caller) (action : Action) (h : Handler Response) : Handler Response := do
  ensure (can caller.role action) (httpError "Forbidden" 403)
  h

def withResource (caller : Caller) (action : Action) (id : Option Int) (h : Int → Handler Response) :
    Handler Response :=
  withRole caller action do
    let id ← resourceIDFromPath id
    h id

def withProject (caller : Caller) (action : Action) (pId : Option Int)
    (h : Int → Handler Response) : Handler Response :=
  withRole caller action do
    let projectID ← checkProjectAccess pId
    h projectID

def withProjectResource (caller : Caller) (action : Action) (pId id : Option Int)
    (h : Int → Int → Handler Response) : Handler Response :=
  withProject caller action pId fun projectID => do
    let id ← resourceIDFromPath id
    h projectID id

/-- The routes below an issue get the issue, loaded within the project of the path. -/
def withIssue (caller : Caller) (action : Action) (pId iId : Option Int)
    (h : Int → Issue → Handler Response) : Handler Response :=
  withProject caller action pId fun projectID => do
    let issueID ← resourceIDFromPath iId
    let issue ← loadIssue issueID projectID
    h issueID issue

def withIssueResource (caller : Caller) (action : Action) (pId iId id : Option Int)
    (h : Int → Int → Issue → Handler Response) : Handler Response :=
  withIssue caller action pId iId fun issueID issue => do
    let id ← resourceIDFromPath id
    h issueID id issue

/-! ### Requests -/

inductive Request
  | createIssue (caller : Caller) (pId : Option Int) (body : Body Issue)
  | getIssue (caller : Caller) (pId id : Option Int)
  | putIssue (caller : Caller) (pId id : Option Int) (ifMatch : String) (body : Body Issue)
  | putIssuePositions (caller : Caller) (pId : Option Int) (body : Body (List PositionUpdate))
  | archiveIssue (caller : Caller) (pId id : Option Int)
  | unarchiveIssue (caller : Caller) (pId id : Option Int)
  | moveIssue (caller : Caller) (pId id : Option Int) (body : Body MoveIssueRequest)
  | deleteIssue (caller : Caller) (pId id : Option Int) (body : Body AdminPasswordRequest)
  | createTask (caller : Caller) (pId iId : Option Int) (body : Body Task)
  | putTask (caller : Caller) (pId iId id : Option Int) (body : Body Task)
  | putTaskPositions (caller : Caller) (pId iId : Option Int) (body : Body (List PositionUpdate))
  | deleteTask (caller : Caller) (pId iId id : Option Int)
  | createComment (caller : Caller) (pId iId : Option Int) (body : Body Comment)
  | putComment (caller : Caller) (pId iId id : Option Int) (body : Body Comment)
  | deleteComment (caller : Caller) (pId iId id : Option Int)
  | createLabel (caller : Caller) (pId : Option Int) (body : Body Label)
  | deleteLabel (caller : Caller) (pId id : Option Int) (body : Body AdminPasswordRequest)
  | getStatusConfig (caller : Caller) (pId : Option Int)
  | updateStatusConfig (caller : Caller) (pId : Option Int) (body : Body StatusConfig)
  | createProject (caller : Caller) (body : Body Project)
  | updateProject (caller : Caller) (pId : Option Int) (body : Body Project)
  | deleteProject (caller : Caller) (pId : Option Int) (body : Body AdminPasswordRequest)
  | createRelease (caller : Caller) (pId : Option Int) (body : Body Release)
  | getRelease (caller : Caller) (pId id : Option Int)
  | putRelease (caller : Caller) (pId id : Option Int) (body : Body Release)
  | deleteRelease (caller : Caller) (pId id : Option Int) (body : Body AdminPasswordRequest)
  | triggerRelease (caller : Caller) (pId id : Option Int) (body : Body TriggerRequest)
  | reopenRelease (caller : Caller) (pId id : Option Int)
  | getUser (caller : Caller) (id : Option Int)
  | createUser (caller : Caller) (body : Body UserRequest)
  | updateUser (caller : Caller) (id : Option Int) (body : Body UserRequest)
  | deleteUser (caller : Caller) (id : Option Int) (body : Body AdminPasswordRequest)
  | updateSelf (caller : Caller) (body : Body UserRequest)
  | login (ip : String) (body : Body LoginRequest)
  | logout (cookie : Option (List UInt8))
  | refresh (ip : String) (cookie : Option (List UInt8))
  | pageLoad (cookie : Option (List UInt8))
  | cleanUpSessions
  | ensureInitialAdmin (email password : String)

/-- The handler of a request, behind its route wrapper. The last two are steps of the server's start
(`bootstrapDatabase`), which answer nobody. -/
def handler (host : Host) : Request → Handler Response
  | .createIssue caller pId body =>
      withProject caller .createIssue pId (handleCreateIssue caller body)
  | .getIssue caller pId id => withProjectResource caller .getIssue pId id handleGetIssue
  | .putIssue caller pId id ifMatch body =>
      withProjectResource caller .updateIssue pId id (handlePutIssue caller ifMatch body)
  | .putIssuePositions caller pId body =>
      withProject caller .updateIssue pId (handlePutIssuePositions body)
  | .archiveIssue caller pId id =>
      withProjectResource caller .archiveIssue pId id (handleArchiveIssue caller)
  | .unarchiveIssue caller pId id =>
      withProjectResource caller .unarchiveIssue pId id (handleUnarchiveIssue caller)
  | .moveIssue caller pId id body =>
      withProjectResource caller .moveIssue pId id (handleMoveIssue host caller body)
  | .deleteIssue caller pId id body =>
      withProjectResource caller .deleteIssue pId id (handleDeleteIssue host caller body)
  | .createTask caller pId iId body =>
      withIssue caller .createTask pId iId (handleCreateTask caller body)
  | .putTask caller pId iId id body =>
      withIssueResource caller .updateTask pId iId id (handlePutTask caller body)
  | .putTaskPositions caller pId iId body =>
      withIssue caller .updateTask pId iId (handlePutTaskPositions body)
  | .deleteTask caller pId iId id =>
      withIssueResource caller .deleteTask pId iId id (handleDeleteTask caller)
  | .createComment caller pId iId body =>
      withIssue caller .createComment pId iId (handleCreateComment caller body)
  | .putComment caller pId iId id body =>
      withIssueResource caller .updateComment pId iId id (handlePutComment caller body)
  | .deleteComment caller pId iId id =>
      withIssueResource caller .deleteComment pId iId id (handleDeleteComment caller)
  | .createLabel caller pId body => withProject caller .createLabel pId (handleCreateLabel body)
  | .deleteLabel caller pId id body =>
      withProjectResource caller .deleteLabel pId id (handleDeleteLabel host caller body)
  | .getStatusConfig caller pId => withProject caller .getStatusConfig pId handleGetStatusConfig
  | .updateStatusConfig caller pId body =>
      withProject caller .updateStatusConfig pId (handleUpdateStatusConfig body)
  | .createProject caller body => withRole caller .createProject (handleCreateProject host body)
  | .updateProject caller pId body =>
      withProject caller .updateProject pId (handleUpdateProject host body)
  | .deleteProject caller pId body =>
      withProject caller .deleteProject pId (handleDeleteProject host caller body)
  | .createRelease caller pId body => withProject caller .createRelease pId (handleCreateRelease body)
  | .getRelease caller pId id => withProjectResource caller .getRelease pId id handleGetRelease
  | .putRelease caller pId id body =>
      withProjectResource caller .updateRelease pId id (handlePutRelease body)
  | .deleteRelease caller pId id body =>
      withProjectResource caller .deleteRelease pId id (handleDeleteRelease host caller body)
  | .triggerRelease caller pId id body =>
      withProjectResource caller .triggerRelease pId id (handleTriggerRelease body)
  | .reopenRelease caller pId id =>
      withProjectResource caller .triggerRelease pId id handleReopenRelease
  | .getUser caller id => withResource caller .getUser id handleGetUser
  | .createUser caller body => withRole caller .createUser (handleCreateUser host body)
  | .updateUser caller id body => withResource caller .updateUser id (handleUpdateUser host caller body)
  | .deleteUser caller id body => withResource caller .deleteUser id (handleDeleteUser host caller body)
  | .updateSelf caller body => handleUpdateSelf host caller body
  | .login ip body => handleLogin host ip body
  | .logout cookie => handleLogout cookie
  | .refresh ip cookie => handleRefresh host ip cookie
  | .pageLoad cookie => handlePageLoad host cookie
  | .cleanUpSessions => do
      let _ ← (deleteExpiredSessions.run : Backend _)
      return { status := 0 }
  | .ensureInitialAdmin email password => do
      let _ ← (ensureInitialAdmin host email password : Backend _)
      return { status := 0 }

/-- **The program of a request.** -/
def serve (host : Host) (req : Request) : Backend Response := (handler host req).respond

end Wuflow

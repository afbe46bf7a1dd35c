/-
**Projects, labels, status configs and releases** (`handlers.go`).
-/

import Wuflow.Backend.Issues

namespace Wuflow

/-! ### Labels -/

def handleCreateLabel (body : Body Label) (projectID : Int) : Handler Response := do
  let l ← decodeAndValidate body validateLabel
  let l ← orInternal (createLabel { l with projectID })
  return { status := 201, payload := .label l }

def labelWriteError (err : Err) : Response :=
  if err = .labelNotFound then httpError "Label not found" 404 else internalServerError

def handleDeleteLabel (host : Host) (caller : Caller) (body : Body AdminPasswordRequest)
    (projectID labelID : Int) : Handler Response := do
  requireAdminPassword host caller body
  orFail (deleteLabel labelID projectID) labelWriteError
  return { status := 204 }

/-! ### Status configs -/

def handleGetStatusConfig (projectID : Int) : Handler Response := do
  let cfg ← orInternal (getStatusConfig projectID)
  return { status := 200, payload := .statusConfig cfg }

def handleUpdateStatusConfig (body : Body StatusConfig) (projectID : Int) : Handler Response := do
  let cfg ← decodeAndValidate body validateStatusConfig
  let cfg := { cfg with projectID }
  orInternal (upsertStatusConfig cfg)
  return { status := 200, payload := .statusConfig cfg }

/-! ### Projects -/

/-- The response to a failed project write. -/
def projectWriteError (err : Err) : Response :=
  match err with
  | .projectNotFound => httpError "Project not found" 404
  | .duplicateProjectName => httpError "Project name already exists" 409
  | _ => internalServerError

def handleCreateProject (host : Host) (body : Body Project) : Handler Response := do
  let p ← decodeAndValidate body (validateProject host)
  let p ← orFail (createProject p) fun err =>
    if err = .duplicateProjectName then projectWriteError err else internalServerError
  return { status := 201, payload := .project p }

def handleUpdateProject (host : Host) (body : Body Project) (id : Int) : Handler Response := do
  let p ← decodeAndValidate body (validateProject host)
  let p := { p with id }
  orFail (updateProject p) projectWriteError
  return { status := 200, payload := .project p }

def handleDeleteProject (host : Host) (caller : Caller) (body : Body AdminPasswordRequest)
    (id : Int) : Handler Response := do
  ensure (id != 1) (httpError "Cannot delete or rename the default project" 400)
  requireAdminPassword host caller body
  let count ← orInternal (select (.countIssuesByProject id))
  ensure (count ≤ 0) (httpError "Cannot delete project with assigned issues" 400)
  orFail (deleteProject id) fun err =>
    if err = .projectNotFound then projectWriteError err else internalServerError
  return { status := 200, payload := .text "Project deleted" }

/-! ### Releases -/

def releaseNotFound : Response := httpError "Release not found" 404

/-- The response to a failed release write. -/
def releaseWriteError (err : Err) : Response :=
  match err with
  | .releaseNotFound => releaseNotFound
  | .duplicateReleaseName => httpError "Release name already exists in this project" 409
  | _ => internalServerError

/-- Load a release of a project. -/
def loadRelease (id projectID : Int) : Handler Release := do
  let release ← orInternal (select (.releaseByIDInProject id projectID))
  orRespond release releaseNotFound

/-- Read a release again after a write and respond with it. -/
def respondWithUpdatedRelease (id : Int) : Handler Response := do
  let release ← orInternal (select (.releaseByID id))
  let release ← orRespond release internalServerError
  return { status := 200, payload := .release release }

def handleCreateRelease (body : Body Release) (projectID : Int) : Handler Response := do
  let r ← decodeAndValidate body validateRelease
  let r ← orFail (createRelease { r with projectID }) fun err =>
    if err = .duplicateReleaseName then releaseWriteError err else internalServerError
  return { status := 201, payload := .release r }

def handleGetRelease (projectID id : Int) : Handler Response := do
  let release ← loadRelease id projectID
  return { status := 200, payload := .release release }

def handlePutRelease (body : Body Release) (projectID id : Int) : Handler Response := do
  let r ← decodeAndValidate body validateRelease
  let r := { r with id, projectID }
  let current ← loadRelease id projectID
  ensure (current.status != .closed) (httpError "Closed releases are read-only" 403)
  orFail (updateRelease r) releaseWriteError
  respondWithUpdatedRelease id

/-- The response to a failed release write that cannot duplicate a name. -/
def releaseStateError (err : Err) : Response :=
  if err = .releaseNotFound then releaseNotFound else internalServerError

def handleDeleteRelease (host : Host) (caller : Caller) (body : Body AdminPasswordRequest)
    (projectID id : Int) : Handler Response := do
  let _ ← loadRelease id projectID
  requireAdminPassword host caller body
  orFail (deleteRelease id) releaseStateError
  return { status := 204 }

structure TriggerRequest where
  archiveDone : Bool := false

def handleTriggerRelease (body : Body TriggerRequest) (projectID id : Int) : Handler Response := do
  let req ← decodeAndValidate body .ok
  let _ ← loadRelease id projectID
  orFail (triggerRelease id req.archiveDone) releaseStateError
  respondWithUpdatedRelease id

def handleReopenRelease (projectID id : Int) : Handler Response := do
  let _ ← loadRelease id projectID
  orFail (reopenRelease id) releaseStateError
  respondWithUpdatedRelease id

end Wuflow

/-
**Tasks and comments of an issue** (`handlers.go`, `activity.go`).

The handlers get the issue that the route wrapper has loaded; nothing is written for an archived one.
-/

import Wuflow.Backend.Issues

namespace Wuflow

open Calendar (Instant)

/-- The response to a failed task write. -/
def taskWriteError (err : Err) : Response :=
  if err = .taskNotFound then httpError "Task not found" 404 else internalServerError

/-- The response to a failed comment write. -/
def commentWriteError (err : Err) : Response :=
  if err = .commentNotFound then httpError "Comment not found" 404 else internalServerError

/-- Nothing is written for an archived issue. -/
def ensureNotArchived (issue : Issue) (message : String) : Handler Unit :=
  ensure (issue.status != .archive) (httpError message 403)

/-! ### Tasks -/

def findIssueTask (issue : Issue) (id : Int) : Option Task :=
  issue.tasks.find? fun task => task.id == id

/-- The history entry of a task update; an empty field means that there is nothing to record. -/
def taskUpdateChange (old : Option Task) (updated : Task) : ChangeData :=
  match old with
  | none => {}
  | some old =>
      if old.done ≠ updated.done then
        if updated.done then
          { field := "task_completed", detail := "Task: Completed '" ++ updated.title ++ "'" }
        else { field := "task_reopened", detail := "Task: Reopened '" ++ updated.title ++ "'" }
      else if old.title ≠ updated.title then
        { field := "task_renamed", detail := "Task: Renamed " ++ old.title ++ " → " ++ updated.title }
      else {}

def handleCreateTask (caller : Caller) (body : Body Task) (issueID : Int) (issue : Issue) :
    Handler Response := do
  let t ← decodeAndValidate body validateTask
  let t := { t with issueID }
  ensureNotArchived issue "Cannot add tasks to archived issues"
  let t ← orInternal (createTask t)
  recordHistory issueID caller.userID .task
    { field := "task_added", detail := "Task: Added '" ++ t.title ++ "'" }
  return { status := 201, payload := .task t }

def handlePutTask (caller : Caller) (body : Body Task) (issueID id : Int) (issue : Issue) :
    Handler Response := do
  let t ← decodeAndValidate body validateTask
  ensureNotArchived issue "Tasks of archived issues are read-only"
  let t := { t with id, issueID }
  let t ← orFail (updateTask t issueID) taskWriteError
  let change := taskUpdateChange (findIssueTask issue id) t
  if change.field ≠ "" then recordHistory issueID caller.userID .task change
  return { status := 200, payload := .task t }

def handlePutTaskPositions (body : Body (List PositionUpdate)) (issueID : Int) (issue : Issue) :
    Handler Response := do
  let updates ← decodeAndValidate body validatePositionUpdates
  ensureNotArchived issue "Tasks of archived issues are read-only"
  orFail (updateTaskPositions issueID updates) taskWriteError
  return { status := 204 }

def handleDeleteTask (caller : Caller) (issueID id : Int) (issue : Issue) : Handler Response := do
  ensureNotArchived issue "Tasks of archived issues cannot be deleted"
  let deleted := findIssueTask issue id
  orFail (deleteTask id issueID) taskWriteError
  let title := (deleted.map fun task => "'" ++ task.title ++ "'").getD "a task"
  recordHistory issueID caller.userID .task
    { field := "task_deleted", detail := "Task: Deleted " ++ title }
  return { status := 204 }

/-! ### Comments -/

def isCommentModerator (role : UserRole) : Bool := role == .admin || role == .sysadmin

/-- Moderators may act on any comment, others on their own. -/
def commentAuthorFilter (caller : Caller) : Option Int :=
  if isCommentModerator caller.role then none else some caller.userID

def handleCreateComment (caller : Caller) (body : Body Comment) (issueID : Int) (issue : Issue) :
    Handler Response := do
  let c ← decodeAndValidate body validateComment
  ensureNotArchived issue "Cannot comment on archived issues"
  let c ← orInternal (createComment { c with issueID, userID := some caller.userID })
  match ← ((select (.userByID caller.userID)).run : Backend _) with
  | .ok (some user) => return { status := 201, payload := .comment { c with user := some user } }
  | _ => return { status := 201, payload := .comment c }

def handlePutComment (caller : Caller) (body : Body Comment) (issueID id : Int) (issue : Issue) :
    Handler Response := do
  let c ← decodeAndValidate body validateComment
  ensureNotArchived issue "Comments of archived issues are read-only"
  orFail (updateComment id issueID (commentAuthorFilter caller) c.body) commentWriteError
  let updated ← orInternal (getCommentByID id issueID)
  return { status := 200, payload := .comment updated }

def handleDeleteComment (caller : Caller) (issueID id : Int) (issue : Issue) : Handler Response := do
  ensureNotArchived issue "Comments of archived issues cannot be deleted"
  orFail (deleteComment id issueID (commentAuthorFilter caller)) commentWriteError
  return { status := 204 }

end Wuflow

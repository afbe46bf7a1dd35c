/-
**Requests that only read or write what no other request relies on.**

A query is *loud* if it is a write that another request's argument depends on: it stamps an issue with
a new version (insert, update, archive, the unassignment of a user delete), creates or rotates a
session, or writes back a user row. Every other query is `Quiet`. For each function that asks quiet
queries only there is one lemma, whatever the property at hand; the loud ones are treated one by one
(`Requests.Discipline`).
-/

import Wuflow.Backend.Server
import Wuflow.Interleave.Stopping

namespace Wuflow

open Interleave (Prog)
open Interleave.Stopping (Asks)

/-- The query is no loud write. -/
def Query.Quiet : Query → Prop
  | .write (.insertIssue _) | .write (.updateIssue _ _) | .write (.archiveDone _ _)
  | .write (.deleteUser _ _ _ _ _) | .write (.insertSession _) | .write (.updateSession _ _ _)
  | .write (.updateUser _ _) => False
  | _ => True

/-- The query is no write. -/
def Query.Reading : Query → Prop
  | .write _ => False
  | _ => True

theorem Query.Reading.ne_write {query : Query} (reading : query.Reading) (w : Write) :
    query ≠ .write w := by
  rintro rfl
  exact reading

/-! ### Single steps -/

section Steps

variable {allowed : Query → Prop}

theorem ask_asks {query : Query} (here : allowed query) : (ask query).Asks allowed :=
  Prog.Asks.call here

theorem select_asks {q : Select} (here : allowed (.read q)) : Asks allowed (select q) :=
  Asks.mk (ask_asks here)

theorem exec_asks {w : Write} (here : allowed (.write w)) : Asks allowed (exec w) :=
  Asks.mk (ask_asks here)

theorem checkRowsAffected_asks (rows : Int) (notFound : Err) :
    Asks allowed (checkRowsAffected rows notFound) := Asks.ite (Asks.throw _) (Asks.pure _)

theorem onDuplicate_asks {α : Type} {p : Db α} (asks : Asks allowed p) (duplicate : Err) :
    Asks allowed (onDuplicate p duplicate) := Asks.adapt asks _

theorem ensure_asks (holds : Bool) (otherwise : Response) : Asks allowed (ensure holds otherwise) :=
  Asks.ite (Asks.pure _) (Asks.throw _)

theorem orRespond_asks {α : Type} (value : Option α) (otherwise : Response) :
    Asks allowed (orRespond value otherwise) := by
  cases value with
  | some value => exact Asks.pure _
  | none => exact Asks.throw _

theorem orFail_asks {α : Type} {p : Db α} (asks : Asks allowed p) (respond : Err → Response) :
    Asks allowed (orFail p respond) := by
  refine Asks.bind (Asks.lift asks) fun result => ?_
  cases result with
  | ok value => exact Asks.pure _
  | error err => exact Asks.throw _

theorem orInternal_asks {α : Type} {p : Db α} (asks : Asks allowed p) : Asks allowed (orInternal p) :=
  orFail_asks asks _

theorem decodeAndValidate_asks {β : Type} (body : Body β) (validate : β → Except String β) :
    Asks allowed (decodeAndValidate body validate) := by
  unfold decodeAndValidate
  split
  · split
    · exact Asks.pure _
    · exact Asks.throw _
  · exact Asks.throw _

/-- What follows a body is asked with the validated value only. -/
theorem decode_asks {β γ : Type} {sent : β} {validate : β → Except String β} {f : β → Handler γ}
    (rest : ∀ value, validate sent = .ok value → Asks allowed (f value)) :
    Asks allowed (decodeAndValidate (.json sent) validate >>= f) := by
  cases valid : validate sent with
  | ok value =>
      have decoded : decodeAndValidate (.json sent) validate = pure value := by
        simp only [decodeAndValidate, valid]
      rw [decoded]
      exact rest value valid
  | error message =>
      have decoded : decodeAndValidate (.json sent) validate = throw (httpError message 400) := by
        simp only [decodeAndValidate, valid]
      rw [decoded]
      exact Asks.throw _

theorem Handler.respond_asks {h : Handler Response} (asks : Asks allowed h) :
    (Handler.respond h).Asks allowed := by
  refine Prog.Asks.bind asks fun result => ?_
  split <;> trivial

end Steps

/-! ### Reads -/

section Reads

variable {allowed : Query → Prop} (reads : ∀ q, allowed (.read q))

include reads

theorem attachTasks_asks (issue : Option Issue) : Asks allowed (attachTasks issue) := by
  cases issue with
  | none => exact Asks.pure _
  | some issue => exact Asks.bind (select_asks (reads _)) fun _ => Asks.pure _

theorem getIssueByID_asks (id : Int) : Asks allowed (getIssueByID id) :=
  Asks.bind (select_asks (reads _)) fun _ => attachTasks_asks reads _

theorem getIssueByIDInProject_asks (id projectID : Int) :
    Asks allowed (getIssueByIDInProject id projectID) :=
  Asks.bind (select_asks (reads _)) fun _ => attachTasks_asks reads _

theorem getCommentByID_asks (id issueID : Int) : Asks allowed (getCommentByID id issueID) := by
  refine Asks.bind (select_asks (reads _)) fun comment => ?_
  cases comment with
  | some comment => exact Asks.pure _
  | none => exact Asks.throw _

theorem getStatusConfig_asks (projectID : Int) : Asks allowed (getStatusConfig projectID) := by
  refine Asks.bind (select_asks (reads _)) fun cfg => ?_
  cases cfg with
  | some cfg => exact Asks.pure _
  | none => exact Asks.pure _

theorem loadIssue_asks (id projectID : Int) : Asks allowed (loadIssue id projectID) :=
  Asks.bind (orInternal_asks (getIssueByIDInProject_asks reads id projectID)) fun _ =>
    orRespond_asks _ _

theorem respondWithUpdatedIssue_asks (id : Int) : Asks allowed (respondWithUpdatedIssue id) := by
  refine Asks.bind (orInternal_asks (getIssueByID_asks reads id)) fun updated => ?_
  cases updated with
  | some updated => exact Asks.pure _
  | none => exact Asks.throw _

theorem checkAssignee_asks (i : Issue) (current : Option Issue) :
    Asks allowed (checkAssignee i current) := by
  unfold checkAssignee
  split
  · exact Asks.pure _
  · exact Asks.ite (Asks.bind (orInternal_asks (select_asks (reads _))) fun _ => ensure_asks _ _)
      (Asks.bind (orInternal_asks (select_asks (reads _))) fun _ => ensure_asks _ _)

theorem checkLabel_asks (i : Issue) : Asks allowed (checkLabel i) := by
  unfold checkLabel
  split
  · exact Asks.pure _
  · exact Asks.bind (orInternal_asks (select_asks (reads _))) fun _ => ensure_asks _ _

theorem checkRelease_asks (i : Issue) : Asks allowed (checkRelease i) := by
  unfold checkRelease
  split
  · exact Asks.pure _
  · exact Asks.bind (orInternal_asks (select_asks (reads _))) fun _ => ensure_asks _ _

theorem loadRelease_asks (id projectID : Int) : Asks allowed (loadRelease id projectID) :=
  Asks.bind (orInternal_asks (select_asks (reads _))) fun _ => orRespond_asks _ _

theorem respondWithUpdatedRelease_asks (id : Int) : Asks allowed (respondWithUpdatedRelease id) :=
  Asks.bind (orInternal_asks (select_asks (reads _))) fun _ =>
    Asks.bind (orRespond_asks _ _) fun _ => Asks.pure _

theorem loadUser_asks (id : Int) : Asks allowed (loadUser id) :=
  Asks.bind (orInternal_asks (select_asks (reads _))) fun _ => orRespond_asks _ _

theorem checkProjectAccess_asks (pId : Option Int) : Asks allowed (checkProjectAccess pId) :=
  Asks.bind (orRespond_asks _ _) fun _ => Asks.bind (orInternal_asks (select_asks (reads _))) fun _ =>
    Asks.bind (ensure_asks _ _) fun _ => Asks.pure _

end Reads

section Passwords

variable {allowed : Query → Prop}

theorem verifyAdminPassword_asks (here : ∀ email, allowed (.read (.userByEmail email))) (host : Host)
    (email password : String) : (verifyAdminPassword host email password).Asks allowed := by
  refine Prog.Asks.bind (select_asks (here email)) fun result => ?_
  split
  · split <;> trivial
  · trivial

theorem verifyAdminPasswordOrRespond_asks (here : ∀ email, allowed (.read (.userByEmail email)))
    (host : Host) (caller : Caller) (password : String) :
    Asks allowed (verifyAdminPasswordOrRespond host caller password) := by
  refine Asks.bind (Asks.lift (verifyAdminPassword_asks here host caller.email password)) ?_
  intro result
  split
  · exact Asks.pure _
  · exact Asks.throw _
  · exact Asks.throw _

theorem requireAdminPassword_asks (here : ∀ email, allowed (.read (.userByEmail email)))
    (host : Host) (caller : Caller) (body : Body AdminPasswordRequest) :
    Asks allowed (requireAdminPassword host caller body) := by
  cases body with
  | malformed => exact Asks.throw _
  | empty => exact verifyAdminPasswordOrRespond_asks here _ _ _
  | json req => exact verifyAdminPasswordOrRespond_asks here _ _ _

end Passwords

theorem reading_read (q : Select) : (Query.read q).Reading := trivial

/-- A read is quiet. -/
theorem quiet_read (q : Select) : (Query.read q).Quiet := trivial

theorem Query.Reading.quiet {query : Query} (reading : query.Reading) : query.Quiet := by
  cases query with
  | write w => exact reading.elim
  | _ => exact trivial

/-! ### Database functions -/

/-- A quiet write whose row count is checked. -/
theorem checkedWrite_quiet {w : Write} (quiet : (Query.write w).Quiet) (notFound : Err) :
    Asks Query.Quiet (do
      let rows ← exec w
      checkRowsAffected rows notFound) :=
  Asks.bind (exec_asks quiet) fun _ => checkRowsAffected_asks _ _

/-- The same after a look at the clock. -/
theorem timedWrite_quiet {w : Calendar.Instant → Write} (quiet : ∀ now, (Query.write (w now)).Quiet)
    (notFound : Err) :
    Asks Query.Quiet (do
      let now ← ask .now
      let rows ← exec (w now)
      checkRowsAffected rows notFound : Db Unit) :=
  Asks.bind (Asks.lift (ask_asks trivial)) fun now => checkedWrite_quiet (quiet now) _

theorem updateIssuePosition_quiet (id position : Int) :
    Asks Query.Quiet (updateIssuePosition id position) := checkedWrite_quiet (by exact trivial) _

theorem updateIssuePositions_quiet (projectID : Int) (updates : List PositionUpdate) :
    Asks Query.Quiet (updateIssuePositions projectID updates) :=
  Asks.bind (exec_asks trivial) fun _ => Asks.pure _

theorem deleteIssue_quiet (id : Int) : Asks Query.Quiet (deleteIssue id) :=
  checkedWrite_quiet (by exact trivial) _

theorem createTask_quiet (t : Task) : Asks Query.Quiet (createTask t) := by
  refine Asks.bind (select_asks trivial) fun found => Asks.ite (Asks.throw _) ?_
  refine Asks.bind (select_asks trivial) fun maxPos => Asks.bind (Asks.lift (ask_asks trivial)) ?_
  exact fun updatedAt => Asks.bind (exec_asks trivial) fun _ => Asks.pure _

theorem updateTask_quiet (t : Task) (issueID : Int) : Asks Query.Quiet (updateTask t issueID) := by
  refine Asks.bind (Asks.lift (ask_asks trivial)) fun updatedAt => ?_
  refine Asks.bind (exec_asks trivial) fun rows => ?_
  exact Asks.bind (checkRowsAffected_asks _ _) fun _ => Asks.pure _

theorem updateTaskPositions_quiet (issueID : Int) (updates : List PositionUpdate) :
    Asks Query.Quiet (updateTaskPositions issueID updates) :=
  Asks.bind (exec_asks trivial) fun _ => Asks.pure _

theorem deleteTask_quiet (id issueID : Int) : Asks Query.Quiet (deleteTask id issueID) :=
  checkedWrite_quiet (by exact trivial) _

theorem createHistoryEntry_quiet (h : HistoryEntry) : Asks Query.Quiet (createHistoryEntry h) :=
  Asks.bind (Asks.lift (ask_asks trivial)) fun _ => Asks.bind (exec_asks trivial) fun _ => Asks.pure _

theorem createComment_quiet (c : Comment) : Asks Query.Quiet (createComment c) :=
  Asks.bind (Asks.lift (ask_asks trivial)) fun _ => Asks.bind (exec_asks trivial) fun _ => Asks.pure _

theorem updateComment_quiet (id issueID : Int) (authorID : Option Int) (body : String) :
    Asks Query.Quiet (updateComment id issueID authorID body) := timedWrite_quiet (fun _ => by exact trivial) _

theorem deleteComment_quiet (id issueID : Int) (authorID : Option Int) :
    Asks Query.Quiet (deleteComment id issueID authorID) := checkedWrite_quiet (by exact trivial) _

theorem createLabel_quiet (l : Label) : Asks Query.Quiet (createLabel l) :=
  Asks.bind (exec_asks trivial) fun _ => Asks.pure _

theorem deleteLabel_quiet (labelID projectID : Int) : Asks Query.Quiet (deleteLabel labelID projectID) :=
  checkedWrite_quiet (by exact trivial) _

theorem createProject_quiet (p : Project) : Asks Query.Quiet (createProject p) :=
  Asks.bind (onDuplicate_asks (exec_asks trivial) _) fun _ =>
    Asks.bind (exec_asks trivial) fun _ => Asks.pure _

theorem updateProject_quiet (p : Project) : Asks Query.Quiet (updateProject p) :=
  Asks.bind (onDuplicate_asks (exec_asks trivial) _) fun _ => checkRowsAffected_asks _ _

theorem deleteProject_quiet (id : Int) : Asks Query.Quiet (deleteProject id) :=
  checkedWrite_quiet (by exact trivial) _

theorem upsertStatusConfig_quiet (cfg : StatusConfig) : Asks Query.Quiet (upsertStatusConfig cfg) :=
  Asks.bind (exec_asks trivial) fun _ => Asks.pure _

theorem createRelease_quiet (r : Release) : Asks Query.Quiet (createRelease r) :=
  Asks.bind (Asks.lift (ask_asks trivial)) fun _ =>
    Asks.bind (onDuplicate_asks (exec_asks trivial) _) fun _ => Asks.pure _

theorem updateRelease_quiet (r : Release) : Asks Query.Quiet (updateRelease r) :=
  Asks.bind (Asks.lift (ask_asks trivial)) fun _ =>
    Asks.bind (onDuplicate_asks (exec_asks trivial) _) fun _ => checkRowsAffected_asks _ _

theorem deleteRelease_quiet (id : Int) : Asks Query.Quiet (deleteRelease id) :=
  checkedWrite_quiet (by exact trivial) _

theorem reopenRelease_quiet (id : Int) : Asks Query.Quiet (reopenRelease id) :=
  timedWrite_quiet (fun _ => by exact trivial) _

theorem createUser_asks {allowed : Query → Prop} (clock : allowed .now)
    (inserts : ∀ row, allowed (.write (.insertUser row))) (u : User) : Asks allowed (createUser u) :=
  Asks.bind (Asks.lift (ask_asks clock)) fun _ =>
    Asks.bind (onDuplicate_asks (exec_asks (inserts _)) _) fun _ => Asks.pure _

theorem createUser_quiet (u : User) : Asks Query.Quiet (createUser u) :=
  createUser_asks trivial (fun _ => trivial) u

theorem updateUserLastLogin_quiet (userID : Int) : Asks Query.Quiet (updateUserLastLogin userID) :=
  Asks.bind (Asks.lift (ask_asks trivial)) fun _ => Asks.bind (exec_asks trivial) fun _ => Asks.pure _

theorem deleteSession_quiet (id : Int) : Asks Query.Quiet (deleteSession id) :=
  checkedWrite_quiet (by exact trivial) _

theorem deleteSessionsByUserID_quiet (userID : Int) :
    Asks Query.Quiet (deleteSessionsByUserID userID) :=
  Asks.bind (exec_asks trivial) fun _ => Asks.pure _

theorem deleteExpiredSessions_quiet : Asks Query.Quiet deleteExpiredSessions :=
  Asks.bind (Asks.lift (ask_asks trivial)) fun _ => exec_asks trivial

/-! ### Shared parts of the handlers -/

theorem recordHistory_quiet (issueID userID : Int) (event : HistoryEvent) (data : ChangeData) :
    (recordHistory issueID userID event data).Asks Query.Quiet :=
  Prog.Asks.bind (createHistoryEntry_quiet _) fun _ => trivial

theorem recordChanges_quiet (issueID userID : Int) (changes : List ChangeData) :
    (recordChanges issueID userID changes).Asks Query.Quiet := by
  induction changes with
  | nil => trivial
  | cons change changes ih =>
      exact Prog.Asks.bind (recordHistory_quiet issueID userID .updated change) fun _ => ih

theorem recordIssueEditHistory_quiet (old : Issue) (issueID userID : Int) :
    (recordIssueEditHistory old issueID userID).Asks Query.Quiet := by
  refine Prog.Asks.bind (getIssueByID_asks quiet_read issueID) fun result => ?_
  split
  · exact Prog.Asks.bind (recordChanges_quiet _ _ _) fun _ => trivial
  · trivial

theorem checkIfMatchConflict_quiet (current : Issue) (ifMatch : String) :
    Asks Query.Quiet (checkIfMatchConflict current ifMatch) := ensure_asks _ _

theorem updateUserPassword_asks {allowed : Query → Prop}
    (here : ∀ password, allowed (.hashPassword password)) (host : Host) (user : User)
    (newPassword : String) : (updateUserPassword host user newPassword).Asks allowed := by
  unfold updateUserPassword
  split
  · trivial
  · split
    · trivial
    · refine Prog.Asks.bind (ask_asks (here _)) fun hash => ?_
      cases hash <;> trivial

theorem setPassword_asks {allowed : Query → Prop} (here : ∀ password, allowed (.hashPassword password))
    (host : Host) (user : User) (newPassword : String) :
    Asks allowed (setPassword host user newPassword) := by
  refine Asks.bind (Asks.lift (updateUserPassword_asks here host user newPassword)) fun result => ?_
  cases result with
  | ok user => exact Asks.pure _
  | error err => exact Asks.throw _

/-! ### Quiet handlers -/

theorem handleGetIssue_quiet (projectID id : Int) : Asks Query.Quiet (handleGetIssue projectID id) :=
  Asks.bind (loadIssue_asks quiet_read id projectID) fun _ => Asks.pure _

theorem handlePutIssuePositions_quiet (body : Body (List PositionUpdate)) (projectID : Int) :
    Asks Query.Quiet (handlePutIssuePositions body projectID) :=
  Asks.bind (decodeAndValidate_asks _ _) fun _ =>
    Asks.bind (orFail_asks (updateIssuePositions_quiet _ _) _) fun _ => Asks.pure _

theorem handleDeleteIssue_quiet (host : Host) (caller : Caller) (body : Body AdminPasswordRequest)
    (projectID id : Int) : Asks Query.Quiet (handleDeleteIssue host caller body projectID id) :=
  Asks.bind (loadIssue_asks quiet_read id projectID) fun _ => Asks.bind (ensure_asks _ _) fun _ =>
    Asks.bind (requireAdminPassword_asks (fun _ => quiet_read _) host caller body) fun _ =>
      Asks.bind (orFail_asks (deleteIssue_quiet id) _) fun _ => Asks.pure _

theorem handleCreateTask_quiet (caller : Caller) (body : Body Task) (issueID : Int) (issue : Issue) :
    Asks Query.Quiet (handleCreateTask caller body issueID issue) :=
  Asks.bind (decodeAndValidate_asks _ _) fun _ => Asks.bind (ensure_asks _ _) fun _ =>
    Asks.bind (orInternal_asks (createTask_quiet _)) fun _ =>
      Asks.bind (Asks.lift (recordHistory_quiet _ _ _ _)) fun _ => Asks.pure _

theorem handlePutTask_quiet (caller : Caller) (body : Body Task) (issueID id : Int) (issue : Issue) :
    Asks Query.Quiet (handlePutTask caller body issueID id issue) := by
  refine Asks.bind (decodeAndValidate_asks _ _) fun _ => Asks.bind (ensure_asks _ _) fun _ => ?_
  refine Asks.bind (orFail_asks (updateTask_quiet _ _) _) fun _ => Asks.ite ?_ (Asks.pure _)
  exact Asks.bind (Asks.lift (recordHistory_quiet _ _ _ _)) fun _ => Asks.pure _

theorem handlePutTaskPositions_quiet (body : Body (List PositionUpdate)) (issueID : Int)
    (issue : Issue) : Asks Query.Quiet (handlePutTaskPositions body issueID issue) :=
  Asks.bind (decodeAndValidate_asks _ _) fun _ => Asks.bind (ensure_asks _ _) fun _ =>
    Asks.bind (orFail_asks (updateTaskPositions_quiet _ _) _) fun _ => Asks.pure _

theorem handleDeleteTask_quiet (caller : Caller) (issueID id : Int) (issue : Issue) :
    Asks Query.Quiet (handleDeleteTask caller issueID id issue) :=
  Asks.bind (ensure_asks _ _) fun _ => Asks.bind (orFail_asks (deleteTask_quiet _ _) _) fun _ =>
    Asks.bind (Asks.lift (recordHistory_quiet _ _ _ _)) fun _ => Asks.pure _

theorem handleCreateComment_quiet (caller : Caller) (body : Body Comment) (issueID : Int)
    (issue : Issue) : Asks Query.Quiet (handleCreateComment caller body issueID issue) := by
  refine Asks.bind (decodeAndValidate_asks _ _) fun _ => Asks.bind (ensure_asks _ _) fun _ => ?_
  refine Asks.bind (orInternal_asks (createComment_quiet _)) fun _ => ?_
  refine Asks.bind (Asks.lift (select_asks (by exact trivial))) fun user => ?_
  split <;> exact Asks.pure _

theorem handlePutComment_quiet (caller : Caller) (body : Body Comment) (issueID id : Int)
    (issue : Issue) : Asks Query.Quiet (handlePutComment caller body issueID id issue) :=
  Asks.bind (decodeAndValidate_asks _ _) fun _ => Asks.bind (ensure_asks _ _) fun _ =>
    Asks.bind (orFail_asks (updateComment_quiet _ _ _ _) _) fun _ =>
      Asks.bind (orInternal_asks (getCommentByID_asks quiet_read _ _)) fun _ => Asks.pure _

theorem handleDeleteComment_quiet (caller : Caller) (issueID id : Int) (issue : Issue) :
    Asks Query.Quiet (handleDeleteComment caller issueID id issue) :=
  Asks.bind (ensure_asks _ _) fun _ =>
    Asks.bind (orFail_asks (deleteComment_quiet _ _ _) _) fun _ => Asks.pure _

theorem handleCreateLabel_quiet (body : Body Label) (projectID : Int) :
    Asks Query.Quiet (handleCreateLabel body projectID) :=
  Asks.bind (decodeAndValidate_asks _ _) fun _ =>
    Asks.bind (orInternal_asks (createLabel_quiet _)) fun _ => Asks.pure _

theorem handleDeleteLabel_quiet (host : Host) (caller : Caller) (body : Body AdminPasswordRequest)
    (projectID labelID : Int) :
    Asks Query.Quiet (handleDeleteLabel host caller body projectID labelID) :=
  Asks.bind (requireAdminPassword_asks (fun _ => quiet_read _) host caller body) fun _ =>
    Asks.bind (orFail_asks (deleteLabel_quiet _ _) _) fun _ => Asks.pure _

theorem handleGetStatusConfig_quiet (projectID : Int) :
    Asks Query.Quiet (handleGetStatusConfig projectID) :=
  Asks.bind (orInternal_asks (getStatusConfig_asks quiet_read _)) fun _ => Asks.pure _

theorem handleUpdateStatusConfig_quiet (body : Body StatusConfig) (projectID : Int) :
    Asks Query.Quiet (handleUpdateStatusConfig body projectID) :=
  Asks.bind (decodeAndValidate_asks _ _) fun _ =>
    Asks.bind (orInternal_asks (upsertStatusConfig_quiet _)) fun _ => Asks.pure _

theorem handleCreateProject_quiet (host : Host) (body : Body Project) :
    Asks Query.Quiet (handleCreateProject host body) :=
  Asks.bind (decodeAndValidate_asks _ _) fun _ =>
    Asks.bind (orFail_asks (createProject_quiet _) _) fun _ => Asks.pure _

theorem handleUpdateProject_quiet (host : Host) (body : Body Project) (id : Int) :
    Asks Query.Quiet (handleUpdateProject host body id) :=
  Asks.bind (decodeAndValidate_asks _ _) fun _ =>
    Asks.bind (orFail_asks (updateProject_quiet _) _) fun _ => Asks.pure _

theorem handleDeleteProject_quiet (host : Host) (caller : Caller) (body : Body AdminPasswordRequest)
    (id : Int) : Asks Query.Quiet (handleDeleteProject host caller body id) :=
  Asks.bind (ensure_asks _ _) fun _ =>
    Asks.bind (requireAdminPassword_asks (fun _ => quiet_read _) host caller body) fun _ =>
    Asks.bind (orInternal_asks (select_asks trivial)) fun _ => Asks.bind (ensure_asks _ _) fun _ =>
      Asks.bind (orFail_asks (deleteProject_quiet id) _) fun _ => Asks.pure _

theorem handleCreateRelease_quiet (body : Body Release) (projectID : Int) :
    Asks Query.Quiet (handleCreateRelease body projectID) :=
  Asks.bind (decodeAndValidate_asks _ _) fun _ =>
    Asks.bind (orFail_asks (createRelease_quiet _) _) fun _ => Asks.pure _

theorem handleGetRelease_quiet (projectID id : Int) : Asks Query.Quiet (handleGetRelease projectID id) :=
  Asks.bind (loadRelease_asks quiet_read id projectID) fun _ => Asks.pure _

theorem handlePutRelease_quiet (body : Body Release) (projectID id : Int) :
    Asks Query.Quiet (handlePutRelease body projectID id) :=
  Asks.bind (decodeAndValidate_asks _ _) fun _ => Asks.bind (loadRelease_asks quiet_read id projectID) fun _ =>
    Asks.bind (ensure_asks _ _) fun _ => Asks.bind (orFail_asks (updateRelease_quiet _) _) fun _ =>
      respondWithUpdatedRelease_asks quiet_read id

theorem handleDeleteRelease_quiet (host : Host) (caller : Caller) (body : Body AdminPasswordRequest)
    (projectID id : Int) : Asks Query.Quiet (handleDeleteRelease host caller body projectID id) :=
  Asks.bind (loadRelease_asks quiet_read id projectID) fun _ =>
    Asks.bind (requireAdminPassword_asks (fun _ => quiet_read _) host caller body) fun _ =>
      Asks.bind (orFail_asks (deleteRelease_quiet id) _) fun _ => Asks.pure _

theorem handleReopenRelease_quiet (projectID id : Int) :
    Asks Query.Quiet (handleReopenRelease projectID id) :=
  Asks.bind (loadRelease_asks quiet_read id projectID) fun _ =>
    Asks.bind (orFail_asks (reopenRelease_quiet id) _) fun _ => respondWithUpdatedRelease_asks quiet_read id

theorem handleGetUser_quiet (id : Int) : Asks Query.Quiet (handleGetUser id) :=
  Asks.bind (loadUser_asks quiet_read id) fun _ => Asks.pure _

theorem handleCreateUser_quiet (host : Host) (body : Body UserRequest) :
    Asks Query.Quiet (handleCreateUser host body) :=
  Asks.bind (decodeAndValidate_asks _ _) fun _ => Asks.bind (ensure_asks _ _) fun _ =>
    Asks.bind (setPassword_asks (fun _ => trivial) host _ _) fun _ =>
      Asks.bind (orFail_asks (createUser_quiet _) _) fun _ => Asks.pure _

theorem revokeSessionFromCookie_quiet (cookie : Option (List UInt8)) :
    (revokeSessionFromCookie cookie).Asks Query.Quiet := by
  unfold revokeSessionFromCookie
  split
  · trivial
  · refine Prog.Asks.bind (select_asks (by exact trivial)) fun result => ?_
    split
    · exact Prog.Asks.bind (deleteSession_quiet _) fun _ => trivial
    · trivial

theorem handleLogout_quiet (cookie : Option (List UInt8)) :
    Asks Query.Quiet (handleLogout cookie) :=
  Asks.bind (Asks.lift (revokeSessionFromCookie_quiet cookie)) fun _ => Asks.pure _

/-- The first user is inserted, and nothing else is written. -/
theorem ensureInitialAdmin_asks {allowed : Query → Prop}
    (others : ∀ query, query.Reading → allowed query)
    (inserts : ∀ row, allowed (.write (.insertUser row))) (host : Host) (email password : String) :
    (ensureInitialAdmin host email password).Asks allowed := by
  unfold ensureInitialAdmin
  refine Prog.Asks.bind (select_asks (others _ (by exact trivial))) fun result => ?_
  split
  · trivial
  · split
    · trivial
    · split
      · trivial
      · split
        · trivial
        · split
          · trivial
          · refine Prog.Asks.bind (ask_asks (others _ (by exact trivial))) fun hash => ?_
            split
            · trivial
            · refine Prog.Asks.bind (createUser_asks (others _ (by exact trivial)) inserts _) fun result => ?_
              split <;> trivial

theorem ensureInitialAdmin_quiet (host : Host) (email password : String) :
    (ensureInitialAdmin host email password).Asks Query.Quiet :=
  ensureInitialAdmin_asks (fun _ => Query.Reading.quiet) (fun _ => trivial) host email password

end Wuflow

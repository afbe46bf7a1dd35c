/-
**What a request may write, and what it has checked before.**

`Sanctioned host req past w` lists, request by request, the writes that a handler can come to, each with
the evidence that the local history `past` then holds: the route wrapper has let the caller in
(`Entered`), the issue or the release of the path was found in the project of the path (`LoadedIssue`,
`LoadedRelease`) and its status allowed the write, the body passed its validator (`Decoded`), the
position is the one after the maximum read. The first write of a request is marked as such
(`Unwritten`).

`Sanctioning` — the programs that write only what is sanctioned; one rule for each step of a handler.
-/

import Wuflow.Requests.Runs

namespace Wuflow

open Calendar (Instant)
open Interleave (Prog Entry Run)
open Interleave.Stopping (Asks Obeys)

/-! ### Evidence -/

/-- Nothing has been written yet. -/
def Unwritten (past : Past) : Prop := ∀ entry ∈ past, ∀ w, entry.1 ≠ .write w

/-- The wrapper of a project route has let the caller in. -/
structure Entered (caller : Caller) (action : Action) (pId : Option Int) (past : Past)
    (projectID : Int) : Prop where
  permitted : can caller.role action = true
  path : pId = some projectID
  found : (⟨.read (.projectExists projectID), .ok true⟩ : Entry Query.Answer) ∈ past

/-- The body decodes to a value that its validator turns into `value`. -/
def Decoded {β : Type} (body : Body β) (validate : β → Except String β) (value : β) : Prop :=
  ∃ sent, body = .json sent ∧ validate sent = .ok value

/-- The issue was found in the project. -/
def LoadedIssue (past : Past) (id projectID : Int) (issue : Issue) : Prop :=
  ∃ found tasks, issue = { found with tasks } ∧
    (⟨.read (.issueByIDInProject id projectID), .ok (some found)⟩ : Entry Query.Answer) ∈ past

/-- The release was found in the project. -/
def LoadedRelease (past : Past) (id projectID : Int) (release : Release) : Prop :=
  (⟨.read (.releaseByIDInProject id projectID), .ok (some release)⟩ : Entry Query.Answer) ∈ past

section Monotone

variable {past later : Past} (extends_ : past <:+ later)

include extends_

theorem Entered.mono {caller : Caller} {action : Action} {pId : Option Int} {projectID : Int}
    (entered : Entered caller action pId past projectID) :
    Entered caller action pId later projectID :=
  ⟨entered.permitted, entered.path, extends_.subset entered.found⟩

theorem LoadedIssue.mono {id projectID : Int} {issue : Issue}
    (loaded : LoadedIssue past id projectID issue) : LoadedIssue later id projectID issue := by
  obtain ⟨found, tasks, same, member⟩ := loaded
  exact ⟨found, tasks, same, extends_.subset member⟩

theorem LoadedRelease.mono {id projectID : Int} {release : Release}
    (loaded : LoadedRelease past id projectID release) : LoadedRelease later id projectID release :=
  extends_.subset loaded

end Monotone

theorem Unwritten.cons {past : Past} (unwritten : Unwritten past) {query : Query}
    {answer : query.Answer} (reading : query.Reading) :
    Unwritten (⟨query, answer⟩ :: past) := by
  intro other member
  rcases List.mem_cons.mp member with rfl | member
  · exact reading.ne_write
  · exact unwritten other member

theorem Unwritten.read {past : Past} (unwritten : Unwritten past) {q : Select}
    {answer : (Query.read q).Answer} : Unwritten (⟨.read q, answer⟩ :: past) :=
  unwritten.cons trivial

theorem Unwritten.now {past : Past} (unwritten : Unwritten past) {t : Instant} :
    Unwritten (⟨.now, t⟩ :: past) :=
  unwritten.cons trivial

/-! ### The values written -/

/-- The issue that a create request inserts. -/
def createdIssue (caller : Caller) (projectID : Int) (i : Issue) (maxPos : Option Int)
    (updatedAt : Instant) : Issue :=
  { i with
    projectID, creatorID := caller.userID, updaterID := some caller.userID
    priority := if i.priority = .unset then .normal else i.priority
    position := nextPosition maxPos, updatedAt }

/-- A PUT has passed all its checks with the issue `i`, built from its body and the `current` issue. -/
structure PutAccepted (caller : Caller) (ifMatch : String) (body : Body Issue) (past : Past)
    (projectID id : Int) (current i : Issue) : Prop where
  loaded : LoadedIssue past id projectID current
  version : (ifMatch == "" || !ifMatchConflict current ifMatch) = true
  sent : ∃ sent, Decoded body validateIssue sent ∧ i = putBody caller projectID id current sent
  writable : current.status ≠ .archive
  kept : i.status ≠ .archive

theorem PutAccepted.mono {past later : Past} (extends_ : past <:+ later) {caller : Caller}
    {ifMatch : String} {body : Body Issue} {projectID id : Int} {current i : Issue}
    (accepted : PutAccepted caller ifMatch body past projectID id current i) :
    PutAccepted caller ifMatch body later projectID id current i :=
  { accepted with loaded := accepted.loaded.mono extends_ }

/-- The requests that record one entry in the history of the issue of their path. -/
def Request.records : Request → Option (Caller × Action × Option Int × Int)
  | .archiveIssue caller pId (some id) => some (caller, .archiveIssue, pId, id)
  | .unarchiveIssue caller pId (some id) => some (caller, .unarchiveIssue, pId, id)
  | .moveIssue caller pId (some id) _ => some (caller, .moveIssue, pId, id)
  | .createTask caller pId (some id) _ => some (caller, .createTask, pId, id)
  | .putTask caller pId (some id) _ _ => some (caller, .updateTask, pId, id)
  | .deleteTask caller pId (some id) _ => some (caller, .deleteTask, pId, id)
  | _ => none

/-- Writes on the sessions. -/
def Write.OnSessions : Write → Prop
  | .insertSession _ | .updateSession _ _ _ | .deleteSession _ | .deleteSessionsByUserID _
  | .deleteExpiredSessions _ => True
  | _ => False

/-- They leave the rest of the database alone. -/
theorem Write.OnSessions.alone {w : Write} (onSessions : w.OnSessions) {s s' : Store} {rows : Int}
    (applied : w.apply s = .ok (rows, s')) : ∃ sessions, s' = { s with sessions } := by
  cases w with
  | insertSession row =>
      obtain ⟨_, rest⟩ := require_bind_ok.mp applied
      cases rest
      exact ⟨_, rfl⟩
  | updateSession | deleteSession | deleteSessionsByUserID | deleteExpiredSessions =>
      cases applied
      exact ⟨_, rfl⟩
  | _ => exact onSessions.elim

/-! ### The writes of each request -/

/-- **The sanctioned writes.** -/
inductive Sanctioned (host : Host) : Request → Past → Write → Prop
  -- issues
  | createIssue {caller : Caller} {pId : Option Int} {body : Body Issue} {past : Past}
      {projectID : Int} {i : Issue} {maxPos : Option Int} {updatedAt : Instant}
      (unwritten : Unwritten past) (entered : Entered caller .createIssue pId past projectID)
      (decoded : Decoded body validateIssue i)
      (last : (⟨.read (.maxIssuePosition i.status), .ok maxPos⟩ : Entry Query.Answer) ∈ past) :
      Sanctioned host (.createIssue caller pId body) past (.insertIssue
        { toIssueColumns := (createdIssue caller projectID i maxPos updatedAt).columns
          creatorID := nullableUserID (some caller.userID) })
  | createdHistory {caller : Caller} {pId : Option Int} {body : Body Issue} {past : Past}
      {projectID id : Int} {created : IssueRow} {row : HistoryRow}
      (entered : Entered caller .createIssue pId past projectID)
      (inserted : (⟨.write (.insertIssue created), .ok id⟩ : Entry Query.Answer) ∈ past)
      (own : created.projectID = projectID) (issue : row.issueID = id) :
      Sanctioned host (.createIssue caller pId body) past (.insertHistory row)
  | putIssue {caller : Caller} {pId : Option Int} {id : Int} {ifMatch : String} {body : Body Issue}
      {past : Past} {projectID : Int} {current i : Issue} {updatedAt : Instant}
      (unwritten : Unwritten past) (entered : Entered caller .updateIssue pId past projectID)
      (accepted : PutAccepted caller ifMatch body past projectID id current i)
      (changed : issueContentHash i ≠ issueContentHash current) :
      Sanctioned host (.putIssue caller pId (some id) ifMatch body) past
        (.updateIssue id { i with updatedAt }.columns)
  | putIssuePosition {caller : Caller} {pId : Option Int} {id : Int} {ifMatch : String}
      {body : Body Issue} {past : Past} {projectID : Int} {current i : Issue}
      (unwritten : Unwritten past) (entered : Entered caller .updateIssue pId past projectID)
      (accepted : PutAccepted caller ifMatch body past projectID id current i)
      (same : issueContentHash i = issueContentHash current)
      (moved : i.position ≠ current.position) :
      Sanctioned host (.putIssue caller pId (some id) ifMatch body) past
        (.updateIssuePosition id i.position)
  | editHistory {caller : Caller} {pId : Option Int} {id : Int} {ifMatch : String}
      {body : Body Issue} {past : Past} {projectID : Int} {current updated : Issue}
      {tasks : List Task} {change : ChangeData} {row : HistoryRow}
      (entered : Entered caller .updateIssue pId past projectID)
      (loaded : LoadedIssue past id projectID current)
      (reread : (⟨.read (.issueByID id), .ok (some updated)⟩ : Entry Query.Answer) ∈ past)
      (changed : change ∈ diffIssueFields current { updated with tasks })
      (issue : row.issueID = id) :
      Sanctioned host (.putIssue caller pId (some id) ifMatch body) past (.insertHistory row)
  | putIssuePositions {caller : Caller} {pId : Option Int} {body : Body (List PositionUpdate)}
      {past : Past} {projectID : Int} {updates : List PositionUpdate} (unwritten : Unwritten past)
      (entered : Entered caller .updateIssue pId past projectID)
      (decoded : Decoded body validatePositionUpdates updates) :
      Sanctioned host (.putIssuePositions caller pId body) past
        (.updateIssuePositions projectID updates)
  | archiveIssue {caller : Caller} {pId : Option Int} {id : Int} {past : Past} {projectID : Int}
      {current : Issue} {updatedAt : Instant} (unwritten : Unwritten past)
      (entered : Entered caller .archiveIssue pId past projectID)
      (loaded : LoadedIssue past id projectID current) (writable : current.status ≠ .archive) :
      Sanctioned host (.archiveIssue caller pId (some id)) past
        (.updateIssue current.id { current with status := .archive, updatedAt }.columns)
  | unarchiveIssue {caller : Caller} {pId : Option Int} {id : Int} {past : Past} {projectID : Int}
      {current : Issue} {updatedAt : Instant} (unwritten : Unwritten past)
      (entered : Entered caller .unarchiveIssue pId past projectID)
      (loaded : LoadedIssue past id projectID current) (archived : current.status = .archive) :
      Sanctioned host (.unarchiveIssue caller pId (some id)) past
        (.updateIssue current.id { current with status := .done, updatedAt }.columns)
  | moveIssue {caller : Caller} {pId : Option Int} {id : Int} {body : Body MoveIssueRequest}
      {past : Past} {projectID : Int} {current : Issue} {req : MoveIssueRequest}
      {updatedAt : Instant} (unwritten : Unwritten past)
      (entered : Entered caller .moveIssue pId past projectID)
      (loaded : LoadedIssue past id projectID current) (writable : current.status ≠ .archive)
      (decoded : Decoded body (validateMoveIssue projectID) req) :
      Sanctioned host (.moveIssue caller pId (some id) body) past
        (.updateIssue current.id { movedIssue caller req.newProjectID current with updatedAt }.columns)
  | deleteIssue {caller : Caller} {pId : Option Int} {id : Int} {body : Body AdminPasswordRequest}
      {past : Past} {projectID : Int} {issue : Issue} (unwritten : Unwritten past)
      (entered : Entered caller .deleteIssue pId past projectID)
      (loaded : LoadedIssue past id projectID issue) (writable : issue.status ≠ .archive) :
      Sanctioned host (.deleteIssue caller pId (some id) body) past (.deleteIssue id)
  | history {req : Request} {caller : Caller} {action : Action} {pId : Option Int} {id : Int}
      {past : Past} {projectID : Int} {issue : Issue} {row : HistoryRow}
      (records : req.records = some (caller, action, pId, id))
      (entered : Entered caller action pId past projectID)
      (loaded : LoadedIssue past id projectID issue) (own : row.issueID = id) :
      Sanctioned host req past (.insertHistory row)
  -- tasks and comments
  | createTask {caller : Caller} {pId : Option Int} {issueID : Int} {body : Body Task} {past : Past}
      {projectID : Int} {issue : Issue} {t : Task} {maxPos : Option Int} {updatedAt : Instant}
      (unwritten : Unwritten past) (entered : Entered caller .createTask pId past projectID)
      (loaded : LoadedIssue past issueID projectID issue) (writable : issue.status ≠ .archive)
      (decoded : Decoded body validateTask t)
      (last : (⟨.read (.maxTaskPosition issueID), .ok maxPos⟩ : Entry Query.Answer) ∈ past) :
      Sanctioned host (.createTask caller pId (some issueID) body) past
        (.insertTask ⟨issueID, t.title, t.done, nextPosition maxPos, t.deadline, updatedAt⟩)
  | putTask {caller : Caller} {pId : Option Int} {issueID id : Int} {body : Body Task} {past : Past}
      {projectID : Int} {issue : Issue} {t : Task} {updatedAt : Instant} (unwritten : Unwritten past)
      (entered : Entered caller .updateTask pId past projectID)
      (loaded : LoadedIssue past issueID projectID issue) (writable : issue.status ≠ .archive)
      (decoded : Decoded body validateTask t) :
      Sanctioned host (.putTask caller pId (some issueID) (some id) body) past
        (.updateTask id issueID ⟨issueID, t.title, t.done, t.position, t.deadline, updatedAt⟩)
  | putTaskPositions {caller : Caller} {pId : Option Int} {issueID : Int}
      {body : Body (List PositionUpdate)} {past : Past} {projectID : Int} {issue : Issue}
      {updates : List PositionUpdate} (unwritten : Unwritten past)
      (entered : Entered caller .updateTask pId past projectID)
      (loaded : LoadedIssue past issueID projectID issue) (writable : issue.status ≠ .archive)
      (decoded : Decoded body validatePositionUpdates updates) :
      Sanctioned host (.putTaskPositions caller pId (some issueID) body) past
        (.updateTaskPositions issueID updates)
  | deleteTask {caller : Caller} {pId : Option Int} {issueID id : Int} {past : Past}
      {projectID : Int} {issue : Issue} (unwritten : Unwritten past)
      (entered : Entered caller .deleteTask pId past projectID)
      (loaded : LoadedIssue past issueID projectID issue) (writable : issue.status ≠ .archive) :
      Sanctioned host (.deleteTask caller pId (some issueID) (some id)) past (.deleteTask id issueID)
  | createComment {caller : Caller} {pId : Option Int} {issueID : Int} {body : Body Comment}
      {past : Past} {projectID : Int} {issue : Issue} {c : Comment} {now : Instant}
      (unwritten : Unwritten past) (entered : Entered caller .createComment pId past projectID)
      (loaded : LoadedIssue past issueID projectID issue) (writable : issue.status ≠ .archive)
      (decoded : Decoded body validateComment c) :
      Sanctioned host (.createComment caller pId (some issueID) body) past (.insertComment
        ⟨issueID, nullableUserID (some caller.userID), c.body, false, now, now⟩)
  | putComment {caller : Caller} {pId : Option Int} {issueID id : Int} {body : Body Comment}
      {past : Past} {projectID : Int} {issue : Issue} {c : Comment} {now : Instant}
      (unwritten : Unwritten past) (entered : Entered caller .updateComment pId past projectID)
      (loaded : LoadedIssue past issueID projectID issue) (writable : issue.status ≠ .archive)
      (decoded : Decoded body validateComment c) :
      Sanctioned host (.putComment caller pId (some issueID) (some id) body) past
        (.updateComment id issueID (commentAuthorFilter caller) c.body now)
  | deleteComment {caller : Caller} {pId : Option Int} {issueID id : Int} {past : Past}
      {projectID : Int} {issue : Issue} (unwritten : Unwritten past)
      (entered : Entered caller .deleteComment pId past projectID)
      (loaded : LoadedIssue past issueID projectID issue) (writable : issue.status ≠ .archive) :
      Sanctioned host (.deleteComment caller pId (some issueID) (some id)) past
        (.deleteComment id issueID (commentAuthorFilter caller))
  -- labels, status configs and projects
  | createLabel {caller : Caller} {pId : Option Int} {body : Body Label} {past : Past}
      {projectID : Int} {l : Label} (unwritten : Unwritten past)
      (entered : Entered caller .createLabel pId past projectID)
      (decoded : Decoded body validateLabel l) :
      Sanctioned host (.createLabel caller pId body) past (.insertLabel ⟨l.name, l.color, projectID⟩)
  | deleteLabel {caller : Caller} {pId : Option Int} {id : Int} {body : Body AdminPasswordRequest}
      {past : Past} {projectID : Int} (unwritten : Unwritten past)
      (entered : Entered caller .deleteLabel pId past projectID) :
      Sanctioned host (.deleteLabel caller pId (some id) body) past (.deleteLabel id projectID)
  | updateStatusConfig {caller : Caller} {pId : Option Int} {body : Body StatusConfig} {past : Past}
      {projectID : Int} {cfg : StatusConfig} (unwritten : Unwritten past)
      (entered : Entered caller .updateStatusConfig pId past projectID)
      (decoded : Decoded body validateStatusConfig cfg) :
      Sanctioned host (.updateStatusConfig caller pId body) past
        (.upsertStatusConfig { cfg with projectID })
  | createProject {caller : Caller} {body : Body Project} {past : Past} {row : ProjectRow}
      (unwritten : Unwritten past) (permitted : can caller.role .createProject = true) :
      Sanctioned host (.createProject caller body) past (.insertProject row)
  | seedStatusConfig {caller : Caller} {body : Body Project} {past : Past} {row : ProjectRow}
      {id : Int} (permitted : can caller.role .createProject = true)
      (inserted : (⟨.write (.insertProject row), .ok id⟩ : Entry Query.Answer) ∈ past) :
      Sanctioned host (.createProject caller body) past (.seedStatusConfig id)
  | updateProject {caller : Caller} {pId : Option Int} {body : Body Project} {past : Past}
      {projectID : Int} {row : ProjectRow} (unwritten : Unwritten past)
      (entered : Entered caller .updateProject pId past projectID) :
      Sanctioned host (.updateProject caller pId body) past (.updateProject projectID row)
  | deleteProject {caller : Caller} {pId : Option Int} {body : Body AdminPasswordRequest}
      {past : Past} {projectID : Int} (unwritten : Unwritten past)
      (entered : Entered caller .deleteProject pId past projectID) :
      Sanctioned host (.deleteProject caller pId body) past (.deleteProject projectID)
  -- releases
  | createRelease {caller : Caller} {pId : Option Int} {body : Body Release} {past : Past}
      {projectID : Int} {row : ReleaseRow} (unwritten : Unwritten past)
      (entered : Entered caller .createRelease pId past projectID) (own : row.projectID = projectID) :
      Sanctioned host (.createRelease caller pId body) past (.insertRelease row)
  | putRelease {caller : Caller} {pId : Option Int} {id : Int} {body : Body Release} {past : Past}
      {projectID : Int} {current r : Release} (unwritten : Unwritten past)
      (entered : Entered caller .updateRelease pId past projectID)
      (loaded : LoadedRelease past id projectID current) (open_ : current.status ≠ .closed) :
      Sanctioned host (.putRelease caller pId (some id) body) past (.updateRelease id r)
  | deleteRelease {caller : Caller} {pId : Option Int} {id : Int} {body : Body AdminPasswordRequest}
      {past : Past} {projectID : Int} {release : Release} (unwritten : Unwritten past)
      (entered : Entered caller .deleteRelease pId past projectID)
      (loaded : LoadedRelease past id projectID release) :
      Sanctioned host (.deleteRelease caller pId (some id) body) past (.deleteRelease id)
  | triggerRelease {caller : Caller} {pId : Option Int} {id : Int} {body : Body TriggerRequest}
      {past : Past} {projectID : Int} {release : Release} {now : Instant} (unwritten : Unwritten past)
      (entered : Entered caller .triggerRelease pId past projectID)
      (loaded : LoadedRelease past id projectID release) :
      Sanctioned host (.triggerRelease caller pId (some id) body) past (.closeRelease id now)
  | archiveDone {caller : Caller} {pId : Option Int} {id : Int} {body : Body TriggerRequest}
      {past : Past} {projectID : Int} {release : Release} {now : Instant}
      (entered : Entered caller .triggerRelease pId past projectID)
      (loaded : LoadedRelease past id projectID release) :
      Sanctioned host (.triggerRelease caller pId (some id) body) past (.archiveDone id now)
  | reopenRelease {caller : Caller} {pId : Option Int} {id : Int} {past : Past} {projectID : Int}
      {release : Release} {now : Instant} (unwritten : Unwritten past)
      (entered : Entered caller .triggerRelease pId past projectID)
      (loaded : LoadedRelease past id projectID release) :
      Sanctioned host (.reopenRelease caller pId (some id)) past (.reopenRelease id now)
  -- accounts
  | createUser {caller : Caller} {body : Body UserRequest} {past : Past} {row : UserRow}
      (permitted : can caller.role .createUser = true) :
      Sanctioned host (.createUser caller body) past (.insertUser row)
  | updateUser {caller : Caller} {id : Option Int} {body : Body UserRequest} {past : Past} {u : User}
      {removes : Bool} (permitted : can caller.role .updateUser = true) :
      Sanctioned host (.updateUser caller id body) past (.updateUser u removes)
  | deleteUser {caller : Caller} {id : Int} {body : Body AdminPasswordRequest} {past : Past}
      {actor : Option Int} {userName : String} {now created : Instant}
      (permitted : can caller.role .deleteUser = true) :
      Sanctioned host (.deleteUser caller (some id) body) past
        (.deleteUser id actor userName now created)
  | updateSelf {caller : Caller} {body : Body UserRequest} {past : Past} {u : User} {removes : Bool} :
      Sanctioned host (.updateSelf caller body) past (.updateUser u removes)
  | lastLogin {ip : String} {body : Body LoginRequest} {past : Past} {login : LoginRequest}
      {user : User} {at_ : Instant} (decoded : Decoded body validateLoginRequest login)
      (found : (⟨.read (.userByEmail login.email), .ok (some user)⟩ : Entry Query.Answer) ∈ past)
      (checked : host.checkPassword user.passwordHash login.password = true) :
      Sanctioned host (.login ip body) past (.updateUserLastLogin user.id at_)
  | firstUser {email password : String} {past : Past} {row : UserRow} :
      Sanctioned host (.ensureInitialAdmin email password) past (.insertUser row)
  | session {req : Request} {past : Past} {w : Write} (sessions : w.OnSessions) :
      Sanctioned host req past w

/-- Reads are always allowed, writes if they are sanctioned. -/
def Query.Allowed (host : Host) (req : Request) (past : Past) : Query → Prop
  | .write w => Sanctioned host req past w
  | _ => True

end Wuflow

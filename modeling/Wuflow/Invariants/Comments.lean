/-
**Who may change a comment, and what it says, over whole runs.**

`Dialogue host log s` — requests have been served one after the other in a new database, each with the
response in `log`. The log alone tells what each comment should be (`recordOf`).

* `CommentStep` — what a request with its response has done to the comments; `handlePutComment_step` and its
  likes prove it of the handlers, `quiet_step` of every other request.
* `CommentsOwned` — every comment is as the log tells; `CommentsOwned.next` — one request keeps that.
* `comment_ownership` — in every dialogue; and whoever changes a comment next is its author or a moderator.
-/

import Wuflow.Invariants.UserDelete
import Wuflow.Invariants.UserUpdates
import Wuflow.Model.Checks
import Wuflow.Requests.Alone

namespace Wuflow

open Calendar (Instant)
open Interleave.Stopping (Ensures)
open Relational (Table)

/-! ### What the log tells -/

/-- **Requests served one after the other** in a new database, newest first, each with its response. -/
inductive Dialogue (host : Host) : List (Request × Response) → Store → Prop
  | nil : Dialogue host [] createTables
  | next {log : List (Request × Response)} {s s' : Store} {req : Request} {response : Response}
      (earlier : Dialogue host log s) (responds : Responds Query.sound host s req response s') :
      Dialogue host ((req, response) :: log) s'

/-- What the requests tell of a comment. -/
structure CommentRecord where
  issueID : Int
  creator : Int
  body : String
  edited : Bool
  deriving DecidableEq

/-- The text of a comment as it is stored. -/
def commentBody (sent : Comment) : String := trimSpace (removeNul sent.body)

/-- The id of the comment in the response. -/
def Response.commentID (response : Response) : Option Int :=
  match response.payload with
  | .comment c => some c.id
  | _ => none

/-- The record of the comment `id` after a request. -/
def recordAfter (req : Request) (response : Response) (id : Int) (record : Option CommentRecord) :
    Option CommentRecord :=
  if response.Refused then record else
  match req with
  | .createComment caller _ (some issueID) (.json sent) =>
      if response.commentID = some id then some ⟨issueID, caller.userID, commentBody sent, false⟩ else record
  | .putComment _ _ _ (some key) (.json sent) =>
      if key = id then record.map fun old => { old with body := commentBody sent, edited := true } else record
  | .deleteComment _ _ _ (some key) => if key = id then none else record
  | _ => record

/-- The record of the comment `id`. -/
def recordOf : List (Request × Response) → Int → Option CommentRecord
  | [], _ => none
  | (req, response) :: earlier, id => recordAfter req response id (recordOf earlier id)

/-- The user that a request deletes. -/
def Request.deletedUser : Request → Option Int
  | .deleteUser _ id _ => id
  | _ => none

/-- The users that have been deleted. -/
def deletedUsers : List (Request × Response) → List Int
  | [] => []
  | (req, response) :: earlier =>
      if response.Refused then deletedUsers earlier else req.deletedUser.toList ++ deletedUsers earlier

/-- The requests that create, edit or delete a comment. -/
def Request.WritesComment : Request → Bool
  | .createComment .. | .putComment .. | .deleteComment .. => true
  | _ => false

/-- Deleting an issue deletes its comments. -/
def Request.Cascades : Request → Bool
  | .deleteIssue .. => true
  | _ => false

/-- The requests that may change comments. -/
def Request.TouchesComments : Request → Bool
  | .deleteUser .. | .deleteIssue .. => true
  | req => req.WritesComment

/-- The caller, issue and id of a request that edits or deletes a comment. -/
def Request.changesComment : Request → Option (Caller × Option Int × Option Int)
  | .putComment caller _ iId id _ | .deleteComment caller _ iId id => some (caller, iId, id)
  | _ => none

/-! ### One request -/

/-- **The caller may change the comment**: its own or as a moderator, and under its own issue, which is not
archived. -/
structure MayChange (s : Store) (caller : Caller) (issueID id : Int) : Prop where
  issue : ∃ issue, s.issues.get? issueID = some issue ∧ issue.status ≠ .archive
  comment : ∃ row, s.comments.get? id = some row ∧ row.issueID = issueID ∧
    (row.userID = some caller.userID ∨ caller.role = .admin ∨ caller.role = .sysadmin)

/-- **What a request has done to the comments.** -/
inductive CommentStep (s : Store) : Request → Response → Store → Prop
  | created {caller : Caller} {pId : Option Int} {issueID : Int} {sent : Comment} {response : Response}
      {s' : Store} {now : Instant} (accepted : ¬ response.Refused)
      (named : response.commentID = some s.comments.nextId)
      (author : refExists s.users (nullableUserID (some caller.userID)) = true)
      (stored : s'.comments = s.comments.insert
        ⟨issueID, nullableUserID (some caller.userID), commentBody sent, false, now, now⟩) :
      CommentStep s (.createComment caller pId (some issueID) (.json sent)) response s'
  | edited {caller : Caller} {pId : Option Int} {issueID id : Int} {sent : Comment} {response : Response}
      {s' : Store} {row : CommentRow} {now : Instant} (accepted : ¬ response.Refused)
      (may : MayChange s caller issueID id) (found : s.comments.get? id = some row)
      (stored : ∀ key, s'.comments.get? key =
        if key = id then some { row with body := commentBody sent, edited := true, updatedAt := now }
        else s.comments.get? key) :
      CommentStep s (.putComment caller pId (some issueID) (some id) (.json sent)) response s'
  | deleted {caller : Caller} {pId : Option Int} {issueID id : Int} {response : Response} {s' : Store}
      (accepted : ¬ response.Refused) (may : MayChange s caller issueID id)
      (stored : ∀ key, s'.comments.get? key = if key = id then none else s.comments.get? key) :
      CommentStep s (.deleteComment caller pId (some issueID) (some id)) response s'
  | userDeleted {caller : Caller} {id : Int} {body : Body AdminPasswordRequest} {response : Response}
      {s' : Store} (accepted : ¬ response.Refused) (given : id ≤ s'.users.seq)
      (gone : s'.users.get? id = none)
      (stored : ∀ key, s'.comments.get? key =
        (s.comments.get? key).map fun row => { row with userID := forget id row.userID }) :
      CommentStep s (.deleteUser caller (some id) body) response s'
  | refused {req : Request} {response : Response} {s' : Store} (cause : response.Refused)
      (same : s'.comments = s.comments) : CommentStep s req response s'
  | cascaded {req : Request} {response : Response} {s' : Store} (cascades : req.Cascades = true)
      (left : ∀ key row, s'.comments.get? key = some row → s.comments.get? key = some row) :
      CommentStep s req response s'
  | other {req : Request} {response : Response} {s' : Store} (quiet : req.TouchesComments = false)
      (same : s'.comments = s.comments) : CommentStep s req response s'

section Wrappers

variable {sem : (query : Query) → Store → query.Answer → Store → Prop} {s : Store}
  {post stop : Response → Store → Prop} {caller : Caller} {action : Action}

/-- The handler below an issue gets it as it is in the database. -/
theorem withIssue_ensures {may : Query → Prop} (tame : Tame may sem) {pId iId : Option Int}
    {h : Int → Issue → Handler Response} (fails : ∀ response, response.Refused → stop response s)
    (next : ∀ issueID row tasks, iId = some issueID → s.issues.get? issueID = some row →
      Ensures sem post stop (h issueID { s.scanIssueRow issueID row with tasks }) s) :
    Ensures sem post stop (withIssue caller action pId iId h) s := by
  refine Ensured.ensure (fails _ (by decide)) fun permitted => Ensures.bind ?_
  refine Ensured.orRespond (fails _ (by decide)) fun projectID path => ?_
  refine Ensured.orFail (Ensured.select_end tame (fun _ _ => fails _ (by decide)) ?_)
  refine Ensured.ensure (fails _ (by decide)) fun _ => ?_
  refine Ensured.orRespond (fails _ (by decide)) fun issueID here => ?_
  refine Ensured.loadIssue tame fails fun row tasks found _ => ?_
  exact next issueID row tasks (Option.filter_eq_some_iff.mp here).1 found

theorem withIssueResource_ensures {may : Query → Prop} (tame : Tame may sem) {pId iId id : Option Int}
    {h : Int → Int → Issue → Handler Response} (fails : ∀ response, response.Refused → stop response s)
    (next : ∀ issueID found row tasks, iId = some issueID → id = some found →
      s.issues.get? issueID = some row →
      Ensures sem post stop (h issueID found { s.scanIssueRow issueID row with tasks }) s) :
    Ensures sem post stop (withIssueResource caller action pId iId id h) s := by
  refine withIssue_ensures tame fails fun issueID row tasks path known => ?_
  refine Ensured.orRespond (fails _ (by decide)) fun found here => ?_
  exact next issueID found row tasks path (Option.filter_eq_some_iff.mp here).1 known

theorem requireAdminPassword_ensures {may : Query → Prop} (tame : Tame may sem) {host : Host} {β : Type}
    {body : Body AdminPasswordRequest} {post : β → Store → Prop} {f : Unit → Handler β}
    (fails : ∀ response, response.Refused → stop response s) (next : Ensures sem post stop (f ()) s) :
    Ensures sem post stop (requireAdminPassword host caller body >>= f) s := by
  cases body with
  | malformed => exact fails _ (badRequest_refused _)
  | empty => exact verifyAdmin_ensures tame fails fun _ => next
  | json => exact verifyAdmin_ensures tame fails fun _ => next

/-- Nothing is done for an archived issue. -/
theorem ensureNotArchived_ensures {β : Type} {post : β → Store → Prop} {issue : Issue} {message : String}
    {f : Unit → Handler β} (fails : ∀ response, response.Refused → stop response s)
    (next : issue.status ≠ .archive → Ensures sem post stop (f ()) s) :
    Ensures sem post stop (ensureNotArchived issue message >>= f) s :=
  Ensured.ensure (fails _ (by show 400 ≤ 403; decide)) fun open_ => next (bne_iff_ne.mp open_)

end Wrappers

/-! ### The handlers -/

theorem authoredBy_commentAuthorFilter {caller : Caller} {row : CommentRow} :
    row.authoredBy (commentAuthorFilter caller) = true ↔
      row.userID = some caller.userID ∨ caller.role = .admin ∨ caller.role = .sysadmin := by
  unfold commentAuthorFilter isCommentModerator CommentRow.authoredBy
  by_cases moderates : (caller.role == .admin || caller.role == .sysadmin) = true
  · rw [if_pos moderates]
    rw [Bool.or_eq_true, beq_iff_eq, beq_iff_eq] at moderates
    exact ⟨fun _ => .inr moderates, fun _ => rfl⟩
  · rw [if_neg moderates]
    rw [Bool.or_eq_true, beq_iff_eq, beq_iff_eq] at moderates
    exact ⟨fun own => .inl (beq_iff_eq.mp own), fun own => beq_iff_eq.mpr (own.resolve_right moderates)⟩

theorem not_refused {response : Response} (below : response.status < 400) : ¬ response.Refused :=
  Nat.not_le.mpr below

theorem commentWriteError_refused (err : Err) : (commentWriteError err).Refused := by
  unfold commentWriteError
  split <;> decide

theorem validateComment_body {sent c : Comment} (valid : validateComment sent = .ok c) :
    c.body = commentBody sent := by
  obtain ⟨_, rest⟩ := check_bind_ok.mp valid
  obtain ⟨_, rest⟩ := check_bind_ok.mp rest
  cases rest
  rfl

section Writes

variable {s s' : Store} {caller : Caller} {issueID id rows : Int} {issue : IssueRow}

/-- The statements select the comment that the caller may change, or nothing. -/
theorem selected_mayChange (known : s.issues.get? issueID = some issue) (open_ : issue.status ≠ .archive)
    (changed : s.comments.count (fun key row => key == id && row.issueID == issueID &&
      row.authoredBy (commentAuthorFilter caller)) ≠ 0) :
    MayChange s caller issueID id ∧ ∃ row, s.comments.get? id = some row ∧ row.issueID = issueID ∧
      ∀ key other, s.comments.get? key = some other → ((key == id && other.issueID == issueID &&
        other.authoredBy (commentAuthorFilter caller)) = true ↔ key = id) := by
  rw [Ne, Table.count_eq_zero_iff] at changed
  simp only [not_forall, Bool.not_eq_false, Bool.and_eq_true, beq_iff_eq] at changed
  obtain ⟨_, row, found, ⟨rfl, own⟩, author⟩ := changed
  refine ⟨⟨⟨issue, known, open_⟩, row, found, own, authoredBy_commentAuthorFilter.mp author⟩,
    row, found, own, fun key other there => ?_⟩
  rw [Bool.and_eq_true, Bool.and_eq_true, beq_iff_eq, beq_iff_eq]
  constructor
  · exact fun chosen => chosen.1.1
  · rintro rfl
    cases found.symm.trans there
    exact ⟨⟨rfl, own⟩, author⟩

/-- An `UpdateComment` changes nothing, or the comment that the caller may change. -/
theorem updateComment_changes {body : String} {now : Instant}
    (known : s.issues.get? issueID = some issue) (open_ : issue.status ≠ .archive)
    (applied : (Write.updateComment id issueID (commentAuthorFilter caller) body now).apply s =
      .ok (rows, s')) :
    (rows = 0 ∧ s'.comments = s.comments) ∨ (rows ≠ 0 ∧ MayChange s caller issueID id ∧
      ∃ row, s.comments.get? id = some row ∧ row.issueID = issueID ∧ ∀ key, s'.comments.get? key =
        if key = id then some { row with body, edited := true, updatedAt := now }
        else s.comments.get? key) := by
  cases applied
  by_cases changed : s.comments.count (fun key row => key == id && row.issueID == issueID &&
      row.authoredBy (commentAuthorFilter caller)) = 0
  · have same : s.comments.update _ (fun row => { row with body, edited := true, updatedAt := now }) =
        s.comments := Table.update_of_none (Table.count_eq_zero_iff.mp changed)
    exact .inl ⟨changed, same⟩
  · obtain ⟨may, row, found, own, chosen⟩ := selected_mayChange known open_ changed
    refine .inr ⟨changed, may, row, found, own, fun key => ?_⟩
    show (s.comments.update _ _).get? key = _
    rw [Table.get?_update]
    by_cases here : key = id
    · rw [if_pos here, here, found, Option.map_some, if_pos ((chosen id row found).mpr rfl)]
    · rw [if_neg here]
      cases there : s.comments.get? key with
      | none => rfl
      | some other => rw [Option.map_some, if_neg fun picked => here ((chosen key other there).mp picked)]

/-- The same for a `DeleteComment`. -/
theorem deleteComment_changes (known : s.issues.get? issueID = some issue) (open_ : issue.status ≠ .archive)
    (applied : (Write.deleteComment id issueID (commentAuthorFilter caller)).apply s = .ok (rows, s')) :
    (rows = 0 ∧ s'.comments = s.comments) ∨ (rows ≠ 0 ∧ MayChange s caller issueID id ∧
      ∀ key, s'.comments.get? key = if key = id then none else s.comments.get? key) := by
  cases applied
  by_cases changed : s.comments.count (fun key row => key == id && row.issueID == issueID &&
      row.authoredBy (commentAuthorFilter caller)) = 0
  · exact .inl ⟨changed, Table.delete_of_none (Table.count_eq_zero_iff.mp changed)⟩
  · obtain ⟨may, row, found, _, chosen⟩ := selected_mayChange known open_ changed
    refine .inr ⟨changed, may, fun key => ?_⟩
    show (s.comments.delete _).get? key = _
    rw [Table.get?_delete]
    by_cases here : key = id
    · rw [if_pos here, here, found, Option.filter_some, if_neg]
      rw [(chosen id row found).mpr rfl]
      decide
    · rw [if_neg here]
      cases there : s.comments.get? key with
      | none => rfl
      | some other =>
          have spared := Bool.eq_false_iff.mpr fun picked => here ((chosen key other there).mp picked)
          rw [Option.filter_some, if_pos]
          rw [spared]
          rfl

/-- A deleted user is forgotten as the author. -/
theorem deleteUser_comments {actor : Option Int} {userName : String} {now created : Instant}
    (applied : (Write.deleteUser id actor userName now created).apply s = .ok (rows, s')) :
    (∃ row, s.users.get? id = some row) ∧ s'.users = s.users.delete (fun key _ => key == id) ∧
      ∀ key, s'.comments.get? key =
        (s.comments.get? key).map fun row => { row with userID := forget id row.userID } := by
  obtain ⟨deletable, users, _⟩ := deleteUser_cases applied
  obtain ⟨row, found, _⟩ := Table.holds_eq_true_iff.mp deletable
  refine ⟨⟨row, found⟩, users, ?_⟩
  obtain ⟨_, rest⟩ := require_bind_ok.mp applied
  obtain ⟨_, rest⟩ := require_bind_ok.mp rest
  obtain ⟨_, rest⟩ := require_bind_ok.mp rest
  cases rest
  exact get?_setNull (fun (row : CommentRow) author => { row with userID := author })
    (fun _ => rfl) fun _ => rfl

end Writes

section Handlers

variable {s : Store} {caller : Caller} {pId : Option Int} {issueID id : Int} {row : IssueRow}
  {tasks : List Task}

theorem handleCreateComment_step {body : Body Comment} :
    Ensures (Query.tried Query.sound) (CommentStep s (.createComment caller pId (some issueID) body))
      (CommentStep s (.createComment caller pId (some issueID) body))
      (handleCreateComment caller body issueID { s.scanIssueRow issueID row with tasks }) s := by
  have tame := tame_tried Query.sound
  have fails : ∀ response, response.Refused →
      CommentStep s (.createComment caller pId (some issueID) body) response s :=
    fun _ refused => .refused refused rfl
  refine Ensured.decode (fun _ => fails _ (badRequest_refused _)) fun c decoded => ?_
  obtain ⟨sent, rfl, valid⟩ := decoded
  refine ensureNotArchived_ensures fails fun _ => ?_
  refine Ensured.orFail (Ensured.ask tame now_reading fun now => ?_)
  refine Ensured.exec tame (fun _ => fails _ (by decide)) fun rows s' applied => ?_
  obtain ⟨exist, rest⟩ := require_bind_ok.mp applied
  cases rest
  have author : refExists s.users (nullableUserID (some caller.userID)) = true :=
    (Bool.and_eq_true_iff.mp exist).2
  have stored : s.comments.insert ⟨issueID, nullableUserID (some caller.userID), c.body, false, now, now⟩ =
      s.comments.insert ⟨issueID, nullableUserID (some caller.userID), commentBody sent, false, now, now⟩ := by
    rw [validateComment_body valid]
  refine Ensures.bind (Ensures.lift fun answer s' here => ?_)
  obtain rfl := reading_same tame (reading_read _) here
  -- the response names the author if it can be read
  rcases answer with _ | _ | user
  · exact .created (not_refused (show 201 < 400 by decide)) rfl author stored
  · exact .created (not_refused (show 201 < 400 by decide)) rfl author stored
  · exact .created (not_refused (show 201 < 400 by decide)) rfl author stored

theorem handlePutComment_step {body : Body Comment} (known : s.issues.get? issueID = some row) :
    Ensures (Query.tried Query.sound) (CommentStep s (.putComment caller pId (some issueID) (some id) body))
      (CommentStep s (.putComment caller pId (some issueID) (some id) body))
      (handlePutComment caller body issueID id { s.scanIssueRow issueID row with tasks }) s := by
  have tame := tame_tried Query.sound
  have fails : ∀ response, response.Refused →
      CommentStep s (.putComment caller pId (some issueID) (some id) body) response s :=
    fun _ refused => .refused refused rfl
  refine Ensured.decode (fun _ => fails _ (badRequest_refused _)) fun c decoded => ?_
  obtain ⟨sent, rfl, valid⟩ := decoded
  refine ensureNotArchived_ensures fails fun open_ => ?_
  refine Ensured.orFail (Ensured.ask tame now_reading fun now => ?_)
  refine Ensured.exec tame (fun _ => fails _ (commentWriteError_refused _)) fun rows s' applied => ?_
  rw [validateComment_body valid] at applied
  rcases updateComment_changes known open_ applied with ⟨rfl, same⟩ | ⟨changed, may, old, found, own, stored⟩
  · exact Ensured.checkRowsAffected_end (fun _ => .refused (commentWriteError_refused _) same)
      fun changed => absurd rfl changed
  · refine Ensured.checkRowsAffected_end (fun none => absurd none changed) fun _ => ?_
    -- what has been written can be read
    refine Ensured.orFail (Ensured.select tame False.elim ?_)
    have read : Select.eval (.commentByID id issueID) s' = some (s'.scanComment id
        { old with body := commentBody sent, edited := true, updatedAt := now }) := by
      show ((s'.comments.get? id).filter fun row => row.issueID == issueID).map _ = _
      rw [stored, if_pos rfl, Option.filter_some, if_pos (beq_iff_eq.mpr own)]
      rfl
    rw [read]
    exact .edited (not_refused (show 200 < 400 by decide)) may found stored

theorem handleDeleteComment_step (known : s.issues.get? issueID = some row) :
    Ensures (Query.tried Query.sound) (CommentStep s (.deleteComment caller pId (some issueID) (some id)))
      (CommentStep s (.deleteComment caller pId (some issueID) (some id)))
      (handleDeleteComment caller issueID id { s.scanIssueRow issueID row with tasks }) s := by
  have tame := tame_tried Query.sound
  have fails : ∀ response, response.Refused →
      CommentStep s (.deleteComment caller pId (some issueID) (some id)) response s :=
    fun _ refused => .refused refused rfl
  refine ensureNotArchived_ensures fails fun open_ => ?_
  refine Ensured.orFail (Ensured.exec tame (fun _ => fails _ (commentWriteError_refused _))
    fun rows s' applied => ?_)
  rcases deleteComment_changes known open_ applied with ⟨rfl, same⟩ | ⟨changed, may, stored⟩
  · exact Ensured.checkRowsAffected_end (fun _ => .refused (commentWriteError_refused _) same)
      fun changed => absurd rfl changed
  · exact Ensured.checkRowsAffected_end (fun none => absurd none changed) fun _ =>
      .deleted (not_refused (show 204 < 400 by decide)) may stored

theorem handleDeleteUser_step {host : Host} {body : Body AdminPasswordRequest} :
    Ensures (Query.tried Query.sound) (CommentStep s (.deleteUser caller (some id) body))
      (CommentStep s (.deleteUser caller (some id) body)) (handleDeleteUser host caller body id) s := by
  have tame := tame_tried Query.sound
  have fails : ∀ response, response.Refused →
      CommentStep s (.deleteUser caller (some id) body) response s :=
    fun _ refused => .refused refused rfl
  refine Ensured.ensure (fails _ (by decide)) fun _ => ?_
  refine requireAdminPassword_ensures tame fails ?_
  refine loadUser_ensures tame fails fun target _ => ?_
  refine Ensured.orFail (Ensured.ask tame now_reading fun created => Ensured.ask tame now_reading fun now => ?_)
  refine Ensured.exec_end tame (fun err _ => fails _ ?_) fun rows s' applied => ?_
  · cases err <;> decide
  · obtain ⟨⟨row, found⟩, users, comments⟩ := deleteUser_comments applied
    refine .userDeleted (not_refused (show 200 < 400 by decide)) ?_ ?_ comments
    · rw [users]
      exact (Table.get?_le_seq found).2
    · rw [users, Table.get?_delete, found, Option.filter_some, beq_self_eq_true]
      rfl

end Handlers

/-! ### Every other request -/

/-- The writes that may change comments. -/
def Write.OnComments : Write → Prop
  | .insertComment _ | .updateComment .. | .deleteComment .. | .deleteIssue _ | .deleteUser .. => True
  | _ => False

/-- No other write changes comments. -/
theorem Write.comments_kept {w : Write} {s s' : Store} {rows : Int} (quiet : ¬ w.OnComments)
    (applied : w.apply s = .ok (rows, s')) : s'.comments = s.comments := by
  cases w with
  | insertComment | updateComment | deleteComment | deleteIssue | deleteUser => exact absurd trivial quiet
  | insertIssue | updateIssue | insertTask | insertHistory | upsertStatusConfig | insertProject | insertLabel
  | updateProject | insertSession | insertUser | updateUser =>
      obtain ⟨_, rest⟩ := require_bind_ok.mp applied
      cases rest
      rfl
  | insertRelease | updateRelease =>
      obtain ⟨_, rest⟩ := require_bind_ok.mp applied
      obtain ⟨_, rest⟩ := require_bind_ok.mp rest
      cases rest
      rfl
  | updateIssuePositions =>
      obtain ⟨issues, rfl, _⟩ := updateIssuePositions_cases applied
      rfl
  | updateTaskPositions =>
      obtain ⟨tasks, rfl⟩ := updateTaskPositions_cases applied
      rfl
  | seedStatusConfig =>
      obtain ⟨statusConfig, rfl⟩ := seedStatusConfig_cases applied
      rfl
  | deleteProject =>
      obtain ⟨_, rest⟩ := require_bind_ok.mp applied
      cases rest
      split <;> rfl
  | _ =>
      cases applied
      rfl

/-- A deleted issue takes its comments along. -/
theorem deleteIssue_comments {id rows : Int} {s s' : Store}
    (applied : (Write.deleteIssue id).apply s = .ok (rows, s')) {key : Int} {row : CommentRow}
    (left : s'.comments.get? key = some row) : s.comments.get? key = some row := by
  cases applied
  split at left
  · exact left
  · exact (Table.get?_delete_eq_some.mp left).1

theorem Write.OnSessions.quiet {w : Write} (sessions : w.OnSessions) : ¬ w.OnComments := by
  cases w with
  | insertSession | updateSession | deleteSession | deleteSessionsByUserID | deleteExpiredSessions =>
      exact not_false
  | _ => exact sessions.elim

/-- What a request may write, apart from the handlers of comments and users, leaves comments alone. -/
theorem Sanctioned.quiet {host : Host} {req : Request} {past : Past} {w : Write}
    (sanctioned : Sanctioned host req past w) (quiet : req.TouchesComments = false) : ¬ w.OnComments := by
  cases sanctioned with
  | createComment | putComment | deleteComment | deleteIssue | deleteUser => exact nomatch quiet
  | session sessions => exact sessions.quiet
  | _ => exact not_false

section Others

variable {host : Host} {s s' : Store} {req : Request} {response : Response}

theorem quiet_step (responds : Responds Query.sound host s req response s')
    (quiet : req.TouchesComments = false) : CommentStep s req response s' := by
  obtain ⟨trace, current, run⟩ := responds.serves
  refine .other quiet (run.sanctioned_invariant (fun _ t => t.comments = s.comments) rfl
    (fun _ _ _ _ _ same => same) fun _ w rows past before after sanctioned applied same => ?_)
  rw [Write.comments_kept (sanctioned.quiet quiet) applied, same]

theorem cascading_step (responds : Responds Query.sound host s req response s')
    (cascades : req.Cascades = true) : CommentStep s req response s' := by
  obtain ⟨trace, current, run⟩ := responds.serves
  refine .cascaded cascades (run.sanctioned_invariant (fun _ t => ∀ key row,
    t.comments.get? key = some row → s.comments.get? key = some row) (fun _ _ found => found)
    (fun _ _ _ _ _ left => left) fun _ w rows past before after sanctioned applied left key row found => ?_)
  refine left key row ?_
  cases sanctioned with
  | deleteIssue => exact deleteIssue_comments applied found
  | history =>
      rw [Write.comments_kept (by exact not_false) applied] at found
      exact found
  | session sessions =>
      rw [Write.comments_kept sessions.quiet applied] at found
      exact found
  | _ => exact nomatch cascades

/-- **What any request does to the comments.** -/
theorem Responds.commentStep (responds : Responds Query.sound host s req response s') :
    CommentStep s req response s' := by
  have tame := tame_tried Query.sound
  have fails : ∀ {req : Request} response, response.Refused → CommentStep s req response s :=
    fun _ refused => .refused refused rfl
  cases req with
  | createComment caller pId iId body =>
      refine responds.ends (withIssue_ensures tame fails fun issueID row tasks path found => ?_)
      subst path
      exact handleCreateComment_step
  | putComment caller pId iId id body =>
      refine responds.ends (withIssueResource_ensures tame fails fun issueID key row tasks path own found => ?_)
      subst path own
      exact handlePutComment_step found
  | deleteComment caller pId iId id =>
      refine responds.ends (withIssueResource_ensures tame fails fun issueID key row tasks path own found => ?_)
      subst path own
      exact handleDeleteComment_step found
  | deleteUser caller id body =>
      refine responds.ends (withResource_ensures fails fun key _ own => ?_)
      subst own
      exact handleDeleteUser_step
  | deleteIssue => exact cascading_step responds rfl
  | _ => exact quiet_step responds rfl

end Others

/-! ### Comments and records -/

/-- The comment is as its record tells; a creator that has been deleted is forgotten. -/
structure CommentRecord.Describes (record : CommentRecord) (deleted : List Int) (row : CommentRow) : Prop where
  issue : row.issueID = record.issueID
  body : row.body = record.body
  edited : row.edited = record.edited
  author : row.userID = if record.creator ∈ deleted then none else nullableUserID (some record.creator)

/-- **Every comment is as the log tells**, and none is missing but those of deleted issues. -/
structure CommentsOwned (log : List (Request × Response)) (s : Store) : Prop where
  described : ∀ id row, s.comments.get? id = some row →
    ∃ record, recordOf log id = some record ∧ record.Describes (deletedUsers log) row
  kept : (∀ entry ∈ log, entry.1.Cascades = false) →
    ∀ id record, recordOf log id = some record → ∃ row, s.comments.get? id = some row
  gone : ∀ id ∈ deletedUsers log, id ≤ s.users.seq ∧ s.users.get? id = none

/-- A deleted user does not come back. -/
theorem stay_deleted {s s' : Store} (evolves : s.Evolves s') {id : Int}
    (gone : id ≤ s.users.seq ∧ s.users.get? id = none) : id ≤ s'.users.seq ∧ s'.users.get? id = none := by
  refine ⟨gone.1.trans evolves.users.seq_le, ?_⟩
  cases found : s'.users.get? id with
  | none => rfl
  | some row =>
      obtain ⟨_, there, _⟩ := evolves.users.old id row gone.1 found
      exact nomatch gone.2.symm.trans there

section Records

variable {log : List (Request × Response)} {s s' : Store} {req : Request} {response : Response} {id : Int}

theorem recordOf_refused (refused : response.Refused) :
    recordOf ((req, response) :: log) id = recordOf log id := if_pos refused

theorem deletedUsers_refused (refused : response.Refused) :
    deletedUsers ((req, response) :: log) = deletedUsers log := if_pos refused

theorem recordOf_other (other : req.WritesComment = false) :
    recordOf ((req, response) :: log) id = recordOf log id := by
  show recordAfter req response id (recordOf log id) = recordOf log id
  unfold recordAfter
  split
  · rfl
  · cases req with
    | createComment | putComment | deleteComment => exact nomatch other
    | _ => rfl

theorem deletedUsers_other (other : req.deletedUser = none) :
    deletedUsers ((req, response) :: log) = deletedUsers log := by
  show (if response.Refused then _ else req.deletedUser.toList ++ deletedUsers log) = _
  rw [other]
  split <;> rfl

theorem writesComment_of_quiet (quiet : req.TouchesComments = false) :
    req.WritesComment = false ∧ req.deletedUser = none ∧ req.Cascades = false := by
  cases req with
  | createComment | putComment | deleteComment | deleteUser | deleteIssue => exact nomatch quiet
  | _ => exact ⟨rfl, rfl, rfl⟩

/-- A user that a new row refers to has not been deleted. -/
theorem CommentsOwned.author (owned : CommentsOwned log s) {creator : Int}
    (exists_ : refExists s.users (nullableUserID (some creator)) = true) :
    nullableUserID (some creator) =
      if creator ∈ deletedUsers log then none else nullableUserID (some creator) := by
  split
  · next deleted =>
      have gone := (owned.gone creator deleted).2
      by_cases nobody : creator = 0
      · rw [nobody]
        rfl
      · have names : nullableUserID (some creator) = some creator :=
          Option.filter_some_pos (by simpa using nobody)
        rw [names] at exists_
        obtain ⟨_, found⟩ := Option.isSome_iff_exists.mp exists_
        exact nomatch gone.symm.trans found
  · rfl

theorem recordOf_created {caller : Caller} {pId : Option Int} {issueID new : Int} {sent : Comment}
    (accepted : ¬ response.Refused) (named : response.commentID = some new) :
    recordOf ((.createComment caller pId (some issueID) (.json sent), response) :: log) id =
      if id = new then some ⟨issueID, caller.userID, commentBody sent, false⟩ else recordOf log id := by
  show (if response.Refused then _ else if response.commentID = some id then _ else _) = _
  rw [if_neg accepted, named]
  by_cases own : id = new
  · rw [if_pos own, if_pos (congrArg some own.symm)]
  · rw [if_neg own, if_neg fun same => own (Option.some.inj same).symm]

theorem recordOf_edited {caller : Caller} {pId iId : Option Int} {key : Int} {sent : Comment}
    (accepted : ¬ response.Refused) :
    recordOf ((.putComment caller pId iId (some key) (.json sent), response) :: log) id =
      if key = id then (recordOf log id).map fun old => { old with body := commentBody sent, edited := true }
      else recordOf log id := if_neg accepted

theorem recordOf_deleted {caller : Caller} {pId iId : Option Int} {key : Int}
    (accepted : ¬ response.Refused) :
    recordOf ((.deleteComment caller pId iId (some key), response) :: log) id =
      if key = id then none else recordOf log id := if_neg accepted

theorem deletedUsers_deleted {caller : Caller} {body : Body AdminPasswordRequest}
    (accepted : ¬ response.Refused) :
    deletedUsers ((.deleteUser caller (some id) body, response) :: log) = id :: deletedUsers log :=
  if_neg accepted

/-- A user that is deleted is forgotten as the creator. -/
theorem forget_creator {id creator : Int} {deleted : List Int} :
    forget id (if creator ∈ deleted then none else nullableUserID (some creator)) =
      if creator ∈ id :: deleted then none else nullableUserID (some creator) := by
  unfold forget nullableUserID
  rw [Option.filter_some]
  grind

/-! ### One request, by what it does -/

section Steps

variable (owned : CommentsOwned log s) (evolves : s.Evolves s')

include owned evolves

/-- Nothing to record. -/
theorem CommentsOwned.same (record : ∀ id, recordOf ((req, response) :: log) id = recordOf log id)
    (users : deletedUsers ((req, response) :: log) = deletedUsers log)
    (comments : ∀ id row, s'.comments.get? id = some row → s.comments.get? id = some row)
    (left : req.Cascades = false → s'.comments = s.comments) : CommentsOwned ((req, response) :: log) s' where
  described id row found := by
    rw [record, users]
    exact owned.described id row (comments id row found)
  kept none id told recorded := by
    rw [record] at recorded
    rw [left (none _ List.mem_cons_self)]
    exact owned.kept (fun entry member => none entry (List.mem_cons_of_mem _ member)) id told recorded
  gone id member := by
    rw [users] at member
    exact stay_deleted evolves (owned.gone id member)

/-- A new comment. -/
theorem CommentsOwned.created {caller : Caller} {pId : Option Int} {issueID : Int} {sent : Comment}
    {now : Instant} (accepted : ¬ response.Refused) (named : response.commentID = some s.comments.nextId)
    (author : refExists s.users (nullableUserID (some caller.userID)) = true)
    (stored : s'.comments = s.comments.insert
      ⟨issueID, nullableUserID (some caller.userID), commentBody sent, false, now, now⟩) :
    CommentsOwned ((.createComment caller pId (some issueID) (.json sent), response) :: log) s' where
  described id row found := by
    rw [recordOf_created accepted named, deletedUsers_other rfl]
    rw [stored, Table.get?_insert] at found
    split at found
    · next new =>
        cases found
        rw [if_pos (show id = s.comments.nextId from new)]
        exact ⟨_, rfl, rfl, rfl, rfl, owned.author author⟩
    · next old =>
        rw [if_neg (show id ≠ s.comments.nextId from old)]
        exact owned.described id row found
  kept none id told recorded := by
    rw [recordOf_created accepted named] at recorded
    rw [stored]
    by_cases new : id = s.comments.nextId
    · rw [new]
      exact ⟨_, Table.get?_insert_self _ _⟩
    · rw [if_neg new] at recorded
      obtain ⟨row, found⟩ := owned.kept (fun entry member => none entry (List.mem_cons_of_mem _ member)) id told
        recorded
      exact ⟨row, (Table.get?_insert_of_le _ _ (Table.get?_le_seq found).2).trans found⟩
  gone id member := by
    rw [deletedUsers_other rfl] at member
    exact stay_deleted evolves (owned.gone id member)

/-- A comment with a new body. -/
theorem CommentsOwned.edited {caller : Caller} {pId iId : Option Int} {key : Int} {sent : Comment}
    {row : CommentRow} {now : Instant} (accepted : ¬ response.Refused)
    (found : s.comments.get? key = some row)
    (stored : ∀ id, s'.comments.get? id =
      if id = key then some { row with body := commentBody sent, edited := true, updatedAt := now }
      else s.comments.get? id) :
    CommentsOwned ((.putComment caller pId iId (some key) (.json sent), response) :: log) s' where
  described id row' found' := by
    rw [recordOf_edited accepted, deletedUsers_other rfl]
    rw [stored] at found'
    by_cases own : id = key
    · subst own
      rw [if_pos rfl] at found'
      cases found'
      obtain ⟨record, told, describes⟩ := owned.described id row found
      rw [if_pos rfl, told]
      exact ⟨_, rfl, describes.issue, rfl, rfl, describes.author⟩
    · rw [if_neg own] at found'
      rw [if_neg (Ne.symm own)]
      exact owned.described id row' found'
  kept none id told recorded := by
    rw [stored]
    by_cases own : id = key
    · exact ⟨_, if_pos own⟩
    · rw [recordOf_edited accepted, if_neg (Ne.symm own)] at recorded
      rw [if_neg own]
      exact owned.kept (fun entry member => none entry (List.mem_cons_of_mem _ member)) id told recorded
  gone id member := by
    rw [deletedUsers_other rfl] at member
    exact stay_deleted evolves (owned.gone id member)

/-- A comment less. -/
theorem CommentsOwned.deleted {caller : Caller} {pId iId : Option Int} {key : Int}
    (accepted : ¬ response.Refused)
    (stored : ∀ id, s'.comments.get? id = if id = key then none else s.comments.get? id) :
    CommentsOwned ((.deleteComment caller pId iId (some key), response) :: log) s' where
  described id row found := by
    rw [stored] at found
    by_cases own : id = key
    · rw [if_pos own] at found
      exact nomatch found
    · rw [if_neg own] at found
      rw [recordOf_deleted accepted, if_neg (Ne.symm own), deletedUsers_other rfl]
      exact owned.described id row found
  kept none id told recorded := by
    rw [recordOf_deleted accepted] at recorded
    by_cases own : id = key
    · rw [if_pos own.symm] at recorded
      exact nomatch recorded
    · rw [if_neg (Ne.symm own)] at recorded
      rw [stored, if_neg own]
      exact owned.kept (fun entry member => none entry (List.mem_cons_of_mem _ member)) id told recorded
  gone id member := by
    rw [deletedUsers_other rfl] at member
    exact stay_deleted evolves (owned.gone id member)

/-- A user less. -/
theorem CommentsOwned.userDeleted {caller : Caller} {key : Int} {body : Body AdminPasswordRequest}
    (accepted : ¬ response.Refused) (given : key ≤ s'.users.seq) (gone : s'.users.get? key = none)
    (stored : ∀ id, s'.comments.get? id =
      (s.comments.get? id).map fun row => { row with userID := forget key row.userID }) :
    CommentsOwned ((.deleteUser caller (some key) body, response) :: log) s' where
  described id row found := by
    rw [stored] at found
    obtain ⟨old, there, rfl⟩ := Option.map_eq_some_iff.mp found
    obtain ⟨record, told, describes⟩ := owned.described id old there
    rw [recordOf_other rfl, deletedUsers_deleted accepted]
    refine ⟨record, told, describes.issue, describes.body, describes.edited, ?_⟩
    show forget key old.userID = _
    rw [describes.author, forget_creator]
  kept none id told recorded := by
    rw [recordOf_other rfl] at recorded
    obtain ⟨row, found⟩ := owned.kept (fun entry member => none entry (List.mem_cons_of_mem _ member)) id told
      recorded
    rw [stored, found]
    exact ⟨_, rfl⟩
  gone id member := by
    rw [deletedUsers_deleted accepted] at member
    rcases List.mem_cons.mp member with rfl | before
    · exact ⟨given, gone⟩
    · exact stay_deleted evolves (owned.gone id before)

end Steps

/-- **One request keeps comments as the log tells.** -/
theorem CommentsOwned.next {host : Host} (owned : CommentsOwned log s)
    (responds : Responds Query.sound host s req response s') :
    CommentsOwned ((req, response) :: log) s' := by
  obtain ⟨trace, current, run⟩ := responds.serves
  have evolves : s.Evolves s' := steps_evolve run.steps
  cases responds.commentStep with
  | refused cause same =>
      exact owned.same evolves (fun _ => recordOf_refused cause) (deletedUsers_refused cause)
        (fun _ _ found => same ▸ found) fun _ => same
  | other quiet same =>
      obtain ⟨writes, users, _⟩ := writesComment_of_quiet quiet
      exact owned.same evolves (fun _ => recordOf_other writes) (deletedUsers_other users)
        (fun _ _ found => same ▸ found) fun _ => same
  | cascaded cascades left =>
      cases req with
      | deleteIssue =>
          exact owned.same evolves (fun _ => recordOf_other rfl) (deletedUsers_other rfl) left nofun
      | _ => exact nomatch cascades
  | created accepted named author stored => exact owned.created evolves accepted named author stored
  | edited accepted _ found stored => exact owned.edited evolves accepted found stored
  | deleted accepted _ stored => exact owned.deleted evolves accepted stored
  | userDeleted accepted given gone stored => exact owned.userDeleted evolves accepted given gone stored

end Records

/-! ### Whole runs -/

/-- What a request that is served next does to the comments: **whoever edits or deletes one may do so, and
nobody else changes any.** -/
structure CommentsLawful (s : Store) (req : Request) (response : Response) (s' : Store) : Prop where
  authorised : ∀ caller iId id, req.changesComment = some (caller, iId, id) → ¬ response.Refused →
    ∃ issueID key, iId = some issueID ∧ id = some key ∧ MayChange s caller issueID key
  untouched : req.TouchesComments = false ∨ (response.Refused ∧ req.Cascades = false) →
    s'.comments = s.comments

theorem CommentStep.lawful {s s' : Store} {req : Request} {response : Response}
    (step : CommentStep s req response s') : CommentsLawful s req response s' := by
  have loud : ∀ {req : Request}, req.TouchesComments = true → ¬ response.Refused →
      ¬ (req.TouchesComments = false ∨ (response.Refused ∧ req.Cascades = false)) := by
    rintro req touches accepted (quiet | ⟨refused, _⟩)
    · exact nomatch touches.symm.trans quiet
    · exact accepted refused
  cases step with
  | created accepted => exact ⟨nofun, fun untouched => absurd untouched (loud rfl accepted)⟩
  | @edited caller _ issueID id _ _ _ _ _ accepted may =>
      refine ⟨fun caller' iId id' same _ => ?_, fun untouched => absurd untouched (loud rfl accepted)⟩
      cases same
      exact ⟨issueID, id, rfl, rfl, may⟩
  | @deleted caller _ issueID id _ _ accepted may =>
      refine ⟨fun caller' iId id' same _ => ?_, fun untouched => absurd untouched (loud rfl accepted)⟩
      cases same
      exact ⟨issueID, id, rfl, rfl, may⟩
  | userDeleted accepted => exact ⟨nofun, fun untouched => absurd untouched (loud rfl accepted)⟩
  | refused cause same => exact ⟨fun _ _ _ _ accepted => absurd cause accepted, fun _ => same⟩
  | cascaded cascades left =>
      cases req with
      | deleteIssue => exact ⟨nofun, fun untouched => untouched.elim nofun fun both => nomatch both.2⟩
      | _ => exact nomatch cascades
  | other quiet same =>
      refine ⟨fun caller iId id changes _ => ?_, fun _ => same⟩
      cases req with
      | putComment | deleteComment => exact nomatch quiet
      | _ => exact nomatch changes

/-- The log of a script, if each request comes to its end. -/
def logOf (host : Host) : List (Request × List (Unit × Input)) → Option (List (Request × Response))
  | [] => some []
  | (req, moves) :: earlier => do
      let log ← logOf host earlier
      let response ← answered host (executeAll host createTables earlier) req moves
      return (req, response) :: log

theorem Dialogue.of_script {host : Host} {script : List (Request × List (Unit × Input))}
    {log : List (Request × Response)} (logged : logOf host script = some log) :
    Dialogue host log (executeAll host createTables script) := by
  induction script generalizing log with
  | nil =>
      cases logged
      exact .nil
  | cons entry earlier ih =>
      obtain ⟨before, earlier_, rest⟩ := Option.bind_eq_some_iff.mp logged
      obtain ⟨response, done, same⟩ := Option.bind_eq_some_iff.mp rest
      cases same
      exact .next (ih earlier_) (Responds.of_moves Query.sound done)

/-- The first user comments on an issue, and then edits the comment. -/
def editedComment : List (Request × List (Unit × Input)) :=
  [(.putComment sampleAdmin (some 1) (some 1) (some 1) (.json { body := " Fixed in 1.2 " }),
      stepsOf () 9 { instant := 4 }),
    (.createComment sampleAdmin (some 1) (some 1) (.json { body := "Fixed?" }), stepsOf () 9 { instant := 3 })]
    ++ withCrash

end Wuflow

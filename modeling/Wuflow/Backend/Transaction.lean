/-
**`DeleteUser`, `UpdateIssuePositions` and `UpdateTaskPositions`, statement by statement.**

The store has each of them as one write (`Store.deleteUser`, `applyPositionUpdates`). Here they are the
programs of `db.go`: transactions whose statements are sent one at a time, each of which may fail, with the
deferred rollback.

A `Connection` holds the committed database and, between `BEGIN` and the end of the transaction, its
working copy. `Statement.attempt` is what a statement does to it: it is performed, or it fails and changes
nothing; a commit that fails gives the working copy up.
-/

import Wuflow.Backend.Db
import Wuflow.Interleave.Alone
import Wuflow.Store.HistoryText

namespace Wuflow

open Calendar (Instant)
open Interleave (Prog Stopping)
open Relational (Table)

/-! ### The three updates -/

/-- A row that refers to `id` no longer does. -/
def forget (id : Int) (reference : Option Int) : Option Int := if reference = some id then none else reference

/-- The issues assigned to a user. -/
def assignedTo (id : Int) (_ : Int) (row : IssueRow) : Bool := row.assigneeID == some id

/-- The row that `INSERT INTO issue_history … SELECT` inserts for an issue. -/
def unassignedHistory (actor : Option Int) (from_ : String) (created : Instant) (issueID : Int) :
    StoredHistory :=
  ⟨issueID, actor, .updated, jsonObject [("field", "assignee"), ("from", from_)], created⟩

/-- `DELETE FROM users`, with the foreign-key actions. -/
def Database.deleteUserRow (db : Database) (id : Int) : Database :=
  let gone := fun key : Int => key == id
  { db with
    users := db.users.delete fun key _ => gone key
    sessions := db.sessions.delete fun _ row => gone row.userID
    releases := setNull db.releases gone (·.ownerID) fun row => { row with ownerID := none }
    issues := setNull (setNull (setNull db.issues gone (·.creatorID) IssueRow.clearCreator) gone
      (·.assigneeID) IssueRow.clearAssignee) gone (·.updatedBy) IssueRow.clearUpdater
    history := setNull db.history gone (·.userID) fun row => { row with userID := none }
    comments := setNull db.comments gone (·.userID) fun row => { row with userID := none } }

/-- `lastActiveSysAdminCond`. -/
def Database.lastActiveSysAdmin (db : Database) (row : UserRow) : Bool :=
  row.role == .sysadmin && row.active &&
    db.users.count (fun _ other => other.role == .sysadmin && other.active) ≤ 1

/-- An issue of the project that is not archived: `project_id = ? AND status != ?`. -/
def reorderableIssue (projectID : Int) (row : IssueRow) : Bool :=
  row.projectID == projectID && row.status != .archive

/-- A task of the issue: `issue_id = ?`. -/
def reorderableTask (issueID : Int) (row : TaskRow) : Bool := row.issueID == issueID

/-- The writes of the transactions. -/
inductive Update
  | insertHistory (id : Int) (actor : Option Int) (from_ : String)
  | unassign (id : Int) (actor : Option Int) (now : Instant)
  | deleteUser (id : Int)
  | setIssuePosition (projectID : Int) (u : PositionUpdate)
  | setTaskPosition (issueID : Int) (u : PositionUpdate)

/-- The rows a write changes and the database after it, or the constraint it violates; `created` is
`CURRENT_TIMESTAMP`. -/
def Update.apply (created : Instant) : Update → Database → Except Err (Int × Database)
  | .insertHistory id actor from_, db => do
      let rows := (db.issues.entries.filter fun entry => assignedTo id entry.1 entry.2).map
        fun entry => unassignedHistory actor from_ created entry.1
      require (rows.isEmpty || refExists db.users actor) .foreignKey
      return (rows.length, { db with history := db.history.insertAll rows })
  | .unassign id actor now, db => do
      require (db.issues.count (assignedTo id) == 0 || refExists db.users actor) .foreignKey
      return (db.issues.count (assignedTo id),
        { db with issues := db.issues.update (assignedTo id) (IssueRow.unassign actor now) })
  | .deleteUser id, db =>
      let selects := fun (key : Int) (row : UserRow) => key == id && !db.lastActiveSysAdmin row
      .ok (db.users.count selects, if db.users.count selects = 0 then db else db.deleteUserRow id)
  | .setIssuePosition projectID u, db =>
      let selects := fun (key : Int) (row : IssueRow) => key == u.id && reorderableIssue projectID row
      .ok (db.issues.count selects,
        { db with issues := db.issues.update selects (IssueRow.setPosition u.position) })
  | .setTaskPosition issueID u, db =>
      let selects := fun (key : Int) (row : TaskRow) => key == u.id && reorderableTask issueID row
      .ok (db.tasks.count selects,
        { db with tasks := db.tasks.update selects (TaskRow.setPosition u.position) })

/-! ### Statements on a connection -/

structure Connection where
  committed : Database
  tx : Option Database := none

inductive Statement
  | beginTx
  | prepare
  | exec (u : Update)
  | rowsAffected (rows : Int)
  | countUser (id : Int)
  | now
  | commit
  | rollback

abbrev Statement.Answer : Statement → Type
  | .beginTx | .prepare | .commit => Except Err Unit
  | .exec _ | .rowsAffected _ | .countUser _ => Except Err Int
  | .now => Instant
  | .rollback => Unit

/-- **What a statement does, when it does not fail.** Within the transaction, a write that violates a
constraint leaves the working copy as it is. -/
def Statement.perform : (st : Statement) → Connection → st.Answer → Connection → Prop
  | .beginTx, c, answer, c' => answer = .ok () ∧ c' = { c with tx := some c.committed }
  | .prepare, c, answer, c' => answer = .ok () ∧ c' = c
  | .exec u, c, answer, c' =>
      ∃ created db, c.tx = some db ∧
        match u.apply created db with
        | .ok (rows, db') => answer = .ok rows ∧ c' = { c with tx := some db' }
        | .error err => answer = .error err ∧ c' = c
  | .rowsAffected rows, c, answer, c' => answer = .ok rows ∧ c' = c
  | .countUser id, c, answer, c' =>
      ∃ db, c.tx = some db ∧ answer = .ok (db.users.count fun key _ => key == id) ∧ c' = c
  | .now, c, _, c' => c' = c
  | .commit, c, answer, c' => ∃ db, c.tx = some db ∧ answer = .ok () ∧ c' = { committed := db }
  | .rollback, c, _, c' => c' = { committed := c.committed }

/-- **A statement that fails.** -/
def Statement.fail : (st : Statement) → Connection → st.Answer → Connection → Prop
  | .beginTx, c, answer, c' | .prepare, c, answer, c' => answer = .error .fault ∧ c' = c
  | .exec _, c, answer, c' | .rowsAffected _, c, answer, c' | .countUser _, c, answer, c' =>
      answer = .error .fault ∧ c' = c
  | .commit, c, answer, c' => answer = .error .fault ∧ c' = { committed := c.committed }
  | .now, _, _, _ | .rollback, _, _, _ => False

/-- **A statement on a connection where statements may fail**, or may not. -/
def Statement.world (faults : Prop) (st : Statement) (c : Connection) (answer : st.Answer)
    (c' : Connection) : Prop := st.perform c answer c' ∨ faults ∧ st.fail c answer c'

/-- **A statement on a connection where any statement may fail.** -/
def Statement.attempt (st : Statement) (c : Connection) (answer : st.Answer) (c' : Connection) : Prop :=
  st.perform c answer c' ∨ st.fail c answer c'

/-! ### The program -/

/-- The functions of the transaction stop with the error they return. -/
abbrev Transaction := Stopping Err Statement.Answer

def Transaction.call {α : Type} (st : Statement) (result : st.Answer → Except Err α) : Transaction α :=
  ExceptT.mk (result <$> (Prog.call st : Prog Statement.Answer _))

def Transaction.exec (u : Update) : Transaction Int := .call (.exec u) fun answer => answer

/-- `res.RowsAffected()`. -/
def Transaction.rowsAffected (rows : Int) : Transaction Int := .call (.rowsAffected rows) fun answer => answer

/-- `userWriteErr`: a guarded write that changed no row. -/
def Transaction.userWriteErr (res : Int) (userExists : Transaction Bool) : Transaction Unit := do
  let rows ← Transaction.rowsAffected res
  if rows = 0 then
    let exists_ ← userExists
    throw (if exists_ then .lastSysAdmin else .userNotFound)

/-- `checkRowsAffected`. -/
def Transaction.checkRowsAffected (res : Int) (notFoundErr : Err) : Transaction Unit := do
  let rows ← Transaction.rowsAffected res
  if rows = 0 then throw notFoundErr

/-- The loop of `applyPositionUpdates`. -/
def Transaction.executeUpdates (query : PositionUpdate → Update) (notFoundErr : Err) :
    List PositionUpdate → Transaction Unit
  | [] => return ()
  | u :: updates => do
      let res ← Transaction.exec (query u)
      Transaction.checkRowsAffected res notFoundErr
      Transaction.executeUpdates query notFoundErr updates

/-- The statements of `applyPositionUpdates` between `BeginTx` and the deferred rollback; closing the
prepared statement changes nothing. -/
def Transaction.positionStatements (query : PositionUpdate → Update) (updates : List PositionUpdate)
    (notFoundErr : Err) : Transaction Unit := do
  Transaction.call .prepare fun answer => answer
  Transaction.executeUpdates query notFoundErr updates
  Transaction.call .commit fun answer => answer

/-- The statements of `DeleteUser` between `BeginTx` and the deferred rollback. -/
def Transaction.deleteUserStatements (id : Int) (actor : Option Int) (userName : String) :
    Transaction Int := do
  let _ ← Transaction.exec (.insertHistory id actor (userName ++ " (user deleted)"))
  let now ← Transaction.call .now .ok
  let unassign ← Transaction.exec (.unassign id actor now)
  let unassigned ← Transaction.rowsAffected unassign
  let res ← Transaction.exec (.deleteUser id)
  let userExists := Transaction.call (.countUser id) fun count => count.map fun n => decide (0 < n)
  Transaction.userWriteErr res userExists
  Transaction.call .commit fun answer => answer
  return unassigned

/-- **`DeleteUser`.** -/
def Transaction.deleteUser (id actorID : Int) (userName : String) :
    Prog Statement.Answer (Except Err Int) := do
  match ← (Prog.call Statement.beginTx : Prog Statement.Answer (Except Err Unit)) with
  | .error err => return .error err
  | .ok _ =>
      let result ← (Transaction.deleteUserStatements id (nullableUserID (some actorID)) userName).run
      let _ ← (Prog.call Statement.rollback : Prog Statement.Answer Unit)
      return result

/-- **`applyPositionUpdates`.** -/
def Transaction.applyPositionUpdates (query : PositionUpdate → Update) (updates : List PositionUpdate)
    (notFoundErr : Err) : Prog Statement.Answer (Except Err Unit) := do
  match ← (Prog.call Statement.beginTx : Prog Statement.Answer (Except Err Unit)) with
  | .error err => return .error err
  | .ok _ =>
      let result ← (Transaction.positionStatements query updates notFoundErr).run
      let _ ← (Prog.call Statement.rollback : Prog Statement.Answer Unit)
      return result

/-- **`UpdateIssuePositions`.** -/
def Transaction.updateIssuePositions (projectID : Int) (updates : List PositionUpdate) :
    Prog Statement.Answer (Except Err Unit) :=
  Transaction.applyPositionUpdates (.setIssuePosition projectID) updates .issueNotFound

/-- **`UpdateTaskPositions`.** -/
def Transaction.updateTaskPositions (issueID : Int) (updates : List PositionUpdate) :
    Prog Statement.Answer (Except Err Unit) :=
  Transaction.applyPositionUpdates (.setTaskPosition issueID) updates .taskNotFound

end Wuflow

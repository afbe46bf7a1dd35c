/-
**Deleting a user is all or nothing.**

`UserDeleted` says what is to be true of the database after a user has been deleted: which rows change, how,
and that nothing else does. The program of `DeleteUser` gets there in four statements of one transaction.

* `deleteUser_ensures` — whatever statements fail, it ends either with an error and the database as it was,
  or with the number of issues that were assigned and the database `deletedBy` describes.
* `deletedBy_userDeleted` — that database is as it is to be.
* `user_deleted_or_unchanged` — both for a run of `DeleteUser`.
* `deleteUser_refines` — its success is that of the single write `Store.deleteUser` on the decoded database.
-/

import Wuflow.Backend.Transaction
import Wuflow.Store.Evolution

namespace Wuflow

open Calendar (Instant)
open Interleave (Prog Stopping Run Event Config)
open Interleave.Stopping (Ensures)
open Relational (Table)

/-! ### The purpose of the delete -/

/-- **The user `id` is deleted by `actor`**: `db'` is what `db` is to become. -/
structure UserDeleted (db : Database) (id actor : Int) (userName : String) (now : Instant) (count : Int)
    (db' : Database) : Prop where
  users : ∀ key, db'.users.get? key = if key = id then none else db.users.get? key
  sessions : ∀ key, db'.sessions.get? key = (db.sessions.get? key).filter fun row => row.userID != id
  unassigned : ∀ key row, db'.issues.get? key = some row → row.assigneeID ≠ some id
  /-- An issue that was assigned to the user. -/
  assigned : ∀ key row, db.issues.get? key = some row → row.assigneeID = some id →
    db'.issues.get? key = some
      { row with
        creatorID := forget id row.creatorID, assigneeID := none, updatedBy := some actor
        updatedAt := now }
  /-- Any other issue only loses its references to the user. -/
  spared : ∀ key row, db.issues.get? key = some row → row.assigneeID ≠ some id →
    db'.issues.get? key =
      some { row with creatorID := forget id row.creatorID, updatedBy := forget id row.updatedBy }
  noIssues : ∀ key, db.issues.get? key = none → db'.issues.get? key = none
  /-- The old history rows only lose their references to the user. -/
  oldHistory : ∀ key, key ≤ db.history.seq → db'.history.get? key =
    (db.history.get? key).map fun row => { row with userID := forget id row.userID }
  /-- Each issue that was assigned has exactly one new history row. -/
  entry : ∀ key row, db.issues.get? key = some row → row.assigneeID = some id →
    ∃ new entry, db.history.seq < new ∧ db'.history.get? new = some entry ∧ entry.issueID = key ∧
      entry.userID = some actor ∧ entry.event = .updated ∧
      unmarshalChangeData entry.data =
        some { field := "assignee", from_ := userName ++ " (user deleted)" } ∧
      ∀ other entry', db.history.seq < other → db'.history.get? other = some entry' →
        entry'.issueID = key → other = new
  /-- No other issue has one. -/
  noEntry : ∀ new entry, db.history.seq < new → db'.history.get? new = some entry →
    ∃ row, db.issues.get? entry.issueID = some row ∧ row.assigneeID = some id
  comments : ∀ key, db'.comments.get? key =
    (db.comments.get? key).map fun row => { row with userID := forget id row.userID }
  releases : ∀ key, db'.releases.get? key =
    (db.releases.get? key).map fun row => { row with ownerID := forget id row.ownerID }
  projects : db'.projects = db.projects
  tasks : db'.tasks = db.tasks
  labels : db'.labels = db.labels
  statusConfig : db'.statusConfig = db.statusConfig
  counted : count = db.issues.count (assignedTo id)

/-! ### What the statements do -/

/-- The history rows of the issues assigned to a user. -/
def unassignedRows (db : Database) (id : Int) (actor : Option Int) (from_ : String) (created : Instant) :
    List StoredHistory :=
  (db.issues.entries.filter fun entry => assignedTo id entry.1 entry.2).map
    fun entry => unassignedHistory actor from_ created entry.1

/-- The database after the four statements. -/
def deletedBy (db : Database) (id : Int) (actor : Option Int) (userName : String) (now created : Instant) :
    Database :=
  Database.deleteUserRow
    { db with
      history := db.history.insertAll
        (unassignedRows db id actor (userName ++ " (user deleted)") created)
      issues := db.issues.update (assignedTo id) (IssueRow.unassign actor now) }
    id

theorem insertHistory_apply {id : Int} {actor : Option Int} {from_ : String} {created : Instant}
    {db db' : Database} {rows : Int}
    (applied : (Update.insertHistory id actor from_).apply created db = .ok (rows, db')) :
    db' = { db with history := db.history.insertAll (unassignedRows db id actor from_ created) } := by
  obtain ⟨_, rest⟩ := require_bind_ok.mp applied
  cases rest
  rfl

theorem unassign_apply {id : Int} {actor : Option Int} {now created : Instant} {db db' : Database}
    {rows : Int} (applied : (Update.unassign id actor now).apply created db = .ok (rows, db')) :
    rows = db.issues.count (assignedTo id) ∧
      (db.issues.count (assignedTo id) == 0 || refExists db.users actor) = true ∧
      db' = { db with issues := db.issues.update (assignedTo id) (IssueRow.unassign actor now) } := by
  obtain ⟨refers, rest⟩ := require_bind_ok.mp applied
  cases rest
  exact ⟨rfl, refers, rfl⟩

theorem deleteUser_apply {id : Int} {created : Instant} {db db' : Database} {rows : Int}
    (applied : (Update.deleteUser id).apply created db = .ok (rows, db')) (changed : rows ≠ 0) :
    db.users.holds id (fun row => !db.lastActiveSysAdmin row) = true ∧ db' = db.deleteUserRow id := by
  obtain ⟨rfl, rfl⟩ := Prod.mk.inj (Except.ok.inj applied)
  refine ⟨?_, if_neg changed⟩
  by_contra none
  refine changed (Table.count_eq_zero_iff.mpr fun key row found => ?_)
  by_contra selected
  obtain ⟨same, deletable⟩ := Bool.and_eq_true_iff.mp (Bool.eq_true_of_not_eq_false selected)
  exact none (Table.holds_eq_true_iff.mpr ⟨row, beq_iff_eq.mp same ▸ found, deletable⟩)

/-! ### The delete as a single write -/

theorem decode_unassignedHistory (actor : Option Int) (userName : String) (created : Instant)
    (issueID : Int) :
    (unassignedHistory actor (userName ++ " (user deleted)") created issueID).decode =
      unassignedEntry actor userName created issueID := by
  unfold StoredHistory.decode unassignedHistory unassignedEntry
  simp only [unmarshalChangeData_jsonObject, Option.getD_some]

theorem decode_deleteUserRow (db : Database) (id : Int) :
    (db.deleteUserRow id).decode = db.decode.deleteUserRow id := by
  have history : (setNull db.history (· == id) (·.userID) fun row => { row with userID := none }).map
      StoredHistory.decode = setNull (db.history.map StoredHistory.decode) (· == id) (·.userID)
        fun row => { row with userID := none } :=
    Table.map_update db.history StoredHistory.decode (fun _ _ => rfl) fun _ => rfl
  unfold Database.decode Store.deleteUserRow
  simp only [← history]
  rfl

/-- **The four statements are the single write** on the store that the database stands for. -/
theorem decode_deletedBy {db : Database} {id : Int} {actor : Option Int} {userName : String}
    {now created : Instant}
    (refers : (db.issues.count (assignedTo id) == 0 || refExists db.users actor) = true)
    (deletable : db.users.holds id (fun row => !db.lastActiveSysAdmin row) = true) :
    db.decode.deleteUser id actor userName now created =
      .ok (db.issues.count (assignedTo id), (deletedBy db id actor userName now created).decode) := by
  have inserted : (db.history.insertAll
      (unassignedRows db id actor (userName ++ " (user deleted)") created)).map StoredHistory.decode =
      (db.issues.entries.filter fun entry => assignedTo id entry.1 entry.2).foldl
        (fun history entry => history.insert (unassignedEntry actor userName created entry.1))
        (db.history.map StoredHistory.decode) := by
    rw [Table.map_insertAll]
    unfold unassignedRows Table.insertAll
    rw [List.map_map, List.foldl_map]
    simp only [Function.comp_apply, decode_unassignedHistory]
  refine require_bind_ok.mpr ⟨refers, ?_⟩
  refine require_bind_ok.mpr ⟨?_, require_bind_ok.mpr ⟨deletable, ?_⟩⟩
  · exact Bool.or_eq_true_iff.mpr (.inl deletable)
  · unfold deletedBy
    rw [decode_deleteUserRow]
    unfold Database.decode
    simp only [inserted]
    rfl

/-! ### Within the transaction -/

section Rules

variable {α β : Type} {db tx : Database} {post : β → Connection → Prop} {stop : Err → Connection → Prop}

/-- A write of the transaction: only the working copy changes. -/
theorem exec_ensures {u : Update} {f : Int → Transaction β}
    (fails : ∀ err tx', stop err { committed := db, tx := some tx' })
    (next : ∀ created rows tx', u.apply created tx = .ok (rows, tx') →
      Ensures Statement.attempt post stop (f rows) { committed := db, tx := some tx' }) :
    Ensures Statement.attempt post stop (Transaction.exec u >>= f)
      { committed := db, tx := some tx } := by
  refine Ensures.bind (Ensures.query fun answer c' here => ?_)
  rcases here with ⟨created, tx', open_, performed⟩ | ⟨rfl, rfl⟩
  · cases open_
    split at performed
    · obtain ⟨rfl, rfl⟩ := performed
      exact next created _ _ ‹_›
    · obtain ⟨rfl, rfl⟩ := performed
      exact fails _ _
  · exact fails _ _

theorem rowsAffected_ensures {rows : Int} {f : Int → Transaction β}
    (fails : ∀ err tx', stop err { committed := db, tx := some tx' })
    (next : Ensures Statement.attempt post stop (f rows) { committed := db, tx := some tx }) :
    Ensures Statement.attempt post stop (Transaction.rowsAffected rows >>= f)
      { committed := db, tx := some tx } := by
  refine Ensures.bind (Ensures.query fun answer c' here => ?_)
  rcases here with ⟨rfl, rfl⟩ | ⟨rfl, rfl⟩
  · exact next
  · exact fails _ _

/-- A guarded write that changed no row ends the transaction with an error. -/
theorem userWriteErr_ensures {res id : Int} {f : Unit → Transaction β}
    (fails : ∀ err tx', stop err { committed := db, tx := some tx' })
    (next : res ≠ 0 →
      Ensures Statement.attempt post stop (f ()) { committed := db, tx := some tx }) :
    Ensures Statement.attempt post stop
      (Transaction.userWriteErr res
        (Transaction.call (.countUser id) fun count => count.map fun n => decide (0 < n)) >>= f)
      { committed := db, tx := some tx } := by
  refine Ensures.bind (rowsAffected_ensures fails ?_)
  by_cases none : res = 0
  · rw [if_pos none]
    refine Ensures.bind (Ensures.query fun answer c' here => ?_)
    rcases here with ⟨tx', open_, rfl, rfl⟩ | ⟨rfl, rfl⟩
    · exact fails _ _
    · exact fails _ _
  · rw [if_neg none]
    exact next none

end Rules

/-- `c` is where a successful delete leaves its connection. -/
structure Committed (db : Database) (id : Int) (actor : Option Int) (userName : String) (count : Int)
    (now created : Instant) (c : Connection) : Prop where
  counted : count = db.issues.count (assignedTo id)
  committed : c.committed = deletedBy db id actor userName now created
  refers : (db.issues.count (assignedTo id) == 0 || refExists db.users actor) = true
  deletable : db.users.holds id (fun row => !db.lastActiveSysAdmin row) = true

/-- The statements of the transaction: an error leaves the committed database as it was. -/
theorem deleteUserStatements_ensures (db : Database) (id : Int) (actor : Option Int)
    (userName : String) :
    Ensures Statement.attempt
      (fun count c => ∃ now created, Committed db id actor userName count now created c)
      (fun _ c => c.committed = db) (Transaction.deleteUserStatements id actor userName)
      { committed := db, tx := some db } := by
  have fails : ∀ (err : Err) (tx : Database),
      (fun (_ : Err) (c : Connection) => c.committed = db) err { committed := db, tx := some tx } :=
    fun _ _ => rfl
  refine exec_ensures fails fun created _ tx₁ applied => ?_
  obtain rfl := insertHistory_apply applied
  refine Ensures.bind (Ensures.query fun now c here => ?_)
  obtain rfl : c = _ := here.elim (fun same => same) fun never => never.elim
  refine exec_ensures fails fun _ unassigned tx₂ applied => ?_
  obtain ⟨counted, refers, rfl⟩ := unassign_apply applied
  refine rowsAffected_ensures fails (exec_ensures fails fun _ res tx₃ applied => ?_)
  refine userWriteErr_ensures fails fun changed => ?_
  obtain ⟨deletable, rfl⟩ := deleteUser_apply applied changed
  refine Ensures.bind (Ensures.query fun answer c here => ?_)
  rcases here with ⟨tx, open_, rfl, rfl⟩ | ⟨rfl, rfl⟩
  · cases open_
    exact ⟨now, created, counted, rfl, refers, deletable⟩
  · rfl

/-- **`DeleteUser` changes all or nothing.** -/
theorem deleteUser_ensures (db : Database) (id actorID : Int) (userName : String) :
    (Transaction.deleteUser id actorID userName).Ensures Statement.attempt
      (fun result c =>
        match result with
        | .ok count => ∃ now created,
            Committed db id (nullableUserID (some actorID)) userName count now created c
        | .error _ => c.committed = db)
      { committed := db } := by
  refine Prog.Ensures.bind fun answer c here => ?_
  rcases here with ⟨rfl, rfl⟩ | ⟨rfl, rfl⟩
  · refine Prog.Ensures.bind (Prog.Ensures.mono (fun result c holds => ?_)
      (deleteUserStatements_ensures db id (nullableUserID (some actorID)) userName))
    -- the deferred rollback
    intro _ c' here
    obtain rfl : c' = _ := here.elim (fun same => same) fun never => never.elim
    cases result with
    | ok count =>
        obtain ⟨now, created, counted, committed, refers, deletable⟩ := holds
        exact ⟨now, created, counted, committed, refers, deletable⟩
    | error err => exact holds
  · exact rfl

/-! ### What the database becomes -/

section Deleted

variable {id : Int}

/-- `ON DELETE SET NULL` forgets the deleted key; `set` sets the column of a row. -/
theorem get?_setNull {ρ : Type} {t : Table ρ} {reference : ρ → Option Int} {clear : ρ → ρ}
    (set : ρ → Option Int → ρ) (same : ∀ row, set row (reference row) = row)
    (clears : ∀ row, clear row = set row none) (key : Int) :
    (setNull t (· == id) reference clear).get? key =
      (t.get? key).map fun row => set row (forget id (reference row)) := by
  unfold setNull
  rw [Table.get?_update]
  congr 1
  funext row
  unfold forget
  by_cases mine : reference row = some id
  · rw [if_pos mine, ← clears, mine]
    simp
  · rw [if_neg mine, same]
    cases here : reference row with
    | none => simp
    | some other =>
        have differs : other ≠ id := fun found => mine (found ▸ here)
        simp [differs]

/-- The issues after the delete of the row. -/
theorem deleteUserRow_issue (db : Database) (key : Int) :
    (db.deleteUserRow id).issues.get? key = (db.issues.get? key).map fun row =>
      { row with
        creatorID := forget id row.creatorID, assigneeID := forget id row.assigneeID
        updatedBy := forget id row.updatedBy } := by
  show (setNull (setNull (setNull _ _ _ _) _ _ _) _ _ _).get? key = _
  rw [get?_setNull (fun (row : IssueRow) updatedBy => { row with updatedBy }) (fun _ => rfl)
      (fun row => show row.clearUpdater = _ from rfl),
    get?_setNull (fun (row : IssueRow) assigneeID => { row with assigneeID }) (fun _ => rfl)
      (fun row => show row.clearAssignee = _ from rfl),
    get?_setNull (fun (row : IssueRow) creatorID => { row with creatorID }) (fun _ => rfl)
      (fun row => show row.clearCreator = _ from rfl)]
  cases db.issues.get? key <;> rfl

/-- The new history rows are told apart by their issues. -/
theorem unassignedRows_apart (db : Database) (id : Int) (actor : Option Int) (from_ : String)
    (created : Instant) :
    ((unassignedRows db id actor from_ created).map StoredHistory.issueID).Nodup := by
  unfold unassignedRows
  rw [List.map_map]
  exact List.Nodup.sublist (List.Sublist.map _ List.filter_sublist) db.issues.nodup

variable {db : Database} {actor : Int} {userName : String} {now created : Instant}

/-- **The database after the four statements is as it is to be.** -/
theorem deletedBy_userDeleted (other : actor ≠ id) :
    UserDeleted db id actor userName now (db.issues.count (assignedTo id))
      (deletedBy db id (some actor) userName now created) := by
  have kept : forget id (some actor) = some actor := if_neg fun same => other (Option.some.inj same)
  have issues : ∀ key, (deletedBy db id (some actor) userName now created).issues.get? key =
      (db.issues.get? key).map fun row =>
        if row.assigneeID = some id then
          { row with
            creatorID := forget id row.creatorID, assigneeID := none, updatedBy := some actor
            updatedAt := now }
        else { row with creatorID := forget id row.creatorID, updatedBy := forget id row.updatedBy } := by
    intro key
    unfold deletedBy
    rw [deleteUserRow_issue, Table.get?_update, Option.map_map]
    congr 1
    funext row
    unfold assignedTo
    by_cases mine : row.assigneeID = some id
    · simp [mine, IssueRow.unassign, forget, other]
    · simp [mine, forget]
  have history : ∀ key, (deletedBy db id (some actor) userName now created).history.get? key =
      ((db.history.insertAll (unassignedRows db id (some actor) (userName ++ " (user deleted)")
        created)).get? key).map fun row => { row with userID := forget id row.userID } :=
    get?_setNull (fun (row : StoredHistory) userID => { row with userID }) (fun _ => rfl) fun _ => rfl
  refine
    { users := fun key => ?_
      sessions := fun key => ?_
      unassigned := fun key row found => ?_
      assigned := fun key row found mine => by rw [issues, found, Option.map_some, if_pos mine]
      spared := fun key row found others => by rw [issues, found, Option.map_some, if_neg others]
      noIssues := fun key none => by rw [issues, none, Option.map_none]
      oldHistory := fun key old => by rw [history, Table.get?_insertAll_of_le _ _ old]
      entry := fun key row found mine => ?_
      noEntry := fun new entry above found => ?_
      comments := get?_setNull (fun (row : CommentRow) userID => { row with userID }) (fun _ => rfl)
        fun _ => rfl
      releases := get?_setNull (fun (row : ReleaseRow) ownerID => { row with ownerID }) (fun _ => rfl)
        fun _ => rfl
      projects := rfl
      tasks := rfl
      labels := rfl
      statusConfig := rfl
      counted := rfl }
  · show (db.users.delete _).get? key = _
    rw [Table.get?_delete]
    by_cases here : key = id
    · cases db.users.get? key <;> simp [here]
    · cases db.users.get? key <;> simp [here]
  · exact Table.get?_delete ..
  · rw [issues] at found
    obtain ⟨before, _, rfl⟩ := Option.map_eq_some_iff.mp found
    split
    · exact nofun
    · assumption
  · have member : unassignedHistory (some actor) (userName ++ " (user deleted)") created key ∈
        unassignedRows db id (some actor) (userName ++ " (user deleted)") created :=
      List.mem_map.mpr ⟨(key, row), List.mem_filter.mpr
        ⟨Table.mem_entries_iff.mpr found, beq_iff_eq.mpr mine⟩, rfl⟩
    obtain ⟨new, above, here, once⟩ := Table.insertAll_once (t := db.history)
      (unassignedRows_apart db id (some actor) (userName ++ " (user deleted)") created) member
    refine ⟨new, unassignedHistory (some actor) (userName ++ " (user deleted)") created key, above, ?_,
      rfl, rfl, rfl, unmarshalChangeData_jsonObject _ _, fun other entry' above' found' same => ?_⟩
    · rw [history, here, Option.map_some]
      exact congrArg (fun userID => some { unassignedHistory _ _ _ _ with userID }) kept
    · rw [history] at found'
      obtain ⟨inserted, there, rfl⟩ := Option.map_eq_some_iff.mp found'
      exact once other inserted above' there same
  · rw [history] at found
    obtain ⟨inserted, there, rfl⟩ := Option.map_eq_some_iff.mp found
    obtain ⟨⟨key, row⟩, inside, rfl⟩ := List.mem_map.mp (Table.mem_of_get?_insertAll above there)
    obtain ⟨inside, mine⟩ := List.mem_filter.mp inside
    exact ⟨row, Table.mem_entries_iff.mp inside, beq_iff_eq.mp mine⟩

end Deleted

/-! ### Runs of the delete -/

/-- `DeleteUser` on a connection of its own, to its end, where any statement may fail. -/
def DeletesUser (db : Database) (id actorID : Int) (userName : String)
    (trace : List (Event Unit Statement.Answer)) (result : Except Err Int) (db' : Database) : Prop :=
  ∃ c current, Run Statement.attempt { committed := db }
    (fun _ : Unit => Transaction.deleteUser id actorID userName) trace c current ∧
      current () = .done result ∧ c.committed = db'

/-- An existing user is stored as itself. -/
theorem nullableUserID_of_exists {db : Database} {actorID : Int} {row : UserRow}
    (found : db.users.get? actorID = some row) : nullableUserID (some actorID) = some actorID := by
  have positive := (Table.get?_le_seq found).1
  unfold nullableUserID
  rw [Option.filter_some, if_pos]
  simp only [bne_iff_ne]
  omega

/-- **Deleting a user is all or nothing.** -/
theorem user_deleted_or_unchanged {db db' : Database} {id actorID : Int} {userName : String}
    {trace : List (Event Unit Statement.Answer)} {result : Except Err Int}
    (actor : (db.users.get? actorID).isSome) (other : actorID ≠ id)
    (deletes : DeletesUser db id actorID userName trace result db') :
    match result with
    | .ok count => ∃ now, UserDeleted db id actorID userName now count db'
    | .error _ => db' = db := by
  obtain ⟨row, found⟩ := Option.isSome_iff_exists.mp actor
  obtain ⟨c, current, run, ended, rfl⟩ := deletes
  have ensured := run.ensures (deleteUser_ensures db id actorID userName) ended
  rw [nullableUserID_of_exists found] at ensured
  cases result with
  | ok count =>
      obtain ⟨now, created, rfl, committed, _, _⟩ := ensured
      exact ⟨now, committed ▸ deletedBy_userDeleted other⟩
  | error err => exact ensured

/-- **A success is that of the single write**, on the store that the database stands for. -/
theorem deleteUser_refines {db db' : Database} {id actorID : Int} {userName : String}
    {trace : List (Event Unit Statement.Answer)} {count : Int}
    (deletes : DeletesUser db id actorID userName trace (.ok count) db') :
    ∃ now created, (Write.deleteUser id (nullableUserID (some actorID)) userName now created).apply
      db.decode = .ok (count, db'.decode) := by
  obtain ⟨c, current, run, ended, rfl⟩ := deletes
  obtain ⟨now, created, rfl, committed, refers, deletable⟩ :=
    run.ensures (deleteUser_ensures db id actorID userName) ended
  exact ⟨now, created, committed ▸ decode_deletedBy refers deletable⟩

/-! ### Scheduled statements -/

/-- The answer to a statement in a schedule that gives the time and says which statements fail. -/
def Statement.respond : (st : Statement) → Instant × Bool → Connection → st.Answer × Connection
  | .beginTx, (_, fails), c =>
      if fails then (.error .fault, c) else (.ok (), { c with tx := some c.committed })
  | .prepare, (_, fails), c => if fails then (.error .fault, c) else (.ok (), c)
  | .exec u, (created, fails), c =>
      match c.tx with
      | none => (.error .fault, c)
      | some db =>
          if fails then (.error .fault, c)
          else
            match u.apply created db with
            | .ok (rows, db') => (.ok rows, { c with tx := some db' })
            | .error err => (.error err, c)
  | .rowsAffected rows, (_, fails), c => if fails then (.error .fault, c) else (.ok rows, c)
  | .countUser id, (_, fails), c =>
      match c.tx with
      | none => (.error .fault, c)
      | some db =>
          if fails then (.error .fault, c) else (.ok (db.users.count fun key _ => key == id), c)
  | .now, (time, _), c => (time, c)
  | .commit, (_, fails), c =>
      match c.tx with
      | none => (.error .fault, { committed := c.committed })
      | some db =>
          if fails then (.error .fault, { committed := c.committed }) else (.ok (), { committed := db })
  | .rollback, _, c => ((), { committed := c.committed })

theorem Statement.attempt_respond (st : Statement) (input : Instant × Bool) (c : Connection) :
    st.attempt c (st.respond input c).1 (st.respond input c).2 := by
  obtain ⟨time, fails⟩ := input
  obtain ⟨committed, tx⟩ := c
  cases st with
  | beginTx =>
      cases fails with
      | false => exact .inl ⟨rfl, rfl⟩
      | true => exact .inr ⟨rfl, rfl⟩
  | prepare =>
      cases fails with
      | false => exact .inl ⟨rfl, rfl⟩
      | true => exact .inr ⟨rfl, rfl⟩
  | exec u =>
      cases tx with
      | none => exact .inr ⟨rfl, rfl⟩
      | some db =>
          cases fails with
          | true => exact .inr ⟨rfl, rfl⟩
          | false =>
              refine .inl ⟨time, db, rfl, ?_⟩
              cases applied : u.apply time db with
              | ok result => simp [Statement.respond, applied]
              | error err => simp [Statement.respond, applied]
  | rowsAffected rows =>
      cases fails with
      | false => exact .inl ⟨rfl, rfl⟩
      | true => exact .inr ⟨rfl, rfl⟩
  | countUser id =>
      cases tx with
      | none => exact .inr ⟨rfl, rfl⟩
      | some db =>
          cases fails with
          | false => exact .inl ⟨db, rfl, rfl, rfl⟩
          | true => exact .inr ⟨rfl, rfl⟩
  | now => exact .inl rfl
  | commit =>
      cases tx with
      | none => exact .inr ⟨rfl, rfl⟩
      | some db =>
          cases fails with
          | false => exact .inl ⟨db, rfl, rfl, rfl⟩
          | true => exact .inr ⟨rfl, rfl⟩
  | rollback => exact .inl rfl

/-- Two users, and an issue that is assigned to the second one. -/
def assignedIssue : Database :=
  { projects := Table.empty.insert ⟨"default", "Default project"⟩
    issues := Table.empty.insert
      { title := "Ship", description := "", status := .todo, position := 0, deadline := none
        plannedDates := none, priority := .normal, labelID := none, assigneeID := some 2
        updatedBy := some 2, projectID := 1, releaseID := none, updatedAt := 1, creatorID := some 2 }
    users := (Table.empty.insert
      ⟨"ada@x", "Ada", "A", "", .sysadmin, true, 1, none⟩).insert
      ⟨"bob@x", "Bob", "B", "", .user, true, 1, none⟩ }

/-- The second user is deleted by the first one; the commit fails or not. -/
def deletedSecond (fails : Bool) : Config Unit Statement.Answer Connection (Except Err Int) :=
  Config.play Statement.respond
    ⟨[], { committed := assignedIssue }, fun _ => Transaction.deleteUser 2 1 "Bob B"⟩
    [((), (2, false)), ((), (2, false)), ((), (2, false)), ((), (2, false)), ((), (2, false)),
      ((), (2, false)), ((), (2, false)), ((), (2, fails)), ((), (2, false))]

theorem deletedSecond_deletes {fails : Bool} {result : Except Err Int}
    (done : (deletedSecond fails).current () = .done result) :
    DeletesUser assignedIssue 2 1 "Bob B" (deletedSecond fails).past result
      (deletedSecond fails).store.committed :=
  ⟨_, _, Run.of_schedule Statement.attempt_respond _ Run.nil, done, rfl⟩

/-- The user is deleted, and a delete whose commit fails has changed nothing. -/
theorem second_user_deleted :
    (∃ now, UserDeleted assignedIssue 2 1 "Bob B" now 1 (deletedSecond false).store.committed) ∧
      (deletedSecond true).store.committed = assignedIssue := by
  have deleted : (deletedSecond false).current () = .done (.ok 1) := rfl
  have failed : (deletedSecond true).current () = .done (.error .fault) := rfl
  exact ⟨user_deleted_or_unchanged (by decide) (by decide) (deletedSecond_deletes deleted),
    user_deleted_or_unchanged (by decide) (by decide) (deletedSecond_deletes failed)⟩

theorem deleteUser_refines_second : ∃ now created,
    (Write.deleteUser 2 (some 1) "Bob B" now created).apply assignedIssue.decode =
      .ok (1, (deletedSecond false).store.committed.decode) :=
  deleteUser_refines (deletedSecond_deletes (show (deletedSecond false).current () = .done (.ok 1) from rfl))

end Wuflow

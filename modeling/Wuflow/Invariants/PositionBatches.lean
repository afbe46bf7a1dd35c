/-
**A batch of positions is saved as a whole or not at all, in any order.**

`UpdateIssuePositions` and `UpdateTaskPositions` run one scoped update for each entry of the list, within a
transaction. The validator has checked that no id is listed twice.

* `applyPositionUpdates_eq` — one update after the other is one change of the table, `placed`, when every
  listed row is there and in scope, and fails otherwise.
* `executeUpdates_ensures`, `executeUpdates_reaches` — the loop of statements does what
  `applyPositionUpdates` does to the table of the working copy.
* `positions_all_or_none` — the transactions, whatever statements fail, and their runs without failures.
* `positions_refine` — a success is that of the single write.
-/

import Wuflow.Backend.Transaction
import Wuflow.Model.Checks
import Wuflow.Store.Evolution

namespace Wuflow

open Calendar (Instant)
open Interleave (Prog Stopping Run Event)
open Interleave.Stopping (Ensures Reaches)
open Relational (Table)

/-! ### One update after the other -/

section Tables

variable {ρ : Type} {scope : ρ → Bool} {setPosition : Int → ρ → ρ} {notFound : Err}
  {updates : List PositionUpdate} {t : Table ρ}

/-- Every listed row is there and in scope. -/
def AllListed (scope : ρ → Bool) (updates : List PositionUpdate) (t : Table ρ) : Prop :=
  ∀ u ∈ updates, t.holds u.id scope = true

/-- The row under a key after the updates. -/
def placed (setPosition : Int → ρ → ρ) (updates : List PositionUpdate) (id : Int) (row : ρ) : ρ :=
  match updates.find? fun u => u.id == id with
  | some u => setPosition u.position row
  | none => row

theorem find?_of_mem {u : PositionUpdate} (distinct : (updates.map PositionUpdate.id).Nodup)
    (member : u ∈ updates) : updates.find? (fun other => other.id == u.id) = some u := by
  induction updates with
  | nil => cases member
  | cons first updates ih =>
      rw [List.map_cons, List.nodup_cons] at distinct
      rcases List.mem_cons.mp member with rfl | inside
      · exact List.find?_cons_of_pos (by simp)
      · have differ : first.id ≠ u.id := fun same =>
          distinct.1 (List.mem_map.mpr ⟨u, inside, same.symm⟩)
        rw [List.find?_cons_of_neg (by simpa using differ)]
        exact ih distinct.2 inside

theorem find?_of_not_mem {id : Int} (missing : id ∉ updates.map PositionUpdate.id) :
    updates.find? (fun u => u.id == id) = none := by
  refine List.find?_eq_none.mpr fun u member same => missing ?_
  exact List.mem_map.mpr ⟨u, member, beq_iff_eq.mp same⟩

theorem placed_of_mem {u : PositionUpdate} (distinct : (updates.map PositionUpdate.id).Nodup)
    (member : u ∈ updates) (row : ρ) :
    placed setPosition updates u.id row = setPosition u.position row := by
  unfold placed
  rw [find?_of_mem distinct member]

theorem placed_of_not_mem {id : Int} (missing : id ∉ updates.map PositionUpdate.id) (row : ρ) :
    placed setPosition updates id row = row := by
  unfold placed
  rw [find?_of_not_mem missing]

/-- The order of the updates does not matter. -/
theorem placed_perm {other : List PositionUpdate} (distinct : (updates.map PositionUpdate.id).Nodup)
    (perm : other.Perm updates) : placed setPosition other = placed setPosition updates := by
  funext id row
  by_cases listed : id ∈ updates.map PositionUpdate.id
  · obtain ⟨u, member, rfl⟩ := List.mem_map.mp listed
    have distinct' : (other.map PositionUpdate.id).Nodup := (perm.map _).nodup_iff.mpr distinct
    rw [placed_of_mem distinct member, placed_of_mem distinct' (perm.mem_iff.mpr member)]
  · have missing : id ∉ other.map PositionUpdate.id := fun inside =>
      listed ((perm.map _).mem_iff.mp inside)
    rw [placed_of_not_mem listed, placed_of_not_mem missing]

/-- One update leaves the rows under other keys. -/
theorem holds_update_other {u : PositionUpdate} {id : Int} (other : id ≠ u.id) (change : ρ → ρ) :
    (t.update (fun key row => key == u.id && scope row) change).holds id scope = t.holds id scope := by
  unfold Table.holds
  rw [Table.get?_update]
  have differ : (id == u.id) = false := beq_false_of_ne other
  cases t.get? id with
  | none => rfl
  | some row => simp [differ]

/-- The first update, then the rest. -/
theorem adjust_placed_cons {u : PositionUpdate} (fresh : u.id ∉ updates.map PositionUpdate.id)
    (here : t.holds u.id scope = true) :
    (t.update (fun key row => key == u.id && scope row) (setPosition u.position)).adjust
        (placed setPosition updates) = t.adjust (placed setPosition (u :: updates)) := by
  rw [Table.update_eq_adjust, Table.adjust_adjust]
  refine Table.adjust_congr fun id row found => ?_
  by_cases same : id = u.id
  · subst same
    obtain ⟨row', found', inScope⟩ := Table.holds_eq_true_iff.mp here
    cases found.symm.trans found'
    rw [placed_of_not_mem fresh]
    simp [placed, inScope]
  · have differ : (id == u.id) = false := beq_false_of_ne same
    have differ' : (u.id == id) = false := beq_false_of_ne (Ne.symm same)
    simp [placed, differ, differ']

/-- **One update after the other**, each id listed once. -/
theorem applyPositionUpdates_eq (distinct : (updates.map PositionUpdate.id).Nodup) (t : Table ρ) :
    (AllListed scope updates t → applyPositionUpdates scope setPosition notFound updates t =
      .ok (t.adjust (placed setPosition updates))) ∧
    (¬ AllListed scope updates t →
      applyPositionUpdates scope setPosition notFound updates t = .error notFound) := by
  induction updates generalizing t with
  | nil => exact ⟨fun _ => congrArg Except.ok t.adjust_id.symm, fun none => absurd nofun none⟩
  | cons u updates ih =>
      rw [List.map_cons, List.nodup_cons] at distinct
      obtain ⟨fresh, distinct⟩ := distinct
      by_cases here : t.holds u.id scope = true
      · have counted : (t.count (fun key row => key == u.id && scope row) != 0) = true :=
          bne_iff_ne.mpr fun zero => (t.count_key_eq_zero u.id scope).mp zero here
        have rest : AllListed scope (u :: updates) t ↔ AllListed scope updates
            (t.update (fun key row => key == u.id && scope row) (setPosition u.position)) := by
          unfold AllListed
          rw [List.forall_mem_cons]
          refine ⟨fun both v member => ?_, fun all => ⟨here, fun v member => ?_⟩⟩
          · rw [holds_update_other fun same => fresh (List.mem_map.mpr ⟨v, member, same⟩)]
            exact both.2 v member
          · rw [← holds_update_other fun same => fresh (List.mem_map.mpr ⟨v, member, same⟩)]
            exact all v member
        have first : applyPositionUpdates scope setPosition notFound (u :: updates) t =
            applyPositionUpdates scope setPosition notFound updates
              (t.update (fun key row => key == u.id && scope row) (setPosition u.position)) := by
          show (require _ notFound >>= fun _ => _) = _
          rw [counted]
          rfl
        rw [rest, first, ← adjust_placed_cons fresh here]
        exact ih distinct _
      · have counted : (t.count (fun key row => key == u.id && scope row) != 0) = false :=
          bne_eq_false_iff_eq.mpr ((t.count_key_eq_zero u.id scope).mpr here)
        refine ⟨fun all => absurd (all u List.mem_cons_self) here, fun _ => ?_⟩
        show (require _ notFound >>= fun _ => _) = _
        rw [counted]
        rfl

end Tables

/-! ### The loop of statements -/

/-- The updates of a batch change one table of the database, row by row. -/
structure Reorders {ρ : Type} (query : PositionUpdate → Update) (table : Database → Table ρ)
    (withTable : Database → Table ρ → Database) (scope : ρ → Bool) (setPosition : Int → ρ → ρ) :
    Prop where
  writes : ∀ u created db, (query u).apply created db =
    .ok ((table db).count (fun key row => key == u.id && scope row), withTable db ((table db).update
      (fun key row => key == u.id && scope row) (setPosition u.position)))
  read : ∀ db t, table (withTable db t) = t
  twice : ∀ db t t', withTable (withTable db t) t' = withTable db t'
  same : ∀ db, withTable db (table db) = db

theorem reorders_issues (projectID : Int) :
    Reorders (.setIssuePosition projectID) Database.issues (fun db issues => { db with issues })
      (reorderableIssue projectID) IssueRow.setPosition :=
  ⟨fun _ _ _ => rfl, fun _ _ => rfl, fun _ _ _ => rfl, fun _ => rfl⟩

theorem reorders_tasks (issueID : Int) :
    Reorders (.setTaskPosition issueID) Database.tasks (fun db tasks => { db with tasks })
      (reorderableTask issueID) TaskRow.setPosition :=
  ⟨fun _ _ _ => rfl, fun _ _ => rfl, fun _ _ _ => rfl, fun _ => rfl⟩

section Loop

variable {ρ : Type} {query : PositionUpdate → Update} {table : Database → Table ρ}
  {withTable : Database → Table ρ → Database} {scope : ρ → Bool} {setPosition : Int → ρ → ρ}
  {notFound : Err} {faults : Prop} {db tx : Database}

/-- The statements of one update. -/
theorem update_ensures {β : Type} {u : PositionUpdate} {f : Unit → Transaction β}
    {post : β → Connection → Prop} {stop : Err → Connection → Prop}
    (reorders : Reorders query table withTable scope setPosition)
    (missing : (table tx).holds u.id scope ≠ true → ∀ tx', stop notFound { committed := db, tx := some tx' })
    (failing : faults → ∀ tx', stop .fault { committed := db, tx := some tx' })
    (next : (table tx).holds u.id scope = true → Ensures (Statement.world faults) post stop (f ())
      { committed := db, tx := some (withTable tx ((table tx).update
          (fun key row => key == u.id && scope row) (setPosition u.position))) }) :
    Ensures (Statement.world faults) post stop
      (do
        let res ← Transaction.exec (query u)
        Transaction.checkRowsAffected res notFound >>= f)
      { committed := db, tx := some tx } := by
  refine Ensures.bind (Ensures.query fun answer c here => ?_)
  rcases here with ⟨created, tx', open_, performed⟩ | ⟨faulty, rfl, rfl⟩
  · cases open_
    rw [reorders.writes] at performed
    obtain ⟨rfl, rfl⟩ := performed
    refine Ensures.bind (Ensures.bind (Ensures.query fun answer c here => ?_))
    rcases here with ⟨rfl, rfl⟩ | ⟨faulty, rfl, rfl⟩
    · dsimp only
      by_cases here : (table tx).holds u.id scope = true
      · rw [if_neg fun zero => (Table.count_key_eq_zero _ _ _).mp zero here]
        exact next here
      · rw [if_pos ((Table.count_key_eq_zero _ _ _).mpr here)]
        exact missing here _
    · exact failing faulty _
  · exact failing faulty _

/-- **The loop of statements** does to the working copy what the updates do to its table. -/
theorem executeUpdates_ensures (reorders : Reorders query table withTable scope setPosition)
    (updates : List PositionUpdate) :
    Ensures (Statement.world faults)
      (fun _ c => ∃ t, applyPositionUpdates scope setPosition notFound updates (table tx) = .ok t ∧
        c = { committed := db, tx := some (withTable tx t) })
      (fun err c => (∃ tx', c = { committed := db, tx := some tx' }) ∧
        (faults ∨ applyPositionUpdates scope setPosition notFound updates (table tx) = .error err))
      (Transaction.executeUpdates query notFound updates) { committed := db, tx := some tx } := by
  induction updates generalizing tx with
  | nil => exact ⟨table tx, rfl, by rw [reorders.same]⟩
  | cons u updates ih =>
      have first : applyPositionUpdates scope setPosition notFound (u :: updates) (table tx) =
          (do
            require ((table tx).count (fun key row => key == u.id && scope row) != 0) notFound
            applyPositionUpdates scope setPosition notFound updates ((table tx).update
              (fun key row => key == u.id && scope row) (setPosition u.position))) := rfl
      refine update_ensures reorders (fun missing tx' => ⟨⟨tx', rfl⟩, .inr ?_⟩)
        (fun faulty tx' => ⟨⟨tx', rfl⟩, .inl faulty⟩) fun here => ?_
      · rw [first, (Table.count_key_eq_zero _ _ _).mpr missing]
        rfl
      · have counted : ((table tx).count (fun key row => key == u.id && scope row) != 0) = true :=
          bne_iff_ne.mpr fun zero => (Table.count_key_eq_zero _ _ _).mp zero here
        rw [counted] at first
        have rest := @ih (withTable tx ((table tx).update
          (fun key row => key == u.id && scope row) (setPosition u.position)))
        rw [reorders.read] at rest
        refine Ensures.mono (fun _ c holds => ?_) (fun err c holds => ?_) rest
        · obtain ⟨t, moved, rfl⟩ := holds
          exact ⟨t, first.trans moved, by rw [reorders.twice]⟩
        · exact ⟨holds.1, holds.2.imp_right first.trans⟩

/-- A statement that does not fail. -/
theorem call_reaches {α : Type} {st : Statement} (answer : st.Answer) {c c' : Connection}
    (here : st.perform c answer c') (result : st.Answer → Except Err α) :
    Reaches (Statement.world faults) (result answer) c' (Transaction.call st result) c :=
  Reaches.query (.inl here)

/-- `checkRowsAffected` after a write that changed `rows` rows. -/
theorem checkRowsAffected_reaches (faults : Prop) (notFound : Err) (rows : Int) (c : Connection) :
    Reaches (Statement.world faults) (if rows = 0 then .error notFound else .ok ()) c
      (Transaction.checkRowsAffected rows notFound) c := by
  have asked : (Statement.rowsAffected rows).perform c (.ok rows) c := ⟨rfl, rfl⟩
  refine Reaches.bind (call_reaches _ asked _) ?_
  by_cases none : rows = 0
  · rw [if_pos none, if_pos none]
    exact ⟨rfl, rfl⟩
  · rw [if_neg none, if_neg none]
    exact ⟨rfl, rfl⟩

/-- **The loop can always be run to its end.** -/
theorem executeUpdates_reaches (reorders : Reorders query table withTable scope setPosition)
    (updates : List PositionUpdate) :
    (∀ t, applyPositionUpdates scope setPosition notFound updates (table tx) = .ok t →
      Reaches (Statement.world faults) (.ok ()) { committed := db, tx := some (withTable tx t) }
        (Transaction.executeUpdates query notFound updates) { committed := db, tx := some tx }) ∧
    ∀ err, applyPositionUpdates scope setPosition notFound updates (table tx) = .error err →
      ∃ tx', Reaches (Statement.world faults) (.error err) { committed := db, tx := some tx' }
        (Transaction.executeUpdates query notFound updates) { committed := db, tx := some tx } := by
  induction updates generalizing tx with
  | nil =>
      refine ⟨fun t moved => ?_, nofun⟩
      cases moved
      rw [reorders.same]
      exact ⟨rfl, rfl⟩
  | cons u updates ih =>
      have first : applyPositionUpdates scope setPosition notFound (u :: updates) (table tx) =
          (do
            require ((table tx).count (fun key row => key == u.id && scope row) != 0) notFound
            applyPositionUpdates scope setPosition notFound updates ((table tx).update
              (fun key row => key == u.id && scope row) (setPosition u.position))) := rfl
      have written : Reaches (Statement.world faults)
          (.ok ((table tx).count fun key row => key == u.id && scope row))
          { committed := db, tx := some (withTable tx ((table tx).update
            (fun key row => key == u.id && scope row) (setPosition u.position))) }
          (Transaction.exec (query u)) { committed := db, tx := some tx } := by
        have performed : (Statement.exec (query u)).perform { committed := db, tx := some tx }
            (.ok ((table tx).count fun key row => key == u.id && scope row))
            { committed := db, tx := some (withTable tx ((table tx).update
              (fun key row => key == u.id && scope row) (setPosition u.position))) } := by
          refine ⟨0, tx, rfl, ?_⟩
          rw [reorders.writes]
          exact ⟨rfl, rfl⟩
        exact call_reaches _ performed _
      have checked := checkRowsAffected_reaches faults notFound
        ((table tx).count fun key row => key == u.id && scope row)
      by_cases here : (table tx).holds u.id scope = true
      · have counted := mt (Table.count_key_eq_zero (table tx) u.id scope).mp fun none => none here
        rw [bne_iff_ne.mpr counted] at first
        rw [if_neg counted] at checked
        obtain ⟨moves, stops⟩ := @ih (withTable tx ((table tx).update
          (fun key row => key == u.id && scope row) (setPosition u.position)))
        rw [reorders.read] at moves stops
        refine ⟨fun t moved => ?_, fun err refused => ?_⟩
        · have rest := moves t (first.symm.trans moved)
          rw [reorders.twice] at rest
          exact Reaches.bind written (Reaches.bind (checked _) rest)
        · obtain ⟨tx', rest⟩ := stops err (first.symm.trans refused)
          exact ⟨tx', Reaches.bind written (Reaches.bind (checked _) rest)⟩
      · have counted := (Table.count_key_eq_zero (table tx) u.id scope).mpr here
        rw [counted] at first
        rw [if_pos counted] at checked
        refine ⟨fun t moved => (nomatch first.symm.trans moved), fun err refused => ?_⟩
        cases first.symm.trans refused
        exact ⟨_, Reaches.bind written (Reaches.stop (checked _))⟩

/-! ### The transaction -/

/-- **The transaction of a batch**: an error leaves the committed database as it was. -/
theorem batch_ensures (faults : Prop) (notFound : Err) (db : Database)
    (reorders : Reorders query table withTable scope setPosition) (updates : List PositionUpdate) :
    (Transaction.applyPositionUpdates query updates notFound).Ensures (Statement.world faults)
      (fun result c =>
        match result with
        | .ok _ => ∃ t, applyPositionUpdates scope setPosition notFound updates (table db) = .ok t ∧
            c.committed = withTable db t
        | .error err => c.committed = db ∧
            (faults ∨ applyPositionUpdates scope setPosition notFound updates (table db) = .error err))
      { committed := db } := by
  refine Prog.Ensures.bind fun answer c here => ?_
  rcases here with ⟨rfl, rfl⟩ | ⟨faulty, rfl, rfl⟩
  · have statements : Ensures (Statement.world faults)
        (fun _ c => ∃ t, applyPositionUpdates scope setPosition notFound updates (table db) = .ok t ∧
          c.committed = withTable db t)
        (fun err c => c.committed = db ∧
          (faults ∨ applyPositionUpdates scope setPosition notFound updates (table db) = .error err))
        (Transaction.positionStatements query updates notFound) { committed := db, tx := some db } := by
      refine Ensures.bind (Ensures.query fun answer c here => ?_)
      rcases here with ⟨rfl, rfl⟩ | ⟨faulty, rfl, rfl⟩
      · refine Ensures.bind (Ensures.mono (fun _ c holds => ?_) (fun err c holds => ?_)
          (executeUpdates_ensures reorders updates))
        · obtain ⟨t, moved, rfl⟩ := holds
          refine Ensures.query fun answer c here => ?_
          rcases here with ⟨tx', open_, rfl, rfl⟩ | ⟨faulty, rfl, rfl⟩
          · cases open_
            exact ⟨t, moved, rfl⟩
          · exact ⟨rfl, .inl faulty⟩
        · obtain ⟨⟨tx', rfl⟩, cause⟩ := holds
          exact ⟨rfl, cause⟩
      · exact ⟨rfl, .inl faulty⟩
    refine Prog.Ensures.bind (Prog.Ensures.mono (fun result c holds => ?_) statements)
    -- the deferred rollback
    intro _ c' here
    obtain rfl : c' = _ := here.elim (fun same => same) fun never => never.2.elim
    cases result with
    | ok _ => exact holds
    | error err => exact holds
  · exact ⟨rfl, .inl faulty⟩

/-- The transaction around its statements. -/
theorem batch_of_statements {updates : List PositionUpdate} {result : Except Err Unit} {c : Connection}
    (statements : Reaches (Statement.world faults) result c
      (Transaction.positionStatements query updates notFound) { committed := db, tx := some db }) :
    (Transaction.applyPositionUpdates query updates notFound).Reaches (Statement.world faults) result
      { committed := c.committed } { committed := db } := by
  have ended : Prog.Reaches (Statement.world faults) result { committed := c.committed }
      (do
        let result ← (Transaction.positionStatements query updates notFound).run
        let _ ← (Prog.call Statement.rollback : Prog Statement.Answer Unit)
        return result)
      { committed := db, tx := some db } :=
    Prog.Reaches.bind statements ⟨(), _, .inl rfl, rfl, rfl⟩
  exact ⟨.ok (), _, .inl ⟨rfl, rfl⟩, ended⟩

/-- **The transaction can be run to its end without a failure.** -/
theorem batch_reaches (notFound : Err) (db : Database)
    (reorders : Reorders query table withTable scope setPosition) (updates : List PositionUpdate) :
    (∀ t, applyPositionUpdates scope setPosition notFound updates (table db) = .ok t →
      (Transaction.applyPositionUpdates query updates notFound).Reaches (Statement.world False) (.ok ())
        { committed := withTable db t } { committed := db }) ∧
    ∀ err, applyPositionUpdates scope setPosition notFound updates (table db) = .error err →
      (Transaction.applyPositionUpdates query updates notFound).Reaches (Statement.world False)
        (.error err) { committed := db } { committed := db } := by
  have prepared : Reaches (Statement.world False) (.ok ()) { committed := db, tx := some db }
      (Transaction.call .prepare fun answer => answer) { committed := db, tx := some db } := by
    have performed : Statement.prepare.perform { committed := db, tx := some db } (.ok ())
        { committed := db, tx := some db } := ⟨rfl, rfl⟩
    exact call_reaches _ performed _
  obtain ⟨moves, stops⟩ := @executeUpdates_reaches _ query table withTable scope setPosition notFound
    False db db reorders updates
  refine ⟨fun t moved => ?_, fun err refused => ?_⟩
  · have committed : Reaches (Statement.world False) (.ok ()) { committed := withTable db t }
        (Transaction.call .commit fun answer => answer)
        { committed := db, tx := some (withTable db t) } := by
      have performed : Statement.commit.perform { committed := db, tx := some (withTable db t) } (.ok ())
          { committed := withTable db t } := ⟨_, rfl, rfl, rfl⟩
      exact call_reaches _ performed _
    have statements : Reaches (Statement.world False) (.ok ()) { committed := withTable db t }
        (Transaction.positionStatements query updates notFound) { committed := db, tx := some db } :=
      Reaches.bind prepared (Reaches.bind (moves t moved) committed)
    exact batch_of_statements statements
  · obtain ⟨tx', stopped⟩ := stops err refused
    have statements : Reaches (Statement.world False) (.error err) { committed := db, tx := some tx' }
        (Transaction.positionStatements query updates notFound) { committed := db, tx := some db } :=
      Reaches.bind prepared (Reaches.stop stopped)
    exact batch_of_statements statements

/-- A program on a connection of its own, to its end, where statements may fail (`faults`) or do not. -/
def Transacts (faults : Prop) (p : Prog Statement.Answer (Except Err Unit)) (db : Database)
    (result : Except Err Unit) (db' : Database) : Prop :=
  ∃ trace c current, Run (Statement.world faults) { committed := db } (fun _ : Unit => p) trace c current ∧
    current () = .done result ∧ c.committed = db'

theorem Transacts.of_reaches {faults : Prop} {db : Database} {p : Prog Statement.Answer (Except Err Unit)}
    {result : Except Err Unit}
    {c : Connection} (reaches : p.Reaches (Statement.world faults) result c { committed := db }) :
    Transacts faults p db result c.committed := by
  have started : Run (Statement.world faults) { committed := db } (fun _ : Unit => p) []
      { committed := db } fun _ => p := .nil
  obtain ⟨trace, current, run, ended⟩ := started.of_reaches reaches
  exact ⟨trace, c, current, run, ended, rfl⟩

/-- A run where statements may fail. -/
theorem transacts_outcome {faults : Prop} (reorders : Reorders query table withTable scope setPosition)
    {updates : List PositionUpdate} (distinct : (updates.map PositionUpdate.id).Nodup)
    {result : Except Err Unit} {db' : Database}
    (transacts : Transacts faults (Transaction.applyPositionUpdates query updates notFound) db result db') :
    match result with
    | .ok _ => AllListed scope updates (table db) ∧
        db' = withTable db ((table db).adjust (placed setPosition updates))
    | .error err => db' = db ∧ (faults ∨ err = notFound ∧ ¬ AllListed scope updates (table db)) := by
  obtain ⟨moved, refused⟩ := @applyPositionUpdates_eq _ scope setPosition notFound updates distinct (table db)
  obtain ⟨trace, c, current, run, ended, rfl⟩ := transacts
  have ensured := run.ensures (batch_ensures faults notFound db reorders updates) ended
  by_cases listed : AllListed scope updates (table db)
  · cases result with
    | ok _ =>
        obtain ⟨t, here, committed⟩ := ensured
        cases (moved listed).symm.trans here
        exact ⟨listed, committed⟩
    | error err =>
        obtain ⟨committed, faulty | here⟩ := ensured
        · exact ⟨committed, .inl faulty⟩
        · exact nomatch (moved listed).symm.trans here
  · cases result with
    | ok _ =>
        obtain ⟨t, here, _⟩ := ensured
        exact nomatch (refused listed).symm.trans here
    | error err =>
        obtain ⟨committed, faulty | here⟩ := ensured
        · exact ⟨committed, .inl faulty⟩
        · cases (refused listed).symm.trans here
          exact ⟨committed, .inr ⟨rfl, listed⟩⟩

/-- **The runs of a batch without failures.** -/
theorem transacts_iff (reorders : Reorders query table withTable scope setPosition)
    {updates : List PositionUpdate} (distinct : (updates.map PositionUpdate.id).Nodup)
    {result : Except Err Unit} {db' : Database} :
    Transacts False (Transaction.applyPositionUpdates query updates notFound) db result db' ↔
      (result = .ok () ∧ AllListed scope updates (table db) ∧
        db' = withTable db ((table db).adjust (placed setPosition updates))) ∨
      (result = .error notFound ∧ ¬ AllListed scope updates (table db) ∧ db' = db) := by
  obtain ⟨moved, refused⟩ := @applyPositionUpdates_eq _ scope setPosition notFound updates distinct (table db)
  obtain ⟨moves, stops⟩ := batch_reaches notFound db reorders updates
  constructor
  · intro transacts
    have outcome := transacts_outcome reorders distinct transacts
    cases result with
    | ok _ => exact .inl ⟨rfl, outcome⟩
    | error err =>
        obtain ⟨same, never | ⟨rfl, unlisted⟩⟩ := outcome
        · exact never.elim
        · exact .inr ⟨rfl, unlisted, same⟩
  · rintro (⟨rfl, listed, rfl⟩ | ⟨rfl, unlisted, rfl⟩)
    · exact Transacts.of_reaches (moves _ (moved listed))
    · exact Transacts.of_reaches (stops _ (refused unlisted))

end Loop

/-! ### All or none, in any order -/

/-- The listed rows have the listed positions, and nothing else is different. -/
structure TableReordered {ρ : Type} (setPosition : Int → ρ → ρ) (updates : List PositionUpdate)
    (t t' : Table ρ) : Prop where
  listed : ∀ u ∈ updates, t'.get? u.id = (t.get? u.id).map (setPosition u.position)
  others : ∀ id, id ∉ updates.map PositionUpdate.id → t'.get? id = t.get? id
  sequence : t'.seq = t.seq

theorem adjust_reordered {ρ : Type} {setPosition : Int → ρ → ρ} {updates : List PositionUpdate}
    (distinct : (updates.map PositionUpdate.id).Nodup) (t : Table ρ) :
    TableReordered setPosition updates t (t.adjust (placed setPosition updates)) where
  listed := fun u member => by
    rw [Table.get?_adjust]
    exact congrArg (fun change => (t.get? u.id).map change) (funext (placed_of_mem distinct member))
  others := fun id missing => by
    rw [Table.get?_adjust]
    have same : placed setPosition updates id = fun row => row := funext (placed_of_not_mem missing)
    rw [same, Option.map_id_fun']
    rfl
  sequence := rfl

/-- **A batch succeeds iff all its rows are `listed`**, then the database is `saved`; otherwise it returns
`notFound`. Whatever fails, an error leaves the database as it was. The order of the list is irrelevant. -/
structure AllOrNone (p : List PositionUpdate → Prog Statement.Answer (Except Err Unit))
    (updates : List PositionUpdate) (db : Database) (listed : Prop) (saved : Database → Prop)
    (notFound : Err) : Prop where
  saves : listed → ∃ db', Transacts False (p updates) db (.ok ()) db'
  refuses : ¬ listed → Transacts False (p updates) db (.error notFound) db
  outcome : ∀ faults result db', Transacts faults (p updates) db result db' →
    match result with
    | .ok _ => listed ∧ saved db'
    | .error err => db' = db ∧ (faults ∨ err = notFound ∧ ¬ listed)
  anyOrder : ∀ other result db', other.Perm updates →
    (Transacts False (p other) db result db' ↔ Transacts False (p updates) db result db')

theorem Reorders.allOrNone {ρ : Type} {query : PositionUpdate → Update} {table : Database → Table ρ}
    {withTable : Database → Table ρ → Database} {scope : ρ → Bool} {setPosition : Int → ρ → ρ}
    (reorders : Reorders query table withTable scope setPosition) {updates : List PositionUpdate}
    (distinct : (updates.map PositionUpdate.id).Nodup) (notFound : Err) (db : Database) :
    AllOrNone (fun updates => Transaction.applyPositionUpdates query updates notFound) updates db
      (AllListed scope updates (table db))
      (fun db' => db' = withTable db (table db') ∧
        TableReordered setPosition updates (table db) (table db')) notFound where
  saves := fun listed => ⟨_, (transacts_iff reorders distinct).mpr (.inl ⟨rfl, listed, rfl⟩)⟩
  refuses := fun unlisted => (transacts_iff reorders distinct).mpr (.inr ⟨rfl, unlisted, rfl⟩)
  outcome := fun faults result db' transacts => by
    have outcome := transacts_outcome reorders distinct transacts
    cases result with
    | ok _ =>
        obtain ⟨listed, rfl⟩ := outcome
        rw [reorders.read]
        exact ⟨listed, rfl, adjust_reordered distinct (table db)⟩
    | error err => exact outcome
  anyOrder := fun other result db' perm => by
    have distinct' : (other.map PositionUpdate.id).Nodup := (perm.map _).nodup_iff.mpr distinct
    have listed : AllListed scope other (table db) ↔ AllListed scope updates (table db) :=
      forall_congr' fun u => imp_congr perm.mem_iff Iff.rfl
    rw [transacts_iff reorders distinct, transacts_iff reorders distinct', placed_perm distinct perm, listed]

/-- **Batches of positions are saved as a whole or not at all, in any order.** -/
theorem positions_all_or_none {sent updates : List PositionUpdate}
    (valid : validatePositionUpdates sent = .ok updates) (db : Database) :
    (∀ projectID, AllOrNone (Transaction.updateIssuePositions projectID) updates db
      (AllListed (reorderableIssue projectID) updates db.issues)
      (fun db' => db' = { db with issues := db'.issues } ∧
        TableReordered IssueRow.setPosition updates db.issues db'.issues) .issueNotFound) ∧
    ∀ issueID, AllOrNone (Transaction.updateTaskPositions issueID) updates db
      (AllListed (reorderableTask issueID) updates db.tasks)
      (fun db' => db' = { db with tasks := db'.tasks } ∧
        TableReordered TaskRow.setPosition updates db.tasks db'.tasks) .taskNotFound := by
  have distinct := (validatePositionUpdates_checked valid).2.2
  exact ⟨fun projectID => (reorders_issues projectID).allOrNone distinct .issueNotFound db,
    fun issueID => (reorders_tasks issueID).allOrNone distinct .taskNotFound db⟩

/-- Two issues of one project. -/
def twoIssues : Database :=
  let issue : IssueRow :=
    { title := "Ship", description := "", status := .todo, position := 0, deadline := none
      plannedDates := none, priority := .normal, labelID := none, assigneeID := none
      updatedBy := none, projectID := 1, releaseID := none, updatedAt := 1, creatorID := none }
  { projects := Table.empty.insert ⟨"default", "Default project"⟩
    issues := (Table.empty.insert issue).insert { issue with title := "Test", position := 1 } }

/-- The two issues change places. -/
theorem two_issues_reordered :
    ∃ db', Transacts False (Transaction.updateIssuePositions 1 [⟨2, 0⟩, ⟨1, 1⟩]) twoIssues (.ok ()) db' ∧
      db' = { twoIssues with issues := db'.issues } ∧
      TableReordered IssueRow.setPosition [⟨2, 0⟩, ⟨1, 1⟩] twoIssues.issues db'.issues := by
  have valid : validatePositionUpdates [⟨2, 0⟩, ⟨1, 1⟩] = .ok [⟨2, 0⟩, ⟨1, 1⟩] := by decide
  have batch := (positions_all_or_none valid twoIssues).1 1
  have listed : AllListed (reorderableIssue 1) [⟨2, 0⟩, ⟨1, 1⟩] twoIssues.issues := by
    unfold AllListed
    decide
  obtain ⟨db', saved⟩ := batch.saves listed
  exact ⟨db', saved, (batch.outcome _ _ _ saved).2⟩

/-! ### The single writes -/

/-- **A success is that of the single write**, on the store that the database stands for. -/
theorem updateIssuePositions_refines {faults : Prop} {db db' : Database} {projectID : Int}
    {updates : List PositionUpdate} (distinct : (updates.map PositionUpdate.id).Nodup)
    (transacts : Transacts faults (Transaction.updateIssuePositions projectID updates) db (.ok ()) db') :
    (Write.updateIssuePositions projectID updates).apply db.decode =
      .ok (updates.length, db'.decode) := by
  obtain ⟨listed, rfl⟩ := transacts_outcome (reorders_issues projectID) distinct transacts
  obtain ⟨moved, _⟩ := @applyPositionUpdates_eq _ (reorderableIssue projectID) IssueRow.setPosition
    .issueNotFound updates distinct db.issues
  exact bind_ok.mpr ⟨_, moved listed, rfl⟩

theorem updateTaskPositions_refines {faults : Prop} {db db' : Database} {issueID : Int}
    {updates : List PositionUpdate} (distinct : (updates.map PositionUpdate.id).Nodup)
    (transacts : Transacts faults (Transaction.updateTaskPositions issueID updates) db (.ok ()) db') :
    (Write.updateTaskPositions issueID updates).apply db.decode = .ok (updates.length, db'.decode) := by
  obtain ⟨listed, rfl⟩ := transacts_outcome (reorders_tasks issueID) distinct transacts
  obtain ⟨moved, _⟩ := @applyPositionUpdates_eq _ (reorderableTask issueID) TaskRow.setPosition
    .taskNotFound updates distinct db.tasks
  exact bind_ok.mpr ⟨_, moved listed, rfl⟩

/-- **The batches refine the single writes.** -/
theorem positions_refine {faults : Prop} {db db' : Database} {updates : List PositionUpdate}
    (distinct : (updates.map PositionUpdate.id).Nodup) :
    (∀ projectID, Transacts faults (Transaction.updateIssuePositions projectID updates) db (.ok ()) db' →
      (Write.updateIssuePositions projectID updates).apply db.decode = .ok (updates.length, db'.decode)) ∧
    ∀ issueID, Transacts faults (Transaction.updateTaskPositions issueID updates) db (.ok ()) db' →
      (Write.updateTaskPositions issueID updates).apply db.decode = .ok (updates.length, db'.decode) :=
  ⟨fun _ => updateIssuePositions_refines distinct, fun _ => updateTaskPositions_refines distinct⟩

theorem positions_refine_twoIssues :
    ∃ db', Transacts False (Transaction.updateIssuePositions 1 [⟨2, 0⟩, ⟨1, 1⟩]) twoIssues (.ok ()) db' ∧
      (Write.updateIssuePositions 1 [⟨2, 0⟩, ⟨1, 1⟩]).apply twoIssues.decode = .ok (2, db'.decode) := by
  have distinct : ([⟨2, 0⟩, ⟨1, 1⟩].map PositionUpdate.id).Nodup := by decide
  have listed : AllListed (reorderableIssue 1) [⟨2, 0⟩, ⟨1, 1⟩] twoIssues.issues := by
    unfold AllListed
    decide
  obtain ⟨db', saved⟩ := ((reorders_issues 1).allOrNone distinct .issueNotFound twoIssues).saves listed
  exact ⟨db', saved, (positions_refine distinct).1 1 saved⟩

end Wuflow

/-
**What a write can do to users and sessions.**

`Write.users_cases` and `Write.sessions_cases` invert all writes as far as these two tables are
concerned: a write leaves the table as it is, or it is one of the few that change it.
-/

import Wuflow.Store.Evolution

namespace Wuflow

open Calendar (Instant)
open Relational (Table)

/-- The row an `UpdateUser` changes: the user's, unless it would lose the last active sysadmin. -/
def Store.updatable (s : Store) (u : User) (removesSysAdmin : Bool) (key : Int) (row : UserRow) : Bool :=
  key == u.id && !(removesSysAdmin && s.lastActiveSysAdmin row)

section Cases

variable {w : Write} {s s' : Store} {rows : Int}

/-- The parts of a successful user delete. -/
theorem deleteUser_cases {id : Int} {actor : Option Int} {userName : String} {now created : Instant}
    (deleted : s.deleteUser id actor userName now created = .ok (rows, s')) :
    s.users.holds id (fun row => !s.lastActiveSysAdmin row) = true ∧
      s'.users = s.users.delete (fun key _ => key == id) ∧
      s'.sessions = s.sessions.delete (fun _ row => row.userID == id) := by
  obtain ⟨_, rest⟩ := require_bind_ok.mp deleted
  obtain ⟨_, rest⟩ := require_bind_ok.mp rest
  obtain ⟨deletable, rest⟩ := require_bind_ok.mp rest
  cases rest
  exact ⟨deletable, rfl, rfl⟩

/-- **What a write can do to users.** -/
theorem Write.users_cases (applied : w.apply s = .ok (rows, s')) :
    s'.users = s.users ∨
    (∃ row, w = .insertUser row ∧ s'.users = s.users.insert row) ∨
    (∃ u removes, w = .updateUser u removes ∧ rows = s.users.count (s.updatable u removes) ∧
      s'.users = s.users.update (s.updatable u removes) (UserRow.setFrom u)) ∨
    (∃ id at_, w = .updateUserLastLogin id at_ ∧
      s'.users = s.users.update (fun key _ => key == id) fun row => { row with lastLogin := some at_ }) ∨
    ∃ id actor userName now created, w = .deleteUser id actor userName now created ∧
      s.users.holds id (fun row => !s.lastActiveSysAdmin row) = true ∧
      s'.users = s.users.delete fun key _ => key == id := by
  cases w with
  | insertIssue | insertTask | insertHistory | insertComment | upsertStatusConfig | insertProject
  | insertLabel | updateProject | updateIssue | insertSession =>
      obtain ⟨_, rest⟩ := require_bind_ok.mp applied
      cases rest
      exact .inl rfl
  | insertRelease | updateRelease =>
      obtain ⟨_, rest⟩ := require_bind_ok.mp applied
      obtain ⟨_, rest⟩ := require_bind_ok.mp rest
      cases rest
      exact .inl rfl
  | updateIssuePositions =>
      obtain ⟨issues, rfl, _⟩ := updateIssuePositions_cases applied
      exact .inl rfl
  | updateTaskPositions =>
      obtain ⟨tasks, rfl⟩ := updateTaskPositions_cases applied
      exact .inl rfl
  | seedStatusConfig =>
      obtain ⟨statusConfig, rfl⟩ := seedStatusConfig_cases applied
      exact .inl rfl
  | deleteIssue =>
      cases applied
      left
      split <;> rfl
  | deleteProject =>
      obtain ⟨_, rest⟩ := require_bind_ok.mp applied
      cases rest
      left
      split <;> rfl
  | insertUser row =>
      obtain ⟨_, rest⟩ := require_bind_ok.mp applied
      cases rest
      exact .inr (.inl ⟨row, rfl, rfl⟩)
  | updateUser u removes =>
      obtain ⟨_, rest⟩ := require_bind_ok.mp applied
      cases rest
      exact .inr (.inr (.inl ⟨u, removes, rfl, rfl, rfl⟩))
  | updateUserLastLogin id at_ =>
      cases applied
      exact .inr (.inr (.inr (.inl ⟨id, at_, rfl, rfl⟩)))
  | deleteUser id actor userName now created =>
      obtain ⟨deletable, same, _⟩ := deleteUser_cases applied
      exact .inr (.inr (.inr (.inr ⟨id, actor, userName, now, created, rfl, deletable, same⟩)))
  | _ =>
      cases applied
      exact .inl rfl

/-- The sessions a write deletes. -/
def Write.deletesSession : Write → Int → SessionRow → Bool
  | .deleteSession id, key, _ => key == id
  | .deleteSessionsByUserID userID, _, row => row.userID == userID
  | .deleteExpiredSessions now, _, row => decide (row.expiresAt < now)
  | .deleteUser id _ _ _ _, _, row => row.userID == id
  | _, _, _ => false

/-- **What a write can do to sessions.** -/
theorem Write.sessions_cases (applied : w.apply s = .ok (rows, s')) :
    s'.sessions = s.sessions ∨
    (∃ row, w = .insertSession row ∧ rows = s.sessions.nextId ∧ s'.sessions = s.sessions.insert row) ∨
    (∃ id tokenHash expiresAt, w = .updateSession id tokenHash expiresAt ∧
      rows = s.sessions.count (fun key _ => key == id) ∧
      s'.sessions = s.sessions.update (fun key _ => key == id)
        fun row => { row with tokenHash, expiresAt }) ∨
    s'.sessions = s.sessions.delete w.deletesSession := by
  cases w with
  | insertIssue | insertTask | insertHistory | insertComment | upsertStatusConfig | insertProject
  | insertLabel | updateProject | updateIssue | insertUser | updateUser =>
      obtain ⟨_, rest⟩ := require_bind_ok.mp applied
      cases rest
      exact .inl rfl
  | insertRelease | updateRelease =>
      obtain ⟨_, rest⟩ := require_bind_ok.mp applied
      obtain ⟨_, rest⟩ := require_bind_ok.mp rest
      cases rest
      exact .inl rfl
  | updateIssuePositions =>
      obtain ⟨issues, rfl, _⟩ := updateIssuePositions_cases applied
      exact .inl rfl
  | updateTaskPositions =>
      obtain ⟨tasks, rfl⟩ := updateTaskPositions_cases applied
      exact .inl rfl
  | seedStatusConfig =>
      obtain ⟨statusConfig, rfl⟩ := seedStatusConfig_cases applied
      exact .inl rfl
  | deleteIssue =>
      cases applied
      left
      split <;> rfl
  | deleteProject =>
      obtain ⟨_, rest⟩ := require_bind_ok.mp applied
      cases rest
      left
      split <;> rfl
  | insertSession row =>
      obtain ⟨_, rest⟩ := require_bind_ok.mp applied
      cases rest
      exact .inr (.inl ⟨row, rfl, rfl, rfl⟩)
  | updateSession id tokenHash expiresAt =>
      cases applied
      exact .inr (.inr (.inl ⟨id, tokenHash, expiresAt, rfl, rfl, rfl⟩))
  | deleteUser id =>
      obtain ⟨_, _, same⟩ := deleteUser_cases applied
      exact .inr (.inr (.inr same))
  | deleteSession | deleteSessionsByUserID | deleteExpiredSessions =>
      cases applied
      exact .inr (.inr (.inr rfl))
  | _ =>
      cases applied
      exact .inl rfl

/-- A session update that changes a row finds the session. -/
theorem updateSession_found {id : Int} {tokenHash : String} {expiresAt : Instant}
    (applied : (Write.updateSession id tokenHash expiresAt).apply s = .ok (rows, s'))
    (changed : rows ≠ 0) : ∃ row, s.sessions.get? id = some row := by
  cases applied
  by_contra absent
  refine changed (Table.count_eq_zero_iff.mpr fun key row found => beq_false_of_ne ?_)
  rintro rfl
  exact absent ⟨row, found⟩

/-- A session update that finds the session changes a row. -/
theorem updateSession_changes {id : Int} {tokenHash : String} {expiresAt : Instant} {row : SessionRow}
    (found : s.sessions.get? id = some row) :
    ∃ rows, (Write.updateSession id tokenHash expiresAt).exec s =
      (.ok rows, ((Write.updateSession id tokenHash expiresAt).exec s).2) ∧ rows ≠ 0 := by
  refine ⟨s.sessions.count fun key _ => key == id, rfl, fun none => ?_⟩
  have spared := Table.count_eq_zero_iff.mp none id row found
  rw [beq_self_eq_true] at spared
  cases spared

/-- The row of a user is the same but for the time of the last login. -/
def UserRow.SameAccount (row row' : UserRow) : Prop :=
  ∃ lastLogin, row' = { row with lastLogin := lastLogin }

theorem UserRow.SameAccount.refl (row : UserRow) : row.SameAccount row := ⟨row.lastLogin, rfl⟩

theorem UserRow.SameAccount.trans {a b c : UserRow} (first : a.SameAccount b)
    (second : b.SameAccount c) : a.SameAccount c := by
  obtain ⟨_, rfl⟩ := first
  obtain ⟨t, rfl⟩ := second
  exact ⟨t, rfl⟩

/-- **What a write can do to one user**: an `UpdateUser` sets its columns, every other write keeps the
account or deletes it. -/
theorem Write.user_cases (applied : w.apply s = .ok (rows, s')) {id : Int} {row' : UserRow}
    (given : id ≤ s.users.seq) (found : s'.users.get? id = some row') :
    ∃ row, s.users.get? id = some row ∧
      ((∃ u removes, w = .updateUser u removes ∧ u.id = id ∧ rows ≠ 0 ∧ row' = UserRow.setFrom u row) ∨
        row.SameAccount row') := by
  rcases Write.users_cases applied with same | ⟨new, _, same⟩ | ⟨u, removes, rfl, counted, same⟩ |
    ⟨key, at_, _, same⟩ | ⟨key, _, _, _, _, _, _, same⟩ <;> rw [same] at found
  · exact ⟨row', found, .inr (.refl row')⟩
  · rw [Table.get?_insert_of_le _ _ given] at found
    exact ⟨row', found, .inr (.refl row')⟩
  · rw [Table.get?_update] at found
    obtain ⟨row, here, changed⟩ := Option.map_eq_some_iff.mp found
    refine ⟨row, here, ?_⟩
    by_cases chosen : s.updatable u removes id row = true
    · rw [if_pos chosen] at changed
      refine .inl ⟨u, removes, rfl, ?_, ?_, changed.symm⟩
      · unfold Store.updatable at chosen
        rw [Bool.and_eq_true, beq_iff_eq] at chosen
        exact chosen.1.symm
      · rw [counted]
        intro none
        rw [Table.count_eq_zero_iff.mp none id row here] at chosen
        cases chosen
    · rw [if_neg chosen] at changed
      exact .inr (changed ▸ .refl row)
  · rw [Table.get?_update] at found
    obtain ⟨row, here, changed⟩ := Option.map_eq_some_iff.mp found
    refine ⟨row, here, .inr ?_⟩
    rw [← changed]
    split
    · exact ⟨some at_, rfl⟩
    · exact .refl row
  · exact ⟨row', (Table.get?_delete_eq_some.mp found).1, .inr (.refl row')⟩

/-- An `UpdateUser` that changes a row sets the columns of its user. -/
theorem updateUser_sets {u : User} {removes : Bool}
    (applied : (Write.updateUser u removes).apply s = .ok (rows, s')) (changed : rows ≠ 0) :
    ∃ row, s.users.get? u.id = some row ∧ s'.users.get? u.id = some (UserRow.setFrom u row) := by
  obtain ⟨_, rest⟩ := require_bind_ok.mp applied
  cases rest
  have chosen : ∃ id row, s.users.get? id = some row ∧ s.updatable u removes id row = true := by
    by_contra none
    refine changed (Table.count_eq_zero_iff.mpr fun id row found => ?_)
    by_contra chosen
    exact none ⟨id, row, found, (Bool.not_eq_false _).mp chosen⟩
  obtain ⟨id, row, found, chosen⟩ := chosen
  obtain rfl : id = u.id := by
    unfold Store.updatable at chosen
    rw [Bool.and_eq_true, beq_iff_eq] at chosen
    exact chosen.1
  refine ⟨row, found, ?_⟩
  show (s.users.update (s.updatable u removes) (UserRow.setFrom u)).get? u.id = _
  rw [Table.get?_update, found]
  exact congrArg some (if_pos chosen)

end Cases

/-- A session lookup reads the row of a session with that token. -/
theorem sessionByToken_found {s : Store} {token : List UInt8} {session : Session}
    (found : Select.eval (.sessionByToken token) s = some session) :
    ∃ row, s.sessions.get? session.id = some row ∧ session = scanSessionRow session.id row ∧
      row.sessionToken = token := by
  obtain ⟨⟨id, row⟩, here, rfl⟩ := Option.map_eq_some_iff.mp found
  refine ⟨row, Table.mem_entries_iff.mp (List.mem_of_find?_eq_some here), rfl, ?_⟩
  simpa using List.find?_some here

end Wuflow

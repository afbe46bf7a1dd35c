/-
**There is always an active system administrator.**

The guard that protects the last one is part of the statement that takes the right away, so one step
suffices: a guarded write keeps at least one active sysadmin (`HasSysAdmin.write`), whatever row it
writes and however old its caller's copy is. The rest is that no program sends an unguarded one
(`Query.Guarded`).
-/

import Wuflow.Requests.Runs
import Wuflow.Store.AccountSteps

namespace Wuflow

open Calendar (Instant)
open Interleave (Config Prog Entry Event Run Steps own mem_own own_append own_cons_self entry_mem_own steps_append_iff
  steps_cons_iff steps_nil_iff)
open Interleave.Stopping (Asks Obeys)
open Relational (Table)

/-! ### Counting rows -/

/-- If more than one row is selected, one of them is under another key. -/
theorem exists_other_of_count {ρ : Type} {t : Table ρ} {selects : Int → ρ → Bool}
    (several : 1 < t.count selects) (id : Int) :
    ∃ other row, other ≠ id ∧ t.get? other = some row ∧ selects other row = true := by
  by_contra none
  have only : ∀ entry ∈ t.entries, selects entry.1 entry.2 = true → (entry.1 == id) = true := by
    rintro ⟨key, row⟩ member chosen
    rw [beq_iff_eq]
    by_contra differ
    exact none ⟨key, row, differ, Table.mem_entries_iff.mp member, chosen⟩
  have fewer : (t.entries.countP fun entry => selects entry.1 entry.2) ≤
      t.entries.countP fun entry => entry.1 == id := List.countP_mono_left only
  have once : (t.entries.countP fun entry => entry.1 == id) ≤ 1 := by
    have keys := List.nodup_iff_count_le_one.mp t.nodup id
    rwa [List.count, List.countP_map] at keys
  unfold Table.count at several
  omega

/-! ### The invariant -/

def UserRow.isSysAdmin (row : UserRow) : Bool := row.role == .sysadmin && row.active

/-- There is an active system administrator. -/
def HasSysAdmin (s : Store) : Prop := ∃ id row, s.users.get? id = some row ∧ row.isSysAdmin = true

/-- An `UpdateUser` statement carries the guard for the row it writes. -/
def Query.Guarded : Query → Prop
  | .write (.updateUser u removesSysAdmin) => removesSysAdmin = (u.role != .sysadmin || !u.active)
  | _ => True

section Writes

variable {s s' : Store} {rows : Int} {w : Write}

/-- An active sysadmin who is not the last one leaves another. -/
theorem exists_other_sysadmin (id : Int) {row : UserRow} (sysadmin : row.isSysAdmin = true)
    (notLast : s.lastActiveSysAdmin row = false) :
    ∃ other row', other ≠ id ∧ s.users.get? other = some row' ∧ row'.isSysAdmin = true := by
  refine exists_other_of_count ?_ id
  unfold Store.lastActiveSysAdmin at notLast
  unfold UserRow.isSysAdmin at sysadmin
  rw [sysadmin, Bool.true_and, decide_eq_false_iff_not] at notLast
  exact not_le.mp notLast

theorem update_other {ρ : Type} {t : Table ρ} {selects : Int → ρ → Bool} {change : ρ → ρ} {id : Int}
    {row : ρ} (found : t.get? id = some row) (spared : selects id row = false) :
    (t.update selects change).get? id = some row := by
  rw [Store.Grows.update_keeps selects change found, if_neg (by rw [spared]; exact nofun)]

/-- **A guarded write keeps an active sysadmin.** -/
theorem HasSysAdmin.write (some_ : HasSysAdmin s) (guarded : (Query.write w).Guarded)
    (applied : w.apply s = .ok (rows, s')) : HasSysAdmin s' := by
  obtain ⟨id, row, found, sysadmin⟩ := some_
  rcases Write.users_cases applied with same | ⟨new, _, same⟩ | ⟨u, removes, rfl, _, same⟩ |
    ⟨key, at_, _, same⟩ | ⟨key, _, _, _, _, _, deletable, same⟩
  · exact ⟨id, row, same ▸ found, sysadmin⟩
  · exact ⟨id, row, same ▸ Store.Grows.insert_keeps new found, sysadmin⟩
  · -- the update may take the right from the row at hand, but then another row has it
    by_cases own : id = u.id
    · cases promoted : removes with
      | false =>
          rw [promoted] at guarded
          refine ⟨id, UserRow.setFrom u row, ?_, ?_⟩
          · rw [same, Store.Grows.update_keeps _ _ found, if_pos]
            rw [promoted, Store.updatable, own]
            simp
          · simpa [UserRow.isSysAdmin, UserRow.setFrom, Bool.or_eq_false_iff] using guarded.symm
      | true =>
          by_cases last : s.lastActiveSysAdmin row = true
          · refine ⟨id, row, ?_, sysadmin⟩
            rw [same]
            exact update_other found (by simp [Store.updatable, promoted, last])
          · rw [Bool.not_eq_true] at last
            obtain ⟨other, row', differ, found', sysadmin'⟩ := exists_other_sysadmin id sysadmin last
            refine ⟨other, row', ?_, sysadmin'⟩
            rw [same]
            exact update_other found' (by simp [Store.updatable, own ▸ differ])
    · refine ⟨id, row, ?_, sysadmin⟩
      rw [same]
      exact update_other found (by simp [Store.updatable, own])
  · refine ⟨id, _, same ▸ Store.Grows.update_keeps _ _ found, ?_⟩
    split <;> exact sysadmin
  · by_cases own : id = key
    · obtain ⟨row', found', notLast⟩ := Table.holds_eq_true_iff.mp deletable
      subst own
      cases found.symm.trans found'
      rw [Bool.not_eq_true'] at notLast
      obtain ⟨other, row', differ, found', sysadmin'⟩ := exists_other_sysadmin id sysadmin notLast
      refine ⟨other, row', ?_, sysadmin'⟩
      rw [same]
      exact Table.get?_delete_eq_some.mpr ⟨found', beq_false_of_ne differ⟩
    · refine ⟨id, row, ?_, sysadmin⟩
      rw [same]
      exact Table.get?_delete_eq_some.mpr ⟨found, beq_false_of_ne own⟩

/-- Whether the guard of a write refuses it, once the statements before it have passed. -/
def Store.refuses (s : Store) : Write → Bool
  | .updateUser u removesSysAdmin => removesSysAdmin && s.users.holds u.id s.lastActiveSysAdmin
  | .deleteUser id actor _ _ _ =>
      (s.issues.count (fun _ row => row.assigneeID == some id) == 0 || refExists s.users actor) &&
        s.users.holds id s.lastActiveSysAdmin
  | _ => false

theorem refused_updateUser {u : User} {removes : Bool} (refused : s.refuses (.updateUser u removes) = true) :
    (Write.updateUser u removes).exec s = (.ok 0, s) := by
  unfold Store.refuses at refused
  rw [Bool.and_eq_true] at refused
  obtain ⟨rfl, last⟩ := refused
  obtain ⟨row, found, last⟩ := Table.holds_eq_true_iff.mp last
  have spared : ∀ id row', s.users.get? id = some row' → s.updatable u true id row' = false := by
    intro id row' found'
    unfold Store.updatable
    by_cases own : id = u.id
    · subst own
      cases found.symm.trans found'
      simp [last]
    · simp [own]
  have none : s.users.count (s.updatable u true) = 0 := Table.count_eq_zero_iff.mpr spared
  have same : s.users.update (s.updatable u true) (UserRow.setFrom u) = s.users :=
    Table.update_of_none spared
  have unconstrained : (s.users.count (s.updatable u true) == 0 ||
      !s.users.any fun key other => key != u.id && other.email == u.email) = true := by
    rw [none]
    rfl
  have applied : (Write.updateUser u true).apply s = .ok (s.users.count (s.updatable u true),
      { s with users := s.users.update (s.updatable u true) (UserRow.setFrom u) }) :=
    require_bind_true unconstrained
  rw [none, same] at applied
  exact Write.exec_of_ok applied

theorem refused_deleteUser {id : Int} {actor : Option Int} {userName : String} {now created : Instant}
    (refused : s.refuses (.deleteUser id actor userName now created) = true) :
    (Write.deleteUser id actor userName now created).exec s = (.error .lastSysAdmin, s) := by
  unfold Store.refuses at refused
  rw [Bool.and_eq_true] at refused
  obtain ⟨references, last⟩ := refused
  obtain ⟨row, found, last⟩ := Table.holds_eq_true_iff.mp last
  have deletable : s.users.holds id (fun row => !s.lastActiveSysAdmin row) = false := by
    unfold Table.holds
    rw [found]
    simp [last]
  have exists_ : s.users.holds id (fun _ => true) = true :=
    Table.holds_eq_true_iff.mpr ⟨row, found, rfl⟩
  have refuses : (s.users.holds id (fun row => !s.lastActiveSysAdmin row) ||
      !s.users.holds id fun _ => true) = false := by rw [deletable, exists_]; rfl
  have failed : s.deleteUser id actor userName now created = .error .lastSysAdmin :=
    (require_bind_true references).trans (require_bind_false refuses)
  exact Write.exec_of_error failed

/-- **A refused write changes no table.** -/
theorem refused_changes_nothing (refused : s.refuses w = true) : (w.exec s).2 = s := by
  cases w with
  | updateUser u removes => rw [refused_updateUser refused]
  | deleteUser id actor userName now created => rw [refused_deleteUser refused]
  | _ => exact nomatch refused

end Writes

/-! ### Calls of the user functions -/

/-- A call of a user function, with any row its caller may hold. -/
inductive UserCall
  | create (u : User)
  | update (u : User)
  | delete (id actorID : Int) (userName : String)

def UserCall.run : UserCall → Db Unit
  | .create u => do
      let _ ← createUser u
  | .update u => do
      let _ ← updateUser u
  | .delete id actorID userName => do
      let _ ← deleteUser id actorID userName

/-- Whoever writes users: a request of any kind, or a single call. -/
inductive UserClient
  | request (req : Request)
  | call (c : UserCall)

/-- What a client runs, with the result of its call. -/
def UserClient.program (host : Host) : UserClient → Backend (Except Err Unit)
  | .request req => do
      let _ ← serve host req
      return .ok ()
  | .call c => c.run.run

theorem updateUser_guarded (u : User) : Asks Query.Guarded (updateUser u) := by
  refine Asks.bind (Asks.lift (ask_asks (by exact trivial))) fun updatedAt => ?_
  refine Asks.bind (onDuplicate_asks (exec_asks (by exact rfl)) _) fun rows => ?_
  refine Asks.bind (Asks.ite ?_ (Asks.pure _)) fun _ => Asks.pure _
  exact Asks.bind (select_asks (by exact trivial)) fun _ => Asks.throw _

theorem UserCall.run_guarded (c : UserCall) : Asks Query.Guarded c.run := by
  cases c with
  | create u =>
      refine Asks.bind (Asks.bind (Asks.lift (ask_asks (by exact trivial))) fun _ => ?_) fun _ => Asks.pure _
      exact Asks.bind (onDuplicate_asks (exec_asks (by exact trivial)) _) fun _ => Asks.pure _
  | update u => exact Asks.bind (updateUser_guarded u) fun _ => Asks.pure _
  | delete id actorID userName =>
      refine Asks.bind (Asks.bind (Asks.lift (ask_asks (by exact trivial))) fun _ => ?_) fun _ => Asks.pure _
      exact Asks.bind (Asks.lift (ask_asks (by exact trivial))) fun _ => exec_asks (by exact trivial)

/-- No client sends an unguarded update. -/
theorem UserClient.program_guarded (host : Host) (client : UserClient) :
    (client.program host).Obeys (fun _ query => query.Guarded) (fun _ _ => True) [] := by
  cases client with
  | call c => exact Prog.Obeys.of_asks c.run_guarded fun _ _ here => here
  | request req =>
      have obeyed : (serve host req).Obeys (fun _ query => query.Guarded) (fun _ _ => True) [] := by
        refine (serve_disciplined host req).mono (fun past query here => ?_) fun _ _ _ => trivial
        cases query with
        | write w =>
            cases w with
            | updateUser u removes => exact here.1
            | _ => trivial
        | _ => trivial
      exact obeyed.bind fun _ _ _ => trivial

/-! ### What a refused call reports -/

/-- After a user write that changed no row, a call looks whether the user exists. -/
def LooksAgain (past : Past) (query : Query) : Prop :=
  ∀ u removes rest, past = ⟨.write (.updateUser u removes), .ok 0⟩ :: rest →
    query = .read (.userExists u.id)

/-- The entry is the refusal of a user write, or the look that follows it and finds the user. -/
def SeesRefusal : Entry Query.Answer → Prop
  | ⟨.read (.userExists _), answer⟩ => answer = .ok true
  | ⟨.write _, answer⟩ => answer = .error .lastSysAdmin
  | _ => False

/-- A call that has seen a refusal reports the last administrator. -/
def Reports (later : Past) (result : Except Err Unit) : Prop :=
  (∃ entry ∈ later, SeesRefusal entry) → result = .error .lastSysAdmin

/-- The error of a write is passed on. -/
theorem reports_error {w : Write} {past : Past} {err : Err} {result : Except Err Unit}
    (passed : err = .lastSysAdmin → result = .error .lastSysAdmin)
    (quiet : ∀ entry ∈ past, ¬ SeesRefusal entry) :
    Reports (⟨.write w, .error err⟩ :: past) result := by
  rintro ⟨entry, member, sees⟩
  rcases List.mem_cons.mp member with rfl | member
  · exact passed (Except.error.inj sees)
  · exact absurd sees (quiet entry member)

theorem reports_of_quiet {past : Past} {result : Except Err Unit}
    (quiet : ∀ entry ∈ past, ¬ SeesRefusal entry) : Reports past result := by
  rintro ⟨entry, member, sees⟩
  exact absurd sees (quiet entry member)

/-- **A call reports the refusal it sees.** -/
theorem UserCall.run_reports (c : UserCall) : c.run.run.Obeys LooksAgain Reports [] := by
  cases c with
  | create u =>
      refine ⟨fun _ _ _ same => (by cases same), fun updatedAt => ?_⟩
      refine ⟨fun _ _ _ same => (by cases same), fun answer => ?_⟩
      cases answer with
      | ok id => exact reports_of_quiet (by simp [SeesRefusal])
      | error err => exact reports_error (fun same => by subst same; rfl) (by simp [SeesRefusal])
  | update u =>
      refine ⟨fun _ _ _ same => (by cases same), fun updatedAt => ?_⟩
      refine ⟨fun _ _ _ same => (by cases same), fun answer => ?_⟩
      cases answer with
      | error err => exact reports_error (fun same => by subst same; rfl) (by simp [SeesRefusal])
      | ok rows =>
          by_cases none : rows = 0
          · -- no row was changed: the call looks whether the user exists
            subst none
            refine ⟨fun u' removes rest same => (by cases same; rfl), fun answer => ?_⟩
            cases answer with
            | error err => exact reports_of_quiet (by simp [SeesRefusal])
            | ok found =>
                cases found with
                | true => exact fun _ => rfl
                | false => exact reports_of_quiet (by simp [SeesRefusal])
          · have written : userWriteErr rows (select (.userExists u.id)) = pure () := if_neg none
            show Prog.Obeys LooksAgain Reports _
              ((do
                userWriteErr rows (select (.userExists u.id))
                return { u with updatedAt } : Db User) >>= fun _ => pure ()).run
            rw [written]
            exact reports_of_quiet (by simp [SeesRefusal])
  | delete id actorID userName =>
      refine ⟨fun _ _ _ same => (by cases same), fun created => ?_⟩
      refine ⟨fun _ _ _ same => (by cases same), fun now => ?_⟩
      refine ⟨fun _ _ _ same => (by cases same), fun answer => ?_⟩
      cases answer with
      | ok id => exact reports_of_quiet (by simp [SeesRefusal])
      | error err => exact reports_error (fun same => by subst same; rfl) (by simp [SeesRefusal])

/-! ### Runs -/

section Runs

variable {ι : Type} [DecidableEq ι] {host : Host} {clients : ι → UserClient} {start s : Store}
  {trace : List (Step ι)} {current : ι → Backend (Except Err Unit)}

/-- **An active sysadmin remains**, whoever writes users in whatever order. -/
theorem hasSysAdmin_of_run (some_ : HasSysAdmin start)
    (run : Run Query.perform start (fun i => (clients i).program host) trace s current) :
    HasSysAdmin s := by
  refine Run.invariant (fun _ s => HasSysAdmin s) some_ ?_ run
  intro event past before pool after earlier here asks holds
  obtain ⟨next, asks⟩ := asks
  have obeyed : (pool event.thread).Obeys (fun _ query => query.Guarded) (fun _ _ => True)
      (own event.thread past) := earlier.obeys ((clients event.thread).program_guarded host)
  rw [asks] at obeyed
  rcases perform_cases here with ⟨w, rows, entry, applied⟩ | ⟨same, _⟩
  · have guarded := obeyed.1
    rw [show event.query = .write w from congrArg Sigma.fst entry] at guarded
    exact holds.write guarded applied
  · rw [show after = before from same]
    exact holds

/-- The statement that follows a refused update finds the user. -/
theorem sees_refusal {later earlier : List (Step ι)} {write : Step ι} {before after : Store} {w : Write}
    {c : UserCall} (call : clients write.thread = .call c)
    (run : Run Query.perform start (fun i => (clients i).program host) (later ++ write :: earlier) s
      current)
    (here : write.query.perform before write.answer after) (rest : Steps Query.perform after later s)
    (same : write.query = .write w) (refused : before.refuses w = true)
    (undisturbed : ∀ u removes, w = .updateUser u removes →
      ∃ more check, later = more ++ [check] ∧ check.thread = write.thread) :
    ∃ entry ∈ own write.thread (later ++ write :: earlier), SeesRefusal entry := by
  obtain ⟨thread, query, answer⟩ := write
  subst same
  have local_ : (fun i => (clients i).program host) thread |>.Obeys LooksAgain Reports [] := by
    show Prog.Obeys _ _ _ ((clients thread).program host)
    rw [show clients thread = .call c from call]
    exact c.run_reports
  cases w with
  | updateUser u removes =>
      obtain ⟨rfl, rfl⟩ := Prod.mk.inj ((refused_updateUser refused).symm.trans here)
      obtain ⟨more, check, rfl, own_⟩ := undisturbed u removes rfl
      obtain ⟨thread', query, answer⟩ := check
      obtain rfl : thread' = thread := own_
      rw [List.append_assoc] at run
      have looks : LooksAgain (own thread'
          (⟨thread', .write (.updateUser u removes), .ok 0⟩ :: earlier)) query :=
        Run.rule_of_event local_ run
      obtain rfl := looks u removes _
        (own_cons_self (⟨thread', .write (.updateUser u removes), .ok 0⟩ : Step ι) earlier)
      obtain ⟨middle, first, _⟩ := steps_append_iff.mp rest
      obtain ⟨_, same, looked⟩ := steps_cons_iff.mp first
      rw [steps_nil_iff] at same
      subst same
      obtain ⟨rfl, _⟩ := perform_read looked
      obtain ⟨row, found, _⟩ := Table.holds_eq_true_iff.mp (Bool.and_eq_true_iff.mp refused).2
      refine ⟨_, mem_own.mpr ⟨⟨thread', .read (.userExists u.id), _⟩, List.mem_append_left _
        (List.mem_append_right _ (List.mem_singleton_self _)), rfl, rfl⟩, ?_⟩
      exact congrArg Except.ok (Table.holds_eq_true_iff.mpr ⟨row, found, rfl⟩)
  | deleteUser id actor userName now created =>
      obtain ⟨rfl, rfl⟩ := Prod.mk.inj ((refused_deleteUser refused).symm.trans here)
      exact ⟨_, entry_mem_own (List.mem_append_right _ List.mem_cons_self), rfl⟩
  | _ => exact nomatch refused

/-- **The last system administrator is never lost.** Whoever creates, updates and deletes users, from
any rows and in any order of their statements, an active sysadmin remains. A write refused for that
reason changes no table, and a call whose statements no other step separates returns
`ErrLastSysAdmin`. -/
theorem last_sysadmin_kept (some_ : HasSysAdmin start)
    (run : Run Query.perform start (fun i => (clients i).program host) trace s current) :
    HasSysAdmin s ∧
      ∀ later write earlier before after w, trace = later ++ write :: earlier →
        Steps Query.perform start earlier before → write.query.perform before write.answer after →
        Steps Query.perform after later s → write.query = .write w → before.refuses w = true →
        after = before ∧
          ∀ c result, clients write.thread = .call c →
            (∀ u removes, w = .updateUser u removes →
              ∃ more check, later = more ++ [check] ∧ check.thread = write.thread) →
            current write.thread = .done result → result = .error .lastSysAdmin := by
  refine ⟨hasSysAdmin_of_run some_ run, ?_⟩
  intro later write earlier before after w trace_ first here rest same refused
  subst trace_
  refine ⟨?_, fun c result call undisturbed finished => ?_⟩
  · obtain ⟨thread, query, answer⟩ := write
    subst same
    exact (congrArg Prod.snd here).symm.trans (refused_changes_nothing refused)
  · have local_ : ((clients write.thread).program host).Obeys LooksAgain Reports [] := by
      rw [call]
      exact c.run_reports
    have reports : Reports (own write.thread (later ++ write :: earlier)) result := by
      have obeyed : (current write.thread).Obeys LooksAgain Reports _ := run.obeys local_
      rw [finished] at obeyed
      exact obeyed
    exact reports (sees_refusal call run here rest same refused undisturbed)

/-- The row of an active sysadmin. -/
def adminRow : UserRow :=
  { email := "root@example.com", firstName := "", lastName := "", passwordHash := "",
    role := .sysadmin, active := true, updatedAt := 0, lastLogin := none }

/-- A store without other users. -/
def soleAdmin : Store := { createTables with users := createTables.users.insert adminRow }

/-- One call demotes that user while another one deletes it. -/
def clashing : Bool → UserClient
  | false => .call (.update { id := 1, email := "root@example.com", role := .user, active := true })
  | true => .call (.delete 1 1 "Root")

/-- The delete begins first and ends last. -/
def clash : Config Bool Query.Answer Store (Except Err Unit) :=
  Config.play Query.respond ⟨[], soleAdmin, fun i => (clashing i).program sampleHost⟩
    (stepsOf true 2 {} ++ stepsOf false 3 {} ++ stepsOf true 1 {})

/-- Both calls are refused. -/
theorem last_sysadmin_kept_clash :
    HasSysAdmin clash.store ∧ clash.current false = .done (.error .lastSysAdmin) := by
  have some_ : HasSysAdmin soleAdmin := ⟨1, _, rfl, rfl⟩
  have run : Run Query.perform soleAdmin (fun i => (clashing i).program sampleHost) clash.past
      clash.store clash.current := Run.of_schedule Query.perform_respond _ Run.nil
  have kept := last_sysadmin_kept some_ run
  refine ⟨kept.1, ?_⟩
  have done_ : ∃ result, clash.current false = .done result := ⟨_, rfl⟩
  obtain ⟨result, done_⟩ := done_
  have refused := kept.2 [_, _] _ [_, _, _] soleAdmin soleAdmin _ rfl
    (.step _ (.step _ (.step _ .refl rfl) rfl) rfl) (refused_updateUser (by decide))
    (.step _ (.step _ .refl ⟨rfl, rfl⟩) (refused_deleteUser (by decide))) rfl (by decide)
  rw [done_, refused.2 _ result rfl (fun _ _ _ => ⟨[_], _, rfl, rfl⟩) done_]

end Runs

end Wuflow

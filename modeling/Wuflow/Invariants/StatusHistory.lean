/-
**Which changes of a status are in the history.**

A PUT records the fields that differ before and after it, archive, unarchive and move record an event of
their own. A release trigger with `archive_done` archives issues in a single statement and records nothing,
and a PUT that cannot read the issue again after its write records nothing either.

* `Recorded` — the status changes between two databases are in the history, with the acting user.
* `Served` — a request is served to its end where every statement but the insert of a history row may fail.
* `Turn.Misses` — it takes one of these two steps after which a change has no entry.
* `status_changes_recorded` — every request that does not records its status changes, over whole runs of
  requests served one after the other.
* `archived_unrecorded` — a trigger that does not.
-/

import Wuflow.Invariants.ReleaseTrigger
import Wuflow.Requests.Alone

namespace Wuflow

open Calendar (Instant)
open Interleave (Prog Entry Event Run Steps own)
open Interleave.Stopping (Asks Ensures)
open Relational (Table)

/-! ### Recorded changes -/

/-- The entry shows that the status went from `old` to `new`. -/
def HistoryRow.Shows (entry : HistoryRow) (old new : IssueStatus) : Prop :=
  match entry.event with
  | .updated => entry.data = { field := "status", from_ := old.text, to_ := new.text }
  | .archived => new = .archive
  | .unarchived => old = .archive
  | .moved => new = .open
  | _ => False

/-- The history of the issue gains an entry of the user that shows the change. -/
def Gains (before after : Store) (id : Int) (user : Option Int) (old new : IssueStatus) : Prop :=
  ∃ key entry, before.history.get? key = none ∧ after.history.get? key = some entry ∧
    entry.issueID = id ∧ entry.userID = user ∧ entry.Shows old new

/-- The requests that change the status of an issue, with who sends them. -/
def Request.changesStatus : Request → Option Caller
  | .putIssue caller _ _ _ _ | .archiveIssue caller _ _ | .unarchiveIssue caller _ _
  | .moveIssue caller _ _ _ | .triggerRelease caller _ _ _ => some caller
  | _ => none

/-- **Every change of a status by the request is in the history**, with the acting user. -/
def Recorded (before : Store) (req : Request) (after : Store) : Prop :=
  ∀ id row row', before.issues.get? id = some row → after.issues.get? id = some row' →
    row'.status.text ≠ row.status.text → ∃ caller, req.changesStatus = some caller ∧
      Gains before after id (actor caller.userID) row.status row'.status

/-- A trigger archives issues of an open release that are done. -/
def ArchivesDone (before : Store) (req : Request) : Prop :=
  ∃ caller projectID id, req = .triggerRelease caller (some projectID) (some id) (.json ⟨true⟩) ∧
    can caller.role .triggerRelease = true ∧
    (∃ release, before.releases.get? id = some release ∧ release.projectID = projectID ∧
      release.status = .open) ∧
    ∃ key issue, before.issues.get? key = some issue ∧ issue.releaseID = some id ∧ issue.status = .done

/-! ### Requests alone -/

/-- The answer is no failure of a history insert. -/
def Query.Logs : (query : Query) → query.Answer → Bool
  | .write (.insertHistory _), .error _ => false
  | _, _ => true

/-- **A step of a request after which a status change has no entry.** -/
inductive Misses (before : Store) (req : Request) (s : Store) : Entry Query.Answer → Prop
  -- a PUT has changed the status and cannot read the issue again
  | reread {caller : Caller} {pId : Option Int} {id : Int} {ifMatch : String} {body : Body Issue} {q : Select}
      {row row' : IssueRow} (put : req = .putIssue caller pId (some id) ifMatch body)
      (old : before.issues.get? id = some row) (updated : s.issues.get? id = some row')
      (differ : row'.status.text ≠ row.status.text) : Misses before req s ⟨.read q, .error .fault⟩
  -- a trigger archives
  | archives {release : Int} {now : Instant} {rows : Int} (archives : ArchivesDone before req) :
      Misses before req s ⟨.write (.archiveDone release now), .ok rows⟩

/-- **What a query does to the store** where any statement but the insert of a history row may fail, and no
step of the request misses a change. -/
def Query.recording (before : Store) (req : Request) (query : Query) (s : Store) (answer : query.Answer)
    (s' : Store) : Prop :=
  query.tried Query.faulty s answer s' ∧ query.Logs answer = true ∧ ¬ Misses before req s ⟨query, answer⟩

theorem tame_recording (before : Store) (req : Request) : Tame Query.faulty (Query.recording before req) :=
  fun _ _ _ _ here => here.1

/-- What every end of a program, alone from `s`, satisfies there. -/
abbrev Alone {ε α : Type} (before : Store) (req : Request) (post : α → Store → Prop)
    (stop : ε → Store → Prop) (p : ExceptT ε Backend α) (s : Store) : Prop :=
  Ensures (Query.recording before req) post stop p s

/-! ### One write -/

section Writes

variable {w : Write} {s s' : Store} {rows id : Int} {row row' : IssueRow}

def SameStatus (_ : Int) (row row' : IssueRow) : Prop := row'.status = row.status

theorem SameStatus.refl (id : Int) (row : IssueRow) : SameStatus id row row := rfl

theorem SameStatus.trans (id : Int) (a b c : IssueRow) (first : SameStatus id a b)
    (second : SameStatus id b c) : SameStatus id a c := Eq.trans second first

/-- From `s` to `s'` no status changes. -/
abbrev KeepsStatus (s s' : Store) : Prop := Table.Evolves SameStatus s.issues s'.issues

theorem KeepsStatus.same (kept : KeepsStatus s s') (here : s.issues.get? id = some row)
    (there : s'.issues.get? id = some row') : row'.status = row.status := by
  obtain ⟨old, found, same⟩ := kept.old id row' (Table.get?_le_seq here).2 there
  obtain rfl := Option.some.inj (here.symm.trans found)
  exact same

theorem KeepsStatus.recorded {req : Request} (kept : KeepsStatus s s') : Recorded s req s' :=
  fun _ _ _ here there differ => absurd (congrArg IssueStatus.text (kept.same here there)) differ

theorem KeepsStatus.of_issues (same : s'.issues = s.issues) : KeepsStatus s s' := by
  unfold KeepsStatus
  rw [same]
  exact .refl SameStatus.refl _

theorem KeepsStatus.trans {s'' : Store} (first : KeepsStatus s s') (second : KeepsStatus s' s'') :
    KeepsStatus s s'' :=
  Table.Evolves.trans SameStatus.trans first second

/-- A cleared reference is no status. -/
theorem setNull_status {t u : Table IssueRow} {deleted : Int → Bool} {reference : IssueRow → Option Int}
    {clear : IssueRow → IssueRow} (first : Table.Evolves SameStatus t u)
    (keeps : ∀ row, (clear row).status = row.status) :
    Table.Evolves SameStatus t (setNull u deleted reference clear) :=
  first.trans SameStatus.trans
    (Table.Evolves.update _ _ _ SameStatus.refl fun _ row _ _ => keeps row)

theorem deleteUser_status {user : Int} {actor : Option Int} {userName : String} {now created : Instant}
    (deleted : s.deleteUser user actor userName now created = .ok (rows, s')) : KeepsStatus s s' := by
  obtain ⟨_, rest⟩ := require_bind_ok.mp deleted
  obtain ⟨_, rest⟩ := require_bind_ok.mp rest
  obtain ⟨_, rest⟩ := require_bind_ok.mp rest
  cases rest
  have unassigned : Table.Evolves SameStatus s.issues (s.issues.update
      (fun _ row => row.assigneeID == some user) (IssueRow.unassign actor now)) :=
    Table.Evolves.update _ _ _ SameStatus.refl fun _ _ _ _ => rfl
  -- the foreign-key actions clear creator, assignee and updater
  unfold KeepsStatus
  rw [Store.deleteUserRow_issues]
  refine setNull_status (setNull_status (setNull_status unassigned ?_) ?_) ?_
  · exact fun _ => rfl
  · exact fun _ => rfl
  · exact fun _ => rfl

/-- **Only `UpdateIssue` and the archiving of Done issues change a status.** -/
theorem Write.status_kept (applied : w.apply s = .ok (rows, s'))
    (noUpdate : ∀ id cols, w ≠ .updateIssue id cols) (noArchiving : ∀ r now, w ≠ .archiveDone r now) :
    KeepsStatus s s' := by
  refine ⟨(Write.evolves applied).issues.seq_le, fun id row' given there => ?_⟩
  rcases Write.issue_cases applied there with ⟨_, rfl, _⟩ | ⟨_, cols, same, _⟩ | ⟨row, found, carried⟩
  · exact absurd given (by show ¬ s.issues.seq + 1 ≤ s.issues.seq; omega)
  · exact absurd same (noUpdate id cols)
  · rcases carried.version with stamped | unstamped
    · cases w with
      | insertIssue inserted =>
          obtain ⟨_, rest⟩ := require_bind_ok.mp applied
          cases rest
          rw [Table.get?_insert_of_le _ _ given] at there
          exact ⟨row', there, rfl⟩
      | updateIssue key cols => exact absurd rfl (noUpdate key cols)
      | archiveDone r now => exact absurd rfl (noArchiving r now)
      | deleteUser user actor userName now created =>
          exact (deleteUser_status applied).old id row' given there
      | _ => exact nomatch stamped
    · exact ⟨row, found, unstamped.text.status⟩

end Writes

/-! ### The writes of a handler -/

/-- At most the issue `id` has got a status, which is `status`, and nothing has been recorded. -/
structure Rewrites (s s' : Store) (id : Int) (status : IssueStatus) : Prop where
  history : s'.history = s.history
  issues : ∀ key row', s'.issues.get? key = some row' → ∀ row, s.issues.get? key = some row →
    row'.status = row.status ∨ (key = id ∧ row'.status = status)

section Handlers

variable {s s' before after start : Store} {rows id issueID userID : Int} {cols : IssueColumns}
  {event : HistoryEvent} {data : ChangeData} {req : Request} {caller : Caller}

theorem Rewrites.of_same (history : s'.history = s.history) (kept : KeepsStatus s s')
    (status : IssueStatus) : Rewrites s s' id status where
  history
  issues _ _ there _ here := .inl (kept.same here there)

theorem updateIssue_rewrites (applied : (Write.updateIssue id cols).apply s = .ok (rows, s')) :
    Rewrites s s' id cols.status := by
  obtain ⟨_, rest⟩ := require_bind_ok.mp applied
  cases rest
  refine ⟨rfl, fun key row' there row here => ?_⟩
  obtain ⟨old, found, ⟨chosen, rfl⟩ | ⟨_, rfl⟩⟩ := update_found there
  · exact .inr ⟨beq_iff_eq.mp chosen, rfl⟩
  · exact .inl (by rw [Option.some.inj (here.symm.trans found)])

theorem updateIssue_none (applied : (Write.updateIssue id cols).apply s = .ok (0, s')) : s' = s := by
  obtain ⟨_, rest⟩ := require_bind_ok.mp applied
  obtain ⟨none, rfl⟩ := Prod.mk.inj (Except.ok.inj rest)
  rw [Table.update_of_none (Table.count_eq_zero_iff.mp none)]

/-- `UpdateIssue`, alone. -/
theorem updateIssue_alone {i : Issue} {post : Issue → Store → Prop} {stop : Err → Store → Prop}
    (fails : ∀ err, stop err s)
    (next : ∀ written s', Rewrites s s' i.id i.status → post written s') :
    Alone start req post stop (updateIssue i) s := by
  have tame := tame_recording start req
  refine Ensured.ask tame now_reading fun updatedAt => Ensured.exec tame fails fun rows s' applied => ?_
  refine Ensured.checkRowsAffected (fun none => ?_) fun _ => ?_
  · subst none
    rw [updateIssue_none applied]
    exact fails _
  · exact next _ s' (updateIssue_rewrites applied)

/-- **`recordHistory`**, alone. -/
theorem recordHistory_alone : (recordHistory issueID userID event data).Ensures (Query.recording start req)
    (fun _ s' => ∃ created,
      s' = { s with history := s.history.insert (historyRow issueID userID event data created) }) s := by
  refine Prog.Ensures.bind fun created s' here => ?_
  obtain rfl : s' = s :=
    reading_same (tame_recording start req) (show Query.currentTimestamp.Reading from trivial) here
  intro answer s'' here
  obtain ⟨tried, logs, _⟩ := here
  cases answer with
  | error err => exact nomatch logs
  | ok rows =>
      obtain ⟨_, rest⟩ := require_bind_ok.mp (tried_ok tried)
      cases rest
      refine ⟨created, ?_⟩
      rw [nullableUserID_actor]
      rfl

theorem Alone.record {β : Type} {post : β → Store → Prop} {stop : Response → Store → Prop}
    {f : Unit → Handler β}
    (next : ∀ created, Alone start req post stop (f ())
      { s with history := s.history.insert (historyRow issueID userID event data created) }) :
    Alone start req post stop ((liftM (recordHistory issueID userID event data) : Handler Unit) >>= f) s := by
  refine Ensures.bind (Ensures.lift (Prog.Ensures.mono (fun _ s' holds => ?_) recordHistory_alone))
  obtain ⟨created, rfl⟩ := holds
  exact next created

/-- An entry after a write of the issue. -/
theorem Rewrites.recorded {status : IssueStatus} (rewrites : Rewrites before s id status)
    {entry : HistoryRow} (sender : req.changesStatus = some caller) (issue : entry.issueID = id)
    (user : entry.userID = actor caller.userID)
    (shows_ : ∀ row, before.issues.get? id = some row → entry.Shows row.status status) :
    Recorded before req { s with history := s.history.insert entry } := by
  intro key row row' here there differ
  rcases rewrites.issues key row' there row here with same | ⟨rfl, same⟩
  · exact absurd (congrArg IssueStatus.text same) differ
  · refine ⟨caller, sender, s.history.seq + 1, entry, ?_, Table.get?_insert_self _ _, issue, user, ?_⟩
    · rw [← rewrites.history]
      exact Table.get?_eq_none_of_lt (Int.lt_succ _)
    · exact same ▸ shows_ row here

/-- **Archive and unarchive.** -/
theorem handleIssueArchiveToggle_recorded {projectID : Int} {opts : ArchiveToggleOpts}
    (sender : req.changesStatus = some caller)
    (shows_ : ∀ old created, opts.valid old = true →
      (historyRow id caller.userID opts.event {} created).Shows old opts.newStatus) :
    Alone s req (fun _ => Recorded s req) (fun _ => Recorded s req)
      (handleIssueArchiveToggle caller projectID id opts) s := by
  have tame := tame_recording s req
  have unchanged : Recorded s req s := (KeepsStatus.of_issues rfl).recorded
  refine Ensured.loadIssue tame (fun _ _ => unchanged) fun row tasks known _ => ?_
  refine Ensured.ensure unchanged fun valid => Ensured.orFail ?_
  refine updateIssue_alone (fun _ => unchanged) fun written s' rewrites => Alone.record fun created => ?_
  have recorded : Recorded s req
      { s' with history := s'.history.insert (historyRow id caller.userID opts.event {} created) } :=
    Rewrites.recorded rewrites sender rfl rfl fun old here => by
      cases known.symm.trans here
      exact shows_ row.status created valid
  exact Ensured.reading tame (respondWithUpdatedIssue_asks reading_read id) (fun _ => recorded)
    fun _ => recorded

/-- **Move.** -/
theorem handleMoveIssue_recorded {host : Host} {projectID : Int} {body : Body MoveIssueRequest}
    (sender : req.changesStatus = some caller) :
    Alone s req (fun _ => Recorded s req) (fun _ => Recorded s req)
      (handleMoveIssue host caller body projectID id) s := by
  have tame := tame_recording s req
  have unchanged : Recorded s req s := (KeepsStatus.of_issues rfl).recorded
  refine Ensured.loadIssue tame (fun _ _ => unchanged) fun row tasks _ _ => ?_
  refine Ensured.ensure unchanged fun _ => Ensured.decode (fun _ => unchanged) fun move _ => ?_
  refine Ensured.after tame (verifyAdminPasswordOrRespond_asks (fun _ => reading_read _) _ _ _)
    (fun _ => unchanged) fun _ => ?_
  refine Ensured.after tame (orInternal_asks (select_asks (reading_read _))) (fun _ => unchanged) fun found => ?_
  refine Ensured.orRespond unchanged fun newProject _ => Ensured.orFail ?_
  refine updateIssue_alone (fun _ => unchanged) fun written s' rewrites => Alone.record fun created => ?_
  exact Rewrites.recorded rewrites sender rfl rfl fun _ _ => rfl

/-! ### PUT -/

/-- The history has got an entry for each change, and nothing else has changed. -/
structure Appends (s s' : Store) (issueID userID : Int) (changes : List ChangeData) : Prop where
  issues : s'.issues = s.issues
  kept : ∀ key row, s.history.get? key = some row → s'.history.get? key = some row
  entries : ∀ change ∈ changes, ∃ key created, s.history.seq < key ∧
    s'.history.get? key = some (historyRow issueID userID .updated change created)

theorem recordChanges_alone (changes : List ChangeData) :
    (recordChanges issueID userID changes).Ensures (Query.recording start req)
      (fun _ s' => Appends s s' issueID userID changes) s := by
  induction changes generalizing s with
  | nil => exact ⟨rfl, fun _ _ found => found, fun _ member => absurd member List.not_mem_nil⟩
  | cons change changes ih =>
      refine Prog.Ensures.bind (Prog.Ensures.mono (fun _ s' holds => ?_) recordHistory_alone)
      obtain ⟨created, rfl⟩ := holds
      refine Prog.Ensures.mono (fun _ s'' appends => ?_) ih
      refine ⟨appends.issues, fun key row found => ?_, fun other member => ?_⟩
      · refine appends.kept key row ?_
        exact (Table.get?_insert_of_le _ _ (Table.get?_le_seq found).2).trans found
      · rcases List.mem_cons.mp member with rfl | member
        · exact ⟨s.history.seq + 1, created, Int.lt_succ _, appends.kept _ _ (Table.get?_insert_self _ _)⟩
        · obtain ⟨key, created', later, found⟩ := appends.entries other member
          exact ⟨key, created', lt_trans (Int.lt_succ _) later, found⟩

/-- The issue is read as it is, if it can be read. -/
theorem getIssueByID_alone (reads : ∀ q s', ¬ Query.recording start req (.read q) s (.error .fault) s') :
    Alone start req
      (fun found s' => s' = s ∧ ((s.issues.get? id = none ∧ found = none) ∨
        ∃ row tasks, s.issues.get? id = some row ∧ found = some { s.scanIssueRow id row with tasks }))
      (fun (_ : Err) _ => False) (getIssueByID id) s := by
  have tame := tame_recording start req
  refine Ensured.select tame (fun _ here => reads _ _ here) ?_
  show Alone start req _ _ (attachTasks ((s.issues.get? id).map (s.scanIssueRow id))) s
  cases s.issues.get? id with
  | none => exact ⟨rfl, .inl ⟨rfl, rfl⟩⟩
  | some row =>
      exact Ensured.select tame (fun _ here => reads _ _ here) ⟨rfl, .inr ⟨row, _, rfl, rfl⟩⟩

/-- **What an edit records**: the differences to the issue as it is now. -/
theorem recordIssueEditHistory_alone (old : Issue)
    (reads : ∀ q s', ¬ Query.recording start req (.read q) s (.error .fault) s') :
    (recordIssueEditHistory old id userID).Ensures (Query.recording start req)
      (fun _ s' => (s.issues.get? id = none ∧ s' = s) ∨ ∃ row tasks, s.issues.get? id = some row ∧
        Appends s s' id userID (diffIssueFields old { s.scanIssueRow id row with tasks })) s := by
  refine Prog.Ensures.bind (Prog.Ensures.mono (fun result s' holds => ?_) (getIssueByID_alone reads))
  cases result with
  | error err => exact holds.elim
  | ok found =>
      obtain ⟨rfl, ⟨none, rfl⟩ | ⟨row, tasks, known, rfl⟩⟩ := holds
      · exact .inl ⟨none, rfl⟩
      · refine Prog.Ensures.bind (Prog.Ensures.mono (fun _ s'' appends => ?_) (recordChanges_alone _))
        exact .inr ⟨row, tasks, known, appends⟩

/-- Recording an edit changes no issue. -/
theorem recordIssueEditHistory_issues (old : Issue) :
    (recordIssueEditHistory old id userID).Ensures (Query.recording start req)
      (fun _ s' => s'.issues = s.issues) s := by
  refine Prog.Ensures.bind (Prog.Ensures.mono (fun result s' same => ?_)
    (reads_same (tame_recording start req) (getIssueByID_asks reading_read id)))
  subst same
  cases result with
  | error err => exact rfl
  | ok found =>
      cases found with
      | none => exact rfl
      | some updated =>
          exact Prog.Ensures.bind (Prog.Ensures.mono (fun _ s'' appends => appends.issues) (recordChanges_alone _))

/-- A changed status is one of the recorded differences. -/
theorem status_mem_diff {old updated : Issue} (differ : updated.status.text ≠ old.status.text) :
    { field := "status", from_ := old.status.text, to_ := updated.status.text } ∈
      diffIssueFields old updated := by
  unfold diffIssueFields changeOf
  simp [Ne.symm differ]

theorem persistIssueUpdate_alone (i current : Issue) :
    Alone start req (fun _ s' => ∃ status, Rewrites s s' i.id status)
      (fun (_ : Response) s' => KeepsStatus s s') (persistIssueUpdate i current) s := by
  have tame := tame_recording start req
  have same : KeepsStatus s s := KeepsStatus.of_issues rfl
  unfold persistIssueUpdate
  split
  · split
    · refine Ensured.orFail_end (Ensured.exec tame (fun _ => same) fun rows s' applied => ?_)
      have kept := Write.status_kept applied (fun _ _ => nofun) fun _ _ => nofun
      have history : s'.history = s.history := by cases applied; rfl
      refine Ensured.reading tame (checkRowsAffected_asks _ _) (fun _ => ?_) fun _ => kept
      exact ⟨i.status, .of_same history kept _⟩
    · exact ⟨i.status, .of_same rfl same _⟩
  · exact Ensured.orFail (updateIssue_alone (fun _ => same) fun _ _ rewrites => ⟨i.status, rewrites⟩)

/-- The differences that a PUT records contain the change of the status. -/
theorem Rewrites.recorded_edit {status : IssueStatus} (rewrites : Rewrites before s id status)
    (sender : req.changesStatus = some caller) {row : IssueRow} {tasks : List Task}
    (known : before.issues.get? id = some row)
    (edited : (s.issues.get? id = none ∧ s' = s) ∨ ∃ row' tasks', s.issues.get? id = some row' ∧
      Appends s s' id caller.userID (diffIssueFields { before.scanIssueRow id row with tasks }
        { s.scanIssueRow id row' with tasks := tasks' })) : Recorded before req s' := by
  have issues : s'.issues = s.issues := by
    rcases edited with ⟨_, rfl⟩ | ⟨_, _, _, appends⟩
    · rfl
    · exact appends.issues
  intro key old new here there differ
  rw [issues] at there
  rcases rewrites.issues key new there old here with same | ⟨rfl, _⟩
  · exact absurd (congrArg IssueStatus.text same) differ
  · obtain rfl := Option.some.inj (here.symm.trans known)
    rcases edited with ⟨none, _⟩ | ⟨_, tasks', found, appends⟩
    · exact nomatch none.symm.trans there
    · obtain rfl := Option.some.inj (found.symm.trans there)
      obtain ⟨place, created, later, entry⟩ := appends.entries _ (status_mem_diff differ)
      refine ⟨caller, sender, place, _, ?_, entry, rfl, rfl, rfl⟩
      rw [← rewrites.history]
      exact Table.get?_eq_none_of_lt later

/-- Where the status is the same as before, there is nothing to record. -/
theorem Rewrites.recorded_same {status : IssueStatus} (rewrites : Rewrites before s id status)
    (same : ∀ row row', before.issues.get? id = some row → s.issues.get? id = some row' →
      row'.status.text = row.status.text) (issues : s'.issues = s.issues) : Recorded before req s' := by
  intro key row row' here there differ
  rw [issues] at there
  rcases rewrites.issues key row' there row here with kept | ⟨rfl, _⟩
  · exact absurd (congrArg IssueStatus.text kept) differ
  · exact absurd (same row row' here there) differ

/-- **PUT.** -/
theorem handlePutIssue_recorded {pId : Option Int} {projectID : Int} {ifMatch : String} {body : Body Issue}
    (put : req = .putIssue caller pId (some id) ifMatch body) :
    Alone s req (fun _ => Recorded s req) (fun _ => Recorded s req)
      (handlePutIssue caller ifMatch body projectID id) s := by
  have tame := tame_recording s req
  have sender : req.changesStatus = some caller := by rw [put]; rfl
  have unchanged : Recorded s req s := (KeepsStatus.of_issues rfl).recorded
  refine Ensured.loadIssue tame (fun _ _ => unchanged) fun row tasks known _ => ?_
  refine Ensured.ensure unchanged fun _ => Ensured.decode (fun _ => unchanged) fun sent _ => ?_
  refine Ensured.after tame (checkAssignee_asks reading_read _ _) (fun _ => unchanged) fun _ => ?_
  refine Ensured.after tame (checkLabel_asks reading_read _) (fun _ => unchanged) fun _ => ?_
  refine Ensured.after tame (checkRelease_asks reading_read _) (fun _ => unchanged) fun _ => ?_
  refine Ensured.ensure unchanged fun _ => Ensured.ensure unchanged fun _ => ?_
  refine Ensures.bind (Ensures.mono (fun _ s' rewritten => ?_) (fun _ s' kept => kept.recorded)
    (persistIssueUpdate_alone _ _))
  obtain ⟨status, rewrites⟩ := rewritten
  have edited : (recordIssueEditHistory { s.scanIssueRow id row with tasks } id caller.userID).Ensures
      (Query.recording s req) (fun _ s'' => Recorded s req s'') s' := by
    by_cases same : ∀ old updated, s.issues.get? id = some old → s'.issues.get? id = some updated →
        updated.status.text = old.status.text
    · exact Prog.Ensures.mono (fun _ s'' issues => Rewrites.recorded_same rewrites same issues)
        (recordIssueEditHistory_issues _)
    · -- the status has changed, so the issue is read again
      push Not at same
      obtain ⟨old, updated, here, there, differ⟩ := same
      exact Prog.Ensures.mono (fun _ s'' edited => Rewrites.recorded_edit rewrites sender known edited)
        (recordIssueEditHistory_alone _ fun q t fails => fails.2.2 (.reread put here there differ))
  refine Ensures.bind (Ensures.lift (Prog.Ensures.mono (fun updated s'' recorded => ?_) edited))
  cases updated with
  | some updated => exact recorded
  | none =>
      exact Ensured.reading tame (respondWithUpdatedIssue_asks reading_read id) (fun _ => recorded)
        fun _ => recorded

/-! ### Triggers -/

/-- Without a Done issue of the release there is nothing to archive. -/
theorem archiveDone_none {now : Instant} (applied : (Write.archiveDone id now).apply s = .ok (rows, s'))
    (none : ∀ key issue, s.issues.get? key = some issue → issue.releaseID = some id → issue.status ≠ .done) :
    s'.issues = s.issues := by
  have untouched : s.issues.update (fun _ row => row.releaseID == some id && row.status == .done)
      (IssueRow.archive now) = s.issues := by
    refine Table.update_of_none fun key row here => ?_
    rw [Bool.and_eq_false_iff, beq_eq_false_iff_ne, beq_eq_false_iff_ne]
    by_contra both
    rw [not_or, not_not, not_not] at both
    exact none key row here both.1 both.2
  cases applied
  exact untouched

/-- A release with Done issues is closed only. -/
theorem triggerRelease_alone {archiveDone : Bool}
    (spared : archiveDone = true → (∃ release, s.releases.get? id = some release ∧ release.status = .open) →
      ArchivesDone start req ∨ ∀ key issue, s.issues.get? key = some issue →
        issue.releaseID = some id → issue.status ≠ .done) :
    Alone start req (fun _ s' => KeepsStatus s s') (fun (_ : Err) s' => KeepsStatus s s')
      (triggerRelease id archiveDone) s := by
  have tame := tame_recording start req
  have same : KeepsStatus s s := KeepsStatus.of_issues rfl
  refine Ensured.ask tame now_reading fun now => Ensured.exec tame (fun _ => same) fun rows s' applied => ?_
  have kept : KeepsStatus s s' := Write.status_kept applied (fun _ _ => nofun) fun _ _ => nofun
  refine Ensured.checkRowsAffected (fun _ => kept) fun changed => ?_
  cases archives : archiveDone with
  | false => exact kept
  | true =>
      -- the release was open
      obtain ⟨release, _, found, isOpen, _⟩ := (closeRelease_changes changed applied).closed
      have issues : s'.issues = s.issues := by cases applied; rfl
      refine Ensures.bind fun answer s'' here => ?_
      cases answer with
      | error err =>
          obtain rfl := tried_error here.1
          exact kept
      | ok archived =>
          rcases spared archives ⟨release, found, isOpen⟩ with missed | none
          · exact absurd (.archives missed) here.2.2
          · have untouched := archiveDone_none (tried_ok here.1) (issues ▸ none)
            exact KeepsStatus.of_issues (untouched.trans issues)

/-- **Trigger.** -/
theorem handleTriggerRelease_recorded {pId : Option Int} {projectID : Int} {body : Body TriggerRequest}
    (permitted : can caller.role .triggerRelease = true) (path : pId = some projectID)
    (trigger : req = .triggerRelease caller pId (some id) body) :
    Alone s req (fun _ => KeepsStatus s) (fun _ => KeepsStatus s) (handleTriggerRelease body projectID id) s := by
  have tame := tame_recording s req
  have same : KeepsStatus s s := KeepsStatus.of_issues rfl
  refine Ensured.decode (fun _ => same) fun sent decoded => ?_
  refine Ensured.loadRelease tame (fun _ _ => same) fun release found inside => Ensured.orFail ?_
  refine Ensures.mono (fun _ s' kept => ?_) (fun _ _ kept => kept) (triggerRelease_alone ?_)
  · exact Ensured.reading tame (respondWithUpdatedRelease_asks reading_read id) (fun _ => kept) fun _ => kept
  · rintro archives ⟨other, known, isOpen⟩
    rw [or_iff_not_imp_left]
    rintro spared key issue here refers done
    obtain ⟨sent, rfl, decoded⟩ := decoded
    obtain rfl := Except.ok.inj decoded
    obtain rfl := Option.some.inj (found.symm.trans known)
    obtain ⟨archiveDone⟩ := sent
    obtain rfl : archiveDone = true := archives
    subst path
    exact spared ⟨caller, projectID, id, trigger, permitted, ⟨release, found, inside, isOpen⟩, key, issue,
      here, refers, done⟩

end Handlers

/-! ### Requests -/

section Requests

variable {host : Host} {before after start s : Store} {req : Request}

/-- **The request is served** alone and to its end, and its history inserts succeed; any other statement may
fail. -/
def Served (host : Host) (before : Store) (req : Request) (trace : List (Step Unit)) (after : Store) : Prop :=
  ∃ current response,
    Run (Query.tried Query.faulty) before (fun _ : Unit => serve host req) trace after current ∧
      current () = .done response ∧ ∀ event ∈ trace, event.query.Logs event.answer = true

/-- A served request with its steps and the databases before and after it. -/
structure Turn where
  before : Store
  req : Request
  trace : List (Step Unit)
  after : Store

/-- **It takes a step that misses a change.** -/
def Turn.Missed (turn : Turn) : Prop :=
  ∃ later event earlier s, turn.trace = later ++ event :: earlier ∧
    Steps (Query.tried Query.faulty) turn.before earlier s ∧ Misses turn.before turn.req s event.entry

/-- The other requests change no status. -/
theorem status_untouched (other : req.changesStatus = none) {trace : List (Step Unit)}
    {current : Unit → Backend Response}
    (run : Run (Query.tried Query.faulty) before (fun _ : Unit => serve host req) trace after current) :
    KeepsStatus before after := by
  refine Run.invariant (fun _ s => KeepsStatus before s) (.of_issues rfl)
    (fun event past s pool s' earlier here asks kept => ?_) run
  obtain ⟨next, asks⟩ := asks
  have first : ((fun _ : Unit => serve host req) event.thread).Obeys (Query.Allowed host req)
      (fun _ _ => True) [] := serve_sanctioned host req
  have allowed : (pool event.thread).Obeys (Query.Allowed host req) (fun _ _ => True) (own event.thread past) :=
    earlier.obeys first
  rw [asks] at allowed
  obtain ⟨thread, query, answer⟩ := event
  rcases here with performed | ⟨_, _, rfl⟩
  · rcases perform_cases performed with ⟨w, rows, same, applied⟩ | ⟨rfl, _⟩
    · cases same
      have sanctioned : Sanctioned host req (own thread past) w := allowed.1
      refine kept.trans (Write.status_kept applied ?_ ?_)
      · rintro id cols rfl
        cases sanctioned with
        | session sessions => exact sessions
        | _ => exact nomatch other
      · rintro release now rfl
        cases sanctioned with
        | session sessions => exact sessions
        | _ => exact nomatch other
    · exact kept
  · exact kept

section Turns

variable {trace : List (Step Unit)}

/-- What the handler ensures where no step misses a change holds after such a request. -/
theorem Served.ends {holds : Store → Prop} (served : Served host before req trace after)
    (spared : ¬ Turn.Missed ⟨before, req, trace, after⟩)
    (ensures : Alone before req (fun _ => holds) (fun _ => holds) (handler host req) before) :
    holds after := by
  obtain ⟨current, response, run, ended, logs⟩ := served
  refine Interleave.Run.ensures (serve_ensures ensures) (run.guarded fun later event earlier s place steps => ?_)
    ended
  refine ⟨logs event (by rw [place]; simp), fun misses => ?_⟩
  exact spared ⟨later, event, earlier, s, place, steps, misses⟩

/-- **A request records its status changes**, unless it takes a step that misses one. -/
theorem Served.recorded (served : Served host before req trace after)
    (spared : ¬ Turn.Missed ⟨before, req, trace, after⟩) : Recorded before req after := by
  have tame := tame_recording before req
  have unchanged : Recorded before req before := (KeepsStatus.of_issues rfl).recorded
  cases sender : req.changesStatus with
  | none =>
      obtain ⟨current, response, run, _⟩ := served
      exact (status_untouched sender run).recorded
  | some caller =>
      refine served.ends spared ?_
      cases req with
      | putIssue sender pId id ifMatch body =>
          refine Ensured.withProjectResource tame (fun _ => unchanged) fun _ found _ _ same => ?_
          exact handlePutIssue_recorded (by rw [same])
      | archiveIssue sender pId id =>
          exact Ensured.withProjectResource tame (fun _ => unchanged)
            fun _ _ _ _ _ => handleIssueArchiveToggle_recorded rfl fun _ _ _ => rfl
      | unarchiveIssue sender pId id =>
          exact Ensured.withProjectResource tame (fun _ => unchanged)
            fun _ _ _ _ _ => handleIssueArchiveToggle_recorded rfl fun _ _ valid => beq_iff_eq.mp valid
      | moveIssue sender pId id body =>
          exact Ensured.withProjectResource tame (fun _ => unchanged)
            fun _ _ _ _ _ => handleMoveIssue_recorded rfl
      | triggerRelease sender pId id body =>
          refine Ensured.withProjectResource tame (fun _ => unchanged)
            fun projectID found permitted path same => ?_
          exact Ensures.mono (fun _ _ kept => kept.recorded) (fun _ _ kept => kept.recorded)
            (handleTriggerRelease_recorded permitted path (by rw [same]))
      | _ => exact nomatch sender

end Turns

/-- **Requests served one after the other**, each to its end, newest first. -/
inductive ServedInTurn (host : Host) (start : Store) : List Turn → Store → Prop
  | nil : ServedInTurn host start [] start
  | serve {turns : List Turn} {req : Request} {trace : List (Step Unit)} {s s' : Store}
      (earlier : ServedInTurn host start turns s) (served : Served host s req trace s') :
      ServedInTurn host start (⟨s, req, trace, s'⟩ :: turns) s'

/-- **Every status change is in the history**, in every run without a step that misses one. -/
theorem status_changes_recorded {turns : List Turn} (run : ServedInTurn host start turns s)
    (spared : ∀ turn ∈ turns, ¬ turn.Missed) :
    ∀ turn ∈ turns, Recorded turn.before turn.req turn.after := by
  induction run with
  | nil => exact fun _ member => absurd member List.not_mem_nil
  | serve earlier served ih =>
      intro turn member
      rcases List.mem_cons.mp member with rfl | member
      · exact served.recorded (spared _ List.mem_cons_self)
      · exact ih (fun turn member => spared turn (.tail _ member)) turn member

end Requests

/-! ### Scripts -/

section Scripts

variable (host : Host) (start : Store)

/-- Each request of a script comes to its end, and its history inserts succeed. -/
def scriptServed : List (Request × List (Unit × Input)) → Bool
  | [] => true
  | (req, moves) :: earlier =>
      let run := executeFrom host (executeAll host start earlier) (fun _ => req) moves
      scriptServed earlier && run.past.all (fun event => event.query.Logs event.answer) &&
        match run.current () with
        | .done _ => true
        | .ask _ _ => false

def scriptTurns : List (Request × List (Unit × Input)) → List Turn
  | [] => []
  | (req, moves) :: earlier =>
      ⟨executeAll host start earlier, req,
        (executeFrom host (executeAll host start earlier) (fun _ => req) moves).past,
        executeAll host start ((req, moves) :: earlier)⟩ :: scriptTurns earlier

theorem ServedInTurn.of_moves {script : List (Request × List (Unit × Input))}
    (served : scriptServed host start script = true) :
    ServedInTurn host start (scriptTurns host start script) (executeAll host start script) := by
  induction script with
  | nil => exact .nil
  | cons entry earlier ih =>
      obtain ⟨req, moves⟩ := entry
      obtain ⟨both, ends⟩ := Bool.and_eq_true_iff.mp served
      obtain ⟨before, logs⟩ := Bool.and_eq_true_iff.mp both
      refine .serve (ih before) ?_
      cases ended : (executeFrom host (executeAll host start earlier) (fun _ => req) moves).current () with
      | ask query next =>
          rw [ended] at ends
          exact nomatch ends
      | done response =>
          exact ⟨_, response, (ServesFrom.of_moves host _ (fun _ => req) moves).wilder fun _ _ _ _ => .inl, ended,
            List.all_eq_true.mp logs⟩

end Scripts

/-- A read has failed. -/
def failedRead : Entry Query.Answer → Bool
  | ⟨.read _, .error _⟩ => true
  | _ => false

theorem not_missed {turn : Turn} (reads : turn.trace.all (fun event => !failedRead event.entry) = true)
    (spared : ¬ ArchivesDone turn.before turn.req) : ¬ turn.Missed := by
  rintro ⟨later, event, earlier, s, place, _, misses⟩
  have read := List.all_eq_true.mp reads event (by rw [place]; simp)
  generalize event.entry = entry at read misses
  cases misses with
  | reread => exact nomatch read
  | archives archives => exact spared archives

/-- A release with an issue that is done. -/
def withDone : List (Request × List (Unit × Input)) :=
  [(.createIssue sampleAdmin (some 1)
      (.json { title := "Crash", status := .done, releaseID := some 1 }), stepsOf () 20 { instant := 3 }),
    (.createRelease sampleAdmin (some 1) (.json { name := "1.0" }), stepsOf () 9 { instant := 2 }),
    (bootstrap, stepsOf () 9 { instant := 1, text := some "bcrypt:correct horse 7!" })]

/-- The release is triggered. -/
def withTrigger (archiveDone : Bool) : List (Request × List (Unit × Input)) :=
  (.triggerRelease sampleAdmin (some 1) (some 1) (.json ⟨archiveDone⟩), stepsOf () 9 { instant := 4 }) ::
    withDone

/-- Without `archive_done`, followed by an archive request. -/
def archivedLater : List (Request × List (Unit × Input)) :=
  (.archiveIssue sampleAdmin (some 1) (some 1), stepsOf () 12 { instant := 5 }) :: withTrigger false

theorem status_changes_recorded_archived :
    ServedInTurn sampleHost createTables (scriptTurns sampleHost createTables archivedLater)
        (executeAll sampleHost createTables archivedLater) ∧
      ∀ turn ∈ scriptTurns sampleHost createTables archivedLater,
        Recorded turn.before turn.req turn.after := by
  have run := ServedInTurn.of_moves sampleHost createTables
    (show scriptServed sampleHost createTables archivedLater = true by decide +kernel)
  refine ⟨run, status_changes_recorded run fun turn member => not_missed ?_ ?_⟩
  · have reads : (scriptTurns sampleHost createTables archivedLater).all
        (fun turn => turn.trace.all fun event => !failedRead event.entry) = true := by
      decide +kernel
    exact List.all_eq_true.mp reads turn member
  · have other : ∀ turn ∈ scriptTurns sampleHost createTables archivedLater,
        match turn.req with
        | .triggerRelease _ _ _ body => body = .json ⟨false⟩
        | _ => True := by
      simp [scriptTurns, archivedLater, withTrigger, withDone, bootstrap]
    rintro ⟨_, _, _, trigger, _⟩
    have body := other turn member
    rw [trigger] at body
    exact nomatch body

/-- Without a new key there is no new entry. -/
theorem not_gains {before after : Store} {id : Int} {user : Option Int} {old new : IssueStatus}
    (keys : after.history.entries.map Prod.fst = before.history.entries.map Prod.fst) :
    ¬ Gains before after id user old new := by
  rintro ⟨key, entry, unknown, known, _⟩
  have member := List.mem_map_of_mem (f := Prod.fst) (Table.mem_entries_iff.mpr known)
  rw [keys] at member
  obtain ⟨⟨_, row⟩, inside, rfl⟩ := List.mem_map.mp member
  exact nomatch unknown.symm.trans (Table.mem_entries_iff.mp inside)

/-- **Issues are archived without a trace in the history.** -/
theorem archived_unrecorded :
    ¬ ∀ (host : Host) (turns : List Turn) (s : Store), ServedInTurn host createTables turns s →
      ∀ turn ∈ turns, Recorded turn.before turn.req turn.after := by
  intro claim
  have recorded := claim _ _ _ (ServedInTurn.of_moves sampleHost createTables
    (show scriptServed sampleHost createTables (withTrigger true) = true by decide +kernel)) _
    List.mem_cons_self
  have before : ((executeAll sampleHost createTables withDone).issues.get? 1).map
      (fun row => row.status) = some .done := by decide +kernel
  have after : ((executeAll sampleHost createTables (withTrigger true)).issues.get? 1).map
      (fun row => row.status) = some .archive := by decide +kernel
  obtain ⟨row, here, done⟩ := Option.map_eq_some_iff.mp before
  obtain ⟨row', there, archive⟩ := Option.map_eq_some_iff.mp after
  have differ : row'.status.text ≠ row.status.text := by
    rw [done, archive]
    decide
  obtain ⟨_, _, gains⟩ := recorded 1 row row' here there differ
  exact not_gains (by decide +kernel) gains

end Wuflow

/-
**A release trigger is atomic, unless its second statement fails.**

`TriggerRelease` closes the release in one statement and archives its issues in a second one, outside of a
transaction. Any statement may fail: it then reports an error and changes nothing.

* `triggerRelease_trace` — the ways a trigger can end, each with all that it has asked.
* `trigger_atomic_iff` — a trigger is atomic exactly if the second statement, where it gets there, does
  not fail.
* `trigger_half_done` — otherwise it reports an error with the release already closed, and a retry finds
  no open release.
-/

import Wuflow.Requests.Alone
import Wuflow.Store.ReleaseSteps

namespace Wuflow

open Calendar (Instant)
open Interleave (Prog Entry Event Run Steps Config own steps_nil_iff steps_cons_iff)
open Interleave.Stopping (Obeys)
open Relational (Table)

/-! ### The purpose of a trigger -/

/-- **The release `id` is closed**, and with `archiveDone` its issues that were done are archived; nothing
else changes. -/
structure Triggered (start : Store) (id : Int) (archiveDone : Bool) (s : Store) : Prop where
  closed : ∃ row now, start.releases.get? id = some row ∧ row.status = .open ∧
    s.releases.get? id = some { row with status := .closed, closedAt := some now, updatedAt := now }
  releases : ∀ other, other ≠ id → s.releases.get? other = start.releases.get? other
  archived : ∀ i row, start.issues.get? i = some row →
    archiveDone = true → row.releaseID = some id → row.status = .done →
      ∃ now, s.issues.get? i = some (row.archive now)
  kept : ∀ i row, start.issues.get? i = some row →
    ¬ (archiveDone = true ∧ row.releaseID = some id ∧ row.status = .done) →
      s.issues.get? i = some row
  noIssues : ∀ i, start.issues.get? i = none → s.issues.get? i = none
  others : s = { start with releases := s.releases, issues := s.issues }

/-- **All or nothing.** -/
def Atomic (start : Store) (id : Int) (archiveDone : Bool) (result : Except Err Unit) (s : Store) :
    Prop :=
  (result = .ok () ∧ Triggered start id archiveDone s) ∨ ∃ err, result = .error err ∧ s = start

/-! ### The ways a trigger can end -/

/-- What a trigger has asked when it ends with a result, newest first. -/
inductive TriggerTrace (id : Int) (archiveDone : Bool) : Past → Except Err Unit → Prop
  | notClosed {now : Instant} {err : Err} :
      TriggerTrace id archiveDone [⟨.write (.closeRelease id now), .error err⟩, ⟨.now, now⟩]
        (.error err)
  | notOpen {now : Instant} :
      TriggerTrace id archiveDone [⟨.write (.closeRelease id now), .ok 0⟩, ⟨.now, now⟩]
        (.error .releaseNotFound)
  | closed {now : Instant} {rows : Int} (changed : rows ≠ 0) (keeps : archiveDone = false) :
      TriggerTrace id archiveDone [⟨.write (.closeRelease id now), .ok rows⟩, ⟨.now, now⟩] (.ok ())
  | notArchived {now : Instant} {rows : Int} {err : Err} (changed : rows ≠ 0)
      (archives : archiveDone = true) :
      TriggerTrace id archiveDone [⟨.write (.archiveDone id now), .error err⟩,
        ⟨.write (.closeRelease id now), .ok rows⟩, ⟨.now, now⟩] (.error err)
  | archived {now : Instant} {rows issues : Int} (changed : rows ≠ 0) (archives : archiveDone = true) :
      TriggerTrace id archiveDone [⟨.write (.archiveDone id now), .ok issues⟩,
        ⟨.write (.closeRelease id now), .ok rows⟩, ⟨.now, now⟩] (.ok ())

theorem triggerRelease_trace (id : Int) (archiveDone : Bool) :
    Obeys (fun _ _ => True) (fun later value => TriggerTrace id archiveDone later (.ok value))
      (fun later err => TriggerTrace id archiveDone later (.error err)) []
      (triggerRelease id archiveDone) := by
  refine Obeys.bind (ask_obeys trivial) fun _ now here => ?_
  subst here
  refine Obeys.bind (exec_obeys trivial fun err => .notClosed) fun _ rows here => ?_
  subst here
  by_cases none : rows = 0
  · subst none
    exact Obeys.bind (Obeys.throw .notOpen) fun _ _ (never : False) => never.elim
  · have changed : checkRowsAffected rows .releaseNotFound = pure () := if_neg none
    rw [changed]
    cases archives : archiveDone with
    | false => exact Obeys.pure (.closed none rfl)
    | true =>
        refine Obeys.bind (exec_obeys trivial fun err => .notArchived none rfl) fun _ issues here => ?_
        subst here
        exact Obeys.pure (.archived none rfl)

/-! ### Both statements -/

section Statements

variable {start s : Store} {id : Int} {now : Instant} {rows : Int}

/-- The first statement, with at least one row. -/
theorem closeRelease_changes (changed : rows ≠ 0)
    (applied : (Write.closeRelease id now).apply start = .ok (rows, s)) :
    Triggered start id false s := by
  cases applied
  have open_ : ∃ row, start.releases.get? id = some row ∧ row.status = .open := by
    by_contra none
    refine changed (Table.count_eq_zero_iff.mpr fun key row found => ?_)
    rw [Bool.and_eq_false_iff, beq_eq_false_iff_ne, beq_eq_false_iff_ne]
    by_contra both
    rw [not_or, not_not, not_not] at both
    exact none ⟨row, both.1 ▸ found, both.2⟩
  obtain ⟨row, found, status⟩ := open_
  refine
    { closed := ⟨row, now, found, status, ?_⟩
      releases := fun other differs => ?_
      archived := fun _ _ _ wrong => nomatch wrong
      kept := fun _ _ here _ => here
      noIssues := fun _ none => none
      others := rfl }
  · rw [Table.get?_update, found]
    simp [status]
  · rw [Table.get?_update, beq_false_of_ne differs]
    cases start.releases.get? other <;> simp

/-- Without a row it changes nothing. -/
theorem closeRelease_none (applied : (Write.closeRelease id now).apply start = .ok (0, s)) :
    s = start := by
  obtain ⟨none, rfl⟩ := Prod.mk.inj (Except.ok.inj applied)
  rw [Table.update_of_none (Table.count_eq_zero_iff.mp none)]

/-- The second statement. -/
theorem archiveDone_changes {middle : Store} {issues : Int} (closed : Triggered start id false middle)
    (applied : (Write.archiveDone id now).apply middle = .ok (issues, s)) :
    Triggered start id true s := by
  cases applied
  have same : ∀ i row, start.issues.get? i = some row → middle.issues.get? i = some row :=
    fun i row found => closed.kept i row found fun wrong => nomatch wrong.1
  refine
    { closed := closed.closed
      releases := closed.releases
      archived := fun i row found _ release done => ⟨now, ?_⟩
      kept := fun i row found other => ?_
      noIssues := fun i none => ?_
      others := by rw [closed.others] }
  · rw [Table.get?_update, same i row found]
    simp [release, done]
  · rw [Table.get?_update, same i row found]
    have spared : (row.releaseID == some id && row.status == .done) = false := by
      rw [Bool.and_eq_false_iff, beq_eq_false_iff_ne, beq_eq_false_iff_ne]
      by_contra both
      rw [not_or, not_not, not_not] at both
      exact other ⟨rfl, both⟩
    exact congrArg some (if_neg (ne_true_of_eq_false spared))
  · rw [Table.get?_update, closed.noIssues i none]
    rfl

end Statements

/-! ### Runs of a trigger -/

/-- A trigger alone, to its end, in a database whose statements may fail. -/
def Triggers (start : Store) (id : Int) (archiveDone : Bool) (trace : List (Step Unit))
    (result : Except Err Unit) (s : Store) : Prop :=
  ∃ current, Run (Query.tried Query.faulty) start (fun _ : Unit => (triggerRelease id archiveDone).run) trace s
    current ∧ current () = .done result

/-- The second statement fails. -/
def ArchivingFails (trace : List (Step Unit)) : Prop :=
  ∃ event ∈ trace, ∃ id now err, event.entry = ⟨.write (.archiveDone id now), .error err⟩

/-- Alone, the trace is made of the local history. -/
theorem alone_eq_map (trace : List (Step Unit)) :
    trace = (own () trace).map fun entry => ⟨(), entry.1, entry.2⟩ := by
  rw [own_alone, List.map_map]
  exact (List.map_id trace).symm

theorem archivingFails_map {past : Past} :
    ArchivingFails (past.map fun entry => ⟨(), entry.1, entry.2⟩) ↔
      ∃ id now err, (⟨.write (.archiveDone id now), .error err⟩ : Entry Query.Answer) ∈ past := by
  constructor
  · rintro ⟨event, member, id, now, err, entry⟩
    obtain ⟨listed, inside, rfl⟩ := List.mem_map.mp member
    exact ⟨id, now, err, entry ▸ inside⟩
  · rintro ⟨id, now, err, inside⟩
    exact ⟨_, List.mem_map.mpr ⟨_, inside, rfl⟩, id, now, err, rfl⟩

section Runs

variable {start s : Store} {id : Int} {archiveDone : Bool} {trace : List (Step Unit)}
  {result : Except Err Unit}

/-- **A trigger is atomic exactly if its second statement does not fail.** -/
theorem trigger_atomic_iff (triggers : Triggers start id archiveDone trace result s) :
    Atomic start id archiveDone result s ↔ ¬ ArchivingFails trace := by
  obtain ⟨current, run, done⟩ := triggers
  have obeys : ((fun _ : Unit => (triggerRelease id archiveDone).run) ()).Obeys (fun _ _ => True)
      (TriggerTrace id archiveDone) [] := by
    refine Prog.Obeys.mono (fun _ _ here => here) (fun later result holds => ?_)
      (triggerRelease_trace id archiveDone)
    cases result with
    | ok value => exact holds
    | error err => exact holds
  have ended : TriggerTrace id archiveDone (own () trace) result := run.post_of_done obeys done
  have steps := run.steps
  have same := alone_eq_map trace
  generalize own () trace = past at ended same
  subst same
  -- the clock is read first, and changes nothing
  have clock : ∀ {now : Instant} {middle : Store}, Query.tried Query.faulty .now start now middle →
      middle = start := reading_same (tame_tried Query.faulty) now_reading
  rw [archivingFails_map]
  cases ended with
  | notClosed =>
      obtain ⟨middle, steps, closes⟩ := steps_cons_iff.mp steps
      obtain ⟨first, steps, here⟩ := steps_cons_iff.mp steps
      obtain rfl := steps_nil_iff.mp steps
      obtain rfl := clock here
      exact iff_of_true (.inr ⟨_, rfl, tried_error closes⟩) (by simp)
  | notOpen =>
      obtain ⟨middle, steps, closes⟩ := steps_cons_iff.mp steps
      obtain ⟨first, steps, here⟩ := steps_cons_iff.mp steps
      obtain rfl := steps_nil_iff.mp steps
      obtain rfl := clock here
      exact iff_of_true (.inr ⟨_, rfl, closeRelease_none (tried_ok closes)⟩) (by simp)
  | closed changed keeps =>
      obtain ⟨middle, steps, closes⟩ := steps_cons_iff.mp steps
      obtain ⟨first, steps, here⟩ := steps_cons_iff.mp steps
      obtain rfl := steps_nil_iff.mp steps
      obtain rfl := clock here
      subst keeps
      exact iff_of_true (.inl ⟨rfl, closeRelease_changes changed (tried_ok closes)⟩) (by simp)
  | notArchived changed archives =>
      obtain ⟨last, steps, archive⟩ := steps_cons_iff.mp steps
      obtain ⟨middle, steps, closes⟩ := steps_cons_iff.mp steps
      obtain ⟨first, steps, here⟩ := steps_cons_iff.mp steps
      obtain rfl := steps_nil_iff.mp steps
      obtain rfl := clock here
      refine iff_of_false ?_ (by simp)
      rintro (⟨wrong, _⟩ | ⟨_, _, same⟩)
      · exact nomatch wrong
      · -- the release is closed already
        obtain ⟨row, now, found, open_, closed⟩ :=
          (closeRelease_changes changed (tried_ok closes)).closed
        rw [← tried_error archive, same, found] at closed
        exact absurd (open_.symm.trans (congrArg ReleaseRow.status (Option.some.inj closed))) nofun
  | archived changed archives =>
      obtain ⟨last, steps, archive⟩ := steps_cons_iff.mp steps
      obtain ⟨middle, steps, closes⟩ := steps_cons_iff.mp steps
      obtain ⟨first, steps, here⟩ := steps_cons_iff.mp steps
      obtain rfl := steps_nil_iff.mp steps
      obtain rfl := clock here
      subst archives
      have closed := closeRelease_changes changed (tried_ok closes)
      exact iff_of_true (.inl ⟨rfl, archiveDone_changes closed (tried_ok archive)⟩) (by simp)

end Runs

/-! ### Scheduled failures -/

/-- The answer to a query in a schedule that says which statements fail. -/
def Query.respondFailing (query : Query) (input : Input × Bool) (s : Store) : query.Answer × Store :=
  match query, input with
  | .read _, (_, true) => (.error .fault, s)
  | .write _, (_, true) => (.error .fault, s)
  | query, (input, _) => query.respond input s

theorem Query.tried_respondFailing (query : Query) (input : Input × Bool) (s : Store) :
    query.tried Query.faulty s (query.respondFailing input s).1 (query.respondFailing input s).2 := by
  obtain ⟨input, fails⟩ := input
  cases fails with
  | false => cases query <;> exact .inl (Query.perform_respond _ input s)
  | true =>
      cases query with
      | read q => exact .inr ⟨trivial, rfl, rfl⟩
      | write w => exact .inr ⟨trivial, rfl, rfl⟩
      | _ => exact .inl (Query.perform_respond _ input s)

/-- A database with an open release. -/
def openRelease : Store :=
  { createTables with
    releases := Table.empty.insert
      { projectID := 1, name := "1.0", description := "", startDate := none, releaseDate := none,
        closedAt := none, status := .open, ownerID := none, createdAt := 1, updatedAt := 1 } }

/-- The release is triggered, and the archiving fails or not. -/
def triggered (fails : Bool) : Config Unit Query.Answer Store (Except Err Unit) :=
  Config.play Query.respondFailing ⟨[], openRelease, fun _ => (triggerRelease 1 true).run⟩
    [((), ({ instant := 2 }, false)), ((), ({}, false)), ((), ({}, fails))]

theorem triggered_triggers {fails : Bool} {result : Except Err Unit}
    (done : (triggered fails).current () = .done result) :
    Triggers openRelease 1 true (triggered fails).past result (triggered fails).store :=
  ⟨_, Run.of_schedule Query.tried_respondFailing _ Run.nil, done⟩

theorem trigger_atomic_iff_archived :
    Atomic openRelease 1 true (.ok ()) (triggered false).store ↔
      ¬ ArchivingFails (triggered false).past :=
  trigger_atomic_iff (triggered_triggers rfl)

/-- **A release is left half triggered.** -/
theorem trigger_half_done :
    ¬ ∀ (start s : Store) (id : Int) (archiveDone : Bool) (trace : List (Step Unit))
      (result : Except Err Unit), Triggers start id archiveDone trace result s →
      Atomic start id archiveDone result s := by
  intro claim
  have ended : (triggered true).current () = .done (.error .fault) := rfl
  rcases claim _ _ _ _ _ _ (triggered_triggers ended) with ⟨wrong, _⟩ | ⟨_, _, same⟩
  · exact nomatch wrong
  · have closed : ((triggered true).store.releases.get? 1).map ReleaseRow.status = some .closed := by
      decide +kernel
    rw [same] at closed
    exact absurd closed (by decide)

end Wuflow

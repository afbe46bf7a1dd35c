/-
**Positions stay usable, as long as none is the largest integer.**

* `nextPosition_last` — the position after the maximum is not negative and above all others, if these are
  not negative and below `2 ^ 63 - 1`; at that bound the 64-bit sum wraps around (`nextPosition_le`).
* `Write.positions` — every write of a request keeps positions from being negative: those that clients
  send pass a check, those that handlers write back were read from the database.
* `positions_usable_iff` — in a run that serves its requests one after the other, every state has no
  negative position and every new issue and task gets the last position, exactly if no issue (no task)
  is created next to one at the largest position.
-/

import Wuflow.Model.Checks
import Wuflow.Requests.IssueContents

namespace Wuflow

open Calendar (Instant)
open Interleave (Entry Event Run Steps Config OneAtATime own mem_own oneAtATime_of_pairwise
  place_of_getElem?)
open Relational (Table)

/-! ### The position after the maximum -/

/-- The largest position, in Go's 64-bit integers. -/
def maxInt : Int := 2 ^ 63 - 1

theorem nextPosition_le (maxPos : Option Int) : nextPosition maxPos ≤ maxInt := by
  have below := Int.bmod_lt (x := maxPos.getD 0 + 1) (m := 2 ^ 64) (by decide)
  unfold nextPosition maxInt
  omega

/-- Below the bound the sum is exact. -/
theorem nextPosition_eq {m : Int} (nonneg : 0 ≤ m) (below : m < maxInt) :
    nextPosition (some m) = m + 1 := by
  unfold maxInt at below
  exact Int.bmod_eq_of_le (by simp only [Option.getD_some]; omega) (by simp only [Option.getD_some]; omega)

section Maximum

variable {ρ : Type} {t : Table ρ} {selects : ρ → Bool} {position : ρ → Int}

theorem maxPosition_none (none_ : maxPosition t selects position = none) {id : Int} {row : ρ}
    (found : t.get? id = some row) : selects row = false := by
  unfold maxPosition at none_
  rw [List.max?_eq_none_iff, List.map_eq_nil_iff, List.filter_eq_nil_iff] at none_
  exact Bool.eq_false_iff.mpr (none_ row (List.mem_map_of_mem (Table.mem_entries_iff.mpr found)))

theorem maxPosition_some {m : Int} (max : maxPosition t selects position = some m) :
    (∃ id row, t.get? id = some row ∧ selects row = true ∧ position row = m) ∧
      ∀ id row, t.get? id = some row → selects row = true → position row ≤ m := by
  unfold maxPosition at max
  obtain ⟨member, above⟩ := List.max?_eq_some_iff.mp max
  constructor
  · obtain ⟨row, inside, same⟩ := List.mem_map.mp member
    obtain ⟨inside, chosen⟩ := List.mem_filter.mp inside
    obtain ⟨⟨id, _⟩, entry, rfl⟩ := List.mem_map.mp inside
    exact ⟨id, _, Table.mem_entries_iff.mp entry, chosen, same⟩
  · intro id row found chosen
    have entry : row ∈ t.rows := List.mem_map_of_mem (Table.mem_entries_iff.mpr found)
    exact above _ (List.mem_map_of_mem (List.mem_filter.mpr ⟨entry, chosen⟩))

/-- **The position after the maximum is the last one.** -/
theorem nextPosition_last (nonneg : t.All fun row => 0 ≤ position row)
    (below : ∀ id row, t.get? id = some row → selects row = true → position row < maxInt) :
    0 ≤ nextPosition (maxPosition t selects position) ∧
      ∀ id row, t.get? id = some row → selects row = true →
        position row < nextPosition (maxPosition t selects position) := by
  cases max : maxPosition t selects position with
  | none =>
      refine ⟨by decide, fun id row found chosen => ?_⟩
      rw [maxPosition_none max found] at chosen
      exact nomatch chosen
  | some m =>
      obtain ⟨⟨id, row, found, chosen, rfl⟩, above⟩ := maxPosition_some max
      have low := nonneg id row found
      rw [nextPosition_eq low (below id row found chosen)]
      exact ⟨by omega, fun id' row' found' chosen' => by have := above id' row' found' chosen'; omega⟩

end Maximum

/-! ### One write -/

/-- No position is negative. -/
structure NonNegative (s : Store) : Prop where
  issues : s.IssuesAll fun content => 0 ≤ content.position
  tasks : s.TasksAll fun content => 0 ≤ content.position

theorem createTables_nonNegative : NonNegative createTables where
  issues := Table.All.empty
  tasks := Table.All.empty

section Writes

variable {host : Host} {req : Request} {past : Past} {s s' : Store} {rows : Int} {w : Write}

/-- **One write of a request**, given the positions of what it creates. -/
theorem NonNegative.write (sanctioned : Sanctioned host req past w)
    (witnessed : Witnessed NonNegative past s) (issue : ∀ row, w = .insertIssue row → 0 ≤ row.position)
    (task : ∀ row, w = .insertTask row → 0 ≤ row.position) (applied : w.apply s = .ok (rows, s'))
    (nonNegative : NonNegative s) : NonNegative s' := by
  suffices keeps : w.KeepsIssues (fun content => 0 ≤ content.position) ∧
      w.KeepsTasks (fun content => 0 ≤ content.position) from
    ⟨Write.issues_all keeps.1 applied nonNegative.issues,
      Write.tasks_all keeps.2 applied nonNegative.tasks⟩
  cases sanctioned with
  | createIssue => exact ⟨issue _ rfl, trivial⟩
  | putIssue unwritten entered accepted =>
      obtain ⟨_, ⟨raw, rfl, valid⟩, rfl⟩ := accepted.sent
      have checked := validateIssue_checked valid
      obtain rfl := checked.same
      exact ⟨checked.position, trivial⟩
  | putIssuePosition unwritten entered accepted =>
      obtain ⟨_, ⟨raw, rfl, valid⟩, rfl⟩ := accepted.sent
      have checked := validateIssue_checked valid
      obtain rfl := checked.same
      exact ⟨fun _ _ => checked.position, trivial⟩
  | putIssuePositions unwritten entered decoded =>
      obtain ⟨raw, rfl, valid⟩ := decoded
      exact ⟨fun u member _ _ => (validatePositionUpdates_checked valid).2.1 u member, trivial⟩
  | archiveIssue unwritten entered loaded | unarchiveIssue unwritten entered loaded
  | moveIssue unwritten entered loaded =>
      have position := witnessed.issue_content (fun t kept => kept.issues) loaded
      exact ⟨position, trivial⟩
  | archiveDone => exact ⟨fun _ here => here, trivial⟩
  | createTask => exact ⟨trivial, task _ rfl⟩
  | putTask unwritten entered loaded writable decoded =>
      obtain ⟨raw, rfl, valid⟩ := decoded
      have checked := validateTask_checked valid
      obtain rfl := checked.same
      exact ⟨trivial, checked.position⟩
  | putTaskPositions unwritten entered loaded writable decoded =>
      obtain ⟨raw, rfl, valid⟩ := decoded
      exact ⟨trivial, fun u member _ _ => (validatePositionUpdates_checked valid).2.1 u member⟩
  | session sessions => exact sessions.keeps _ _
  | _ => exact ⟨trivial, trivial⟩

end Writes

/-! ### Creations -/

/-- A creation gives the last position: of the issues with the same status, of the tasks of the same
issue. -/
structure CreatesLast (before : Store) (entry : Entry Query.Answer) : Prop where
  issue : ∀ row id, entry = ⟨.write (.insertIssue row), .ok id⟩ → ∀ other old,
    before.issues.get? other = some old → old.status = row.status → old.position < row.position
  task : ∀ row id, entry = ⟨.write (.insertTask row), .ok id⟩ → ∀ other old,
    before.tasks.get? other = some old → old.issueID = row.issueID → old.position < row.position

/-- An issue (a task) is created next to one at the largest position. -/
def CreatesAtLimit (before : Store) (entry : Entry Query.Answer) : Prop :=
  (∃ row id other old, entry = ⟨.write (.insertIssue row), .ok id⟩ ∧
    before.issues.get? other = some old ∧ old.status = row.status ∧ maxInt ≤ old.position) ∨
  ∃ row id other old, entry = ⟨.write (.insertTask row), .ok id⟩ ∧
    before.tasks.get? other = some old ∧ old.issueID = row.issueID ∧ maxInt ≤ old.position

section Runs

variable {ι : Type} [DecidableEq ι] {host : Host} {s : Store} {reqs : ι → Request}
  {trace later earlier : List (Step ι)} {event : Step ι} {current : ι → Backend Response}

/-- **The position of a new issue** is the one after the maximum of its status. -/
theorem insertIssue_position {start before : Store}
    (one : OneAtATime (event :: earlier)) (steps : Steps Query.perform start earlier before)
    {row : IssueRow}
    (sanctioned : Sanctioned host (reqs event.thread) (own event.thread earlier) (.insertIssue row)) :
    row.position =
      nextPosition (maxPosition before.issues (fun old => old.status == row.status) (·.position)) := by
  generalize reqs event.thread = req at sanctioned
  cases sanctioned with
  | createIssue unwritten entered decoded last =>
      exact congrArg nextPosition (unchanged_since one steps unwritten last)
  | session sessions => exact sessions.elim

/-- **The position of a new task** is the one after the maximum of its issue. -/
theorem insertTask_position {start before : Store}
    (one : OneAtATime (event :: earlier)) (steps : Steps Query.perform start earlier before)
    {row : TaskRow}
    (sanctioned : Sanctioned host (reqs event.thread) (own event.thread earlier) (.insertTask row)) :
    row.position =
      nextPosition (maxPosition before.tasks (fun old => old.issueID == row.issueID) (·.position)) := by
  generalize reqs event.thread = req at sanctioned
  cases sanctioned with
  | createTask unwritten entered loaded writable decoded last =>
      exact congrArg nextPosition (unchanged_since one steps unwritten last)
  | session sessions => exact sessions.elim

/-- A creation away from the limit gets the last position, and not a negative one. -/
theorem createsLast {start before : Store} (one : OneAtATime (event :: earlier))
    (steps : Steps Query.perform start earlier before)
    (allowed : event.query.Allowed host (reqs event.thread) (own event.thread earlier))
    (nonNegative : NonNegative before) (away : ¬ CreatesAtLimit before event.entry) :
    CreatesLast before event.entry ∧
      (∀ row id, event.entry = ⟨.write (.insertIssue row), .ok id⟩ → 0 ≤ row.position) ∧
      ∀ row id, event.entry = ⟨.write (.insertTask row), .ok id⟩ → 0 ≤ row.position := by
  have issue : ∀ row id, event.entry = ⟨.write (.insertIssue row), .ok id⟩ → 0 ≤ row.position ∧
      ∀ other old, before.issues.get? other = some old → old.status = row.status →
        old.position < row.position := by
    intro row id entry
    obtain ⟨thread, query, answer⟩ := event
    cases entry
    rw [insertIssue_position one steps allowed]
    obtain ⟨position, above⟩ := nextPosition_last nonNegative.issues fun other old found chosen => by
      by_contra high
      exact away (.inl ⟨row, id, other, old, rfl, found, beq_iff_eq.mp chosen, not_lt.mp high⟩)
    exact ⟨position, fun other old found same => above other old found (beq_iff_eq.mpr same)⟩
  have task : ∀ row id, event.entry = ⟨.write (.insertTask row), .ok id⟩ → 0 ≤ row.position ∧
      ∀ other old, before.tasks.get? other = some old → old.issueID = row.issueID →
        old.position < row.position := by
    intro row id entry
    obtain ⟨thread, query, answer⟩ := event
    cases entry
    rw [insertTask_position one steps allowed]
    obtain ⟨position, above⟩ := nextPosition_last nonNegative.tasks fun other old found chosen => by
      by_contra high
      exact away (.inr ⟨row, id, other, old, rfl, found, beq_iff_eq.mp chosen, not_lt.mp high⟩)
    exact ⟨position, fun other old found same => above other old found (beq_iff_eq.mpr same)⟩
  exact ⟨⟨fun row id entry => (issue row id entry).2, fun row id entry => (task row id entry).2⟩,
    fun row id entry => (issue row id entry).1, fun row id entry => (task row id entry).1⟩

/-- **A sequential run without creations at the limit.** -/
theorem nonNegative_of_run (run : Serves host reqs trace s current) (one : OneAtATime trace)
    (away : EveryStep createTables trace fun before event _ => ¬ CreatesAtLimit before event.entry) :
    NonNegative s := by
  suffices general : Steps Query.perform createTables trace s ∧ (OneAtATime trace →
      EveryStep createTables trace (fun before event _ => ¬ CreatesAtLimit before event.entry) →
      NonNegative s ∧ ∀ event ∈ trace, ∃ t t', NonNegative t ∧
        event.query.perform t event.answer t' ∧ t'.Evolves s) from (general.2 one away).1
  refine ServesFrom.invariant run (fun past s => Steps Query.perform createTables past s ∧
      (OneAtATime past →
      EveryStep createTables past (fun before event _ => ¬ CreatesAtLimit before event.entry) →
      NonNegative s ∧ ∀ event ∈ past, ∃ t t', NonNegative t ∧
        event.query.perform t event.answer t' ∧ t'.Evolves s))
    ⟨.refl, fun _ _ => ⟨createTables_nonNegative, fun _ member => absurd member List.not_mem_nil⟩⟩
    fun event past before after _ allowed here holds => ?_
  obtain ⟨steps, holds⟩ := holds
  refine ⟨.step event steps here, fun one away => ?_⟩
  obtain ⟨nonNegative, seen⟩ := holds (OneAtATime.earlier (show OneAtATime ([event] ++ past) from one))
    (EveryStep.earlier (show EveryStep createTables ([event] ++ past) _ from away))
  have witnessed : Witnessed NonNegative (own event.thread past) before := by
    intro entry member
    obtain ⟨event', inside, _, rfl⟩ := mem_own.mp member
    exact seen event' inside
  have positions := (createsLast one steps allowed nonNegative
    (away [] event past before after rfl steps here)).2
  have next : NonNegative after := by
    rcases perform_cases here with ⟨w, rows, same, applied⟩ | ⟨rfl, _⟩
    · obtain ⟨thread, query, answer⟩ := event
      cases same
      refine NonNegative.write allowed witnessed ?_ ?_ applied nonNegative
      · rintro row rfl
        exact positions.1 row rows rfl
      · rintro row rfl
        exact positions.2 row rows rfl
    · exact nonNegative
  refine ⟨next, fun event' member => ?_⟩
  rcases List.mem_cons.mp member with rfl | member
  · exact ⟨before, after, nonNegative, here, .refl after⟩
  · obtain ⟨t, t', holds, performed, evolves⟩ := seen event' member
    exact ⟨t, t', holds, performed, evolves.trans (perform_evolves here)⟩

/-- **Positions stay usable** in a run that serves its requests one after the other exactly if it creates
no issue and no task at the limit. -/
theorem positions_usable_iff (run : Serves host reqs trace s current) (one : OneAtATime trace) :
    (EveryStep createTables trace fun before event after =>
      NonNegative after ∧ CreatesLast before event.entry) ↔
      EveryStep createTables trace fun before event _ => ¬ CreatesAtLimit before event.entry := by
  constructor
  · rintro usable later event earlier before after rfl steps here atLimit
    obtain ⟨_, last⟩ := usable later event earlier before after rfl steps here
    have allowed := ServesFrom.allowed run
    have one' : OneAtATime (event :: earlier) := OneAtATime.earlier one
    obtain ⟨thread, query, answer⟩ := event
    rcases atLimit with ⟨row, id, other, old, entry, found, same, high⟩ |
      ⟨row, id, other, old, entry, found, same, high⟩
    · have below := last.issue row id entry other old found same
      cases entry
      rw [insertIssue_position one' steps allowed] at below
      exact absurd (below.trans_le (nextPosition_le _)) (not_lt.mpr high)
    · have below := last.task row id entry other old found same
      cases entry
      rw [insertTask_position one' steps allowed] at below
      exact absurd (below.trans_le (nextPosition_le _)) (not_lt.mpr high)
  · rintro away later event earlier before after rfl steps here
    have atEvent : ¬ CreatesAtLimit before event.entry :=
      away later event earlier before after rfl steps here
    obtain ⟨end_, pool, run', _⟩ := run.prefix_run
    obtain ⟨first, _, _, run'', _, _⟩ := (show Serves host reqs ([] ++ event :: earlier) _ _ from run').split
    have started : first = before := run''.steps.unique perform_unique steps
    have ended : end_ = after := run'.steps.unique perform_unique (.step event steps here)
    subst started ended
    have away' : EveryStep createTables (event :: earlier) fun before event _ =>
        ¬ CreatesAtLimit before event.entry := EveryStep.earlier away
    have next : NonNegative _ := nonNegative_of_run run' (OneAtATime.earlier one) away'
    have nonNegative : NonNegative _ := nonNegative_of_run run''
      (OneAtATime.earlier (show OneAtATime ([event] ++ earlier) from OneAtATime.earlier one))
      (EveryStep.earlier (show EveryStep createTables ([event] ++ earlier) _ from away'))
    exact ⟨next, (createsLast (OneAtATime.earlier one) steps (ServesFrom.allowed run) nonNegative atEvent).1⟩

end Runs

/-! ### A position at the limit -/

/-- An issue is created, moved to `position`, and a second one is created. -/
def createTwo (position : Int) : Fin 4 → Request
  | 0 => bootstrap
  | 1 => .createIssue sampleAdmin (some 1) (.json { title := "Crash", status := .todo })
  | 2 => .putIssuePositions sampleAdmin (some 1) (.json [⟨1, position⟩])
  | 3 => .createIssue sampleAdmin (some 1) (.json { title := "Slow start", status := .todo })

def createTwoMoves : List (Fin 4 × Input) :=
  stepsOf 0 9 { instant := 1, text := some "bcrypt:correct horse 7!" } ++
    stepsOf 1 9 { instant := 2 } ++ stepsOf 2 9 { instant := 3 } ++ stepsOf 3 9 { instant := 4 }

def createdTwo (position : Int) : Config (Fin 4) Query.Answer Store Response :=
  execute sampleHost (createTwo position) createTwoMoves

theorem positions_usable_iff_seven :
    (EveryStep createTables (createdTwo 7).past fun before event after =>
      NonNegative after ∧ CreatesLast before event.entry) ↔
      EveryStep createTables (createdTwo 7).past fun before event _ =>
        ¬ CreatesAtLimit before event.entry :=
  positions_usable_iff (Serves.of_moves sampleHost (createTwo 7) createTwoMoves)
    (oneAtATime_of_pairwise (show ((createdTwo 7).past.map Event.thread).Pairwise _ by decide +kernel))

/-- **A position wraps around.** The second issue gets the smallest integer. -/
theorem position_wraps :
    ¬ ∀ (host : Host) (reqs : Fin 4 → Request) (trace : List (Step (Fin 4))) (s : Store)
      (current : Fin 4 → Backend Response), Serves host reqs trace s current → OneAtATime trace →
      EveryStep createTables trace fun before event after =>
        NonNegative after ∧ CreatesLast before event.entry := by
  intro claim
  have run := Serves.of_moves sampleHost (createTwo maxInt) createTwoMoves
  have every := claim _ _ _ _ _ run (oneAtATime_of_pairwise
    (show ((createdTwo maxInt).past.map Event.thread).Pairwise _ by decide +kernel))
  obtain ⟨_, _, nonNegative, _⟩ := every.last run.steps
    (show (createdTwo maxInt).past ≠ [] by decide +kernel)
  have wrapped : ((createdTwo maxInt).store.issues.get? 2).map (·.position) = some (-2 ^ 63) := by
    decide +kernel
  obtain ⟨row, found, position⟩ := Option.map_eq_some_iff.mp wrapped
  have low : 0 ≤ row.position := nonNegative.issues 2 row found
  rw [position] at low
  exact absurd low (by decide)

end Wuflow

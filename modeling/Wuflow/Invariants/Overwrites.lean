/-
**Archive, unarchive, move and PUT write the whole row.**

Each of them reads the issue in one statement and later writes every column of its copy, under no
condition on the version of the row. What another request has committed in between is gone.

* `Spares` — what such a write is to leave alone: the edits (`Edits`) of clients for an archive, an
  unarchive or a move, the place (`Place`) of the issue for a PUT.
* `edits_kept_iff` — it leaves it alone exactly if it has not changed since the request has read the issue.
* `edits_kept_iff_renamed` — an archive that is overtaken by a PUT: the new title is gone.
-/

import Wuflow.Requests.Copies

namespace Wuflow

open Calendar (Instant)
open Interleave (Entry Event Run Steps own)

/-! ### The parts of an issue -/

/-- What clients edit: an archive, an unarchive and a move have no business with it. -/
structure Edits where
  title : String
  description : String
  priority : IssuePriority
  assigneeID : Option Int
  deadline : Option DateTime
  plannedDates : Option (List String)
  position : Int

def IssueColumns.edits (cols : IssueColumns) : Edits :=
  { title := cols.title, description := cols.description, priority := cols.priority
    assigneeID := cols.assigneeID, deadline := cols.deadline, plannedDates := cols.plannedDates
    position := cols.position }

/-- Whether the issue is archived, and its project: a PUT has no business with it. -/
structure Place where
  archived : Bool
  projectID : Int

def IssueColumns.place (cols : IssueColumns) : Place := ⟨cols.status == .archive, cols.projectID⟩

/-- From `t` to `s` the issue keeps what the request is to leave alone. -/
def Spares (req : Request) (id : Int) (t s : Store) : Prop :=
  match req with
  | .putIssue _ _ _ _ _ => Kept IssueColumns.place id t s
  | _ => Kept IssueColumns.edits id t s

/-! ### The write of a request -/

section Writes

variable {host : Host} {req : Request} {past : Past} {id : Int} {cols : IssueColumns}

/-- The columns are those of a copy, up to the ones that the request is there to change. -/
def Rewritten (req : Request) (P : Int) (copy : Issue) (cols : IssueColumns) : Prop :=
  match req with
  | .putIssue _ _ _ _ _ => copy.columns.status ≠ .archive ∧ cols.place = ⟨false, P⟩
  | _ => cols.edits = copy.columns.edits

/-- **The columns that a request writes** are those of the copy it has loaded, up to the ones it is there
to change. -/
theorem Sanctioned.rewrites (sanctioned : Sanctioned host req past (.updateIssue id cols)) :
    ∃ path P copy, LoadedIssue past path P copy ∧ (copy.id = path → id = path) ∧
      Rewritten req P copy cols := by
  cases sanctioned with
  | putIssue _ _ accepted _ =>
      obtain ⟨sent, _, rfl⟩ := accepted.sent
      refine ⟨_, _, _, accepted.loaded, fun _ => rfl, accepted.writable, ?_⟩
      have kept := beq_false_of_ne accepted.kept
      simp only [IssueColumns.place, Issue.columns, kept]
      rfl
  | archiveIssue _ _ loaded _ => exact ⟨_, _, _, loaded, fun same => same, rfl⟩
  | unarchiveIssue _ _ loaded _ => exact ⟨_, _, _, loaded, fun same => same, rfl⟩
  | moveIssue _ _ loaded _ _ => exact ⟨_, _, _, loaded, fun same => same, rfl⟩
  | session sessions => exact sessions.elim

end Writes

/-! ### Runs -/

section Runs

variable {ι : Type} [DecidableEq ι] {host : Host} {setup : List Request} {start s : Store}
  {reqs : ι → Request} {later earlier : List (Step ι)} {update : Step ι}
  {current : ι → Backend Response} {id : Int} {cols : IssueColumns} {rows : Int}

/-- **Nothing is undone exactly if nothing has changed since the read.** Whenever a request writes the
whole issue, in any run, it has read the issue before, and the write leaves alone what it is to leave alone
exactly if that has stayed as it was read. -/
theorem edits_kept_iff (reached : Sequential host createTables setup start)
    (run : ServesFrom host start reqs (later ++ update :: earlier) s current)
    (writes : update.entry = ⟨.write (.updateIssue id cols), .ok rows⟩) :
    ∃ between read earlier' loaded, earlier = between ++ read :: earlier' ∧
      read.thread = update.thread ∧ Loads start read earlier' loaded id ∧
      Around host start reqs later update earlier s fun before after =>
        (Spares (reqs update.thread) id before after ↔
          Spares (reqs update.thread) id loaded before) := by
  have consistent : Consistent start := reached.consistent createTables_consistent
  obtain ⟨before, pool, after, run', here, rest⟩ := run.split
  have sanctioned := run.allowed
  obtain ⟨thread, query, answer⟩ := update
  cases writes
  have applied : (Write.updateIssue id cols).apply before = .ok (rows, after) :=
    Write.apply_of_ok here
  obtain ⟨path, P, copy, loaded, keyed, taken⟩ := Sanctioned.rewrites sanctioned
  obtain ⟨between, read, earlier', t, row, rfl, same, loads, _, found, inside, copies⟩ :=
    ServesFrom.copied consistent run' loaded
  obtain rfl := keyed copies.id
  refine ⟨between, read, earlier', t, rfl, same, loads, before, pool, after, run', here, rest, ?_⟩
  show Spares (reqs thread) id before after ↔ Spares (reqs thread) id t before
  generalize reqs thread = req at taken
  have copied : ∀ {α : Type} (part : IssueColumns → α), part copy.columns =
      part { row.toIssueColumns with updatedBy := nullableUserID row.updatedBy } :=
    fun part => congrArg part copies.columns
  cases req with
  | putIssue =>
      obtain ⟨writable, place⟩ := taken
      refine kept_iff found ?_ applied
      rw [copied IssueColumns.status] at writable
      rw [place, IssueColumns.place, inside, beq_false_of_ne writable]
  | _ => exact kept_iff found (taken.trans (copied IssueColumns.edits)) applied

end Runs

/-! ### An overtaken archive -/

/-- One client archives the issue while another one renames it. -/
def overtaken : Fin 2 → Request
  | 0 => .archiveIssue sampleAdmin (some 1) (some 1)
  | 1 => .putIssue sampleAdmin (some 1) (some 1) (formatETag 2)
      (.json { title := "Crash on start", status := .todo, priority := .normal })

/-- The PUT is served between the reads and the write of the archive request. -/
def overtakenRun : Interleave.Config (Fin 2) Query.Answer Store Response :=
  executeFrom sampleHost (executeAll sampleHost createTables withCrash) overtaken
    (stepsOf 0 3 { instant := 4 } ++ stepsOf 1 20 { instant := 5 } ++ stepsOf 0 2 { instant := 6 })

/-- The archive request writes the title it has read. -/
def overtakenWrite : Step (Fin 2) :=
  ⟨0, .write (.updateIssue 1
    { title := "Crash", description := "", status := .archive, position := 1, deadline := none
      plannedDates := none, priority := .normal, labelID := none, assigneeID := none, updatedBy := some 1
      projectID := 1, releaseID := none, updatedAt := 6 }), .ok 1⟩

/-- The PUT has been answered with 200, and its title is gone. -/
theorem edits_kept_iff_renamed :
    succeeded (overtakenRun.current 1) = true ∧
    (overtakenRun.store.issues.get? 1).map (fun row => row.title) = some "Crash" ∧
    ∃ between read earlier' loaded, overtakenRun.past.drop 1 = between ++ read :: earlier' ∧
      read.thread = 0 ∧ Loads (executeAll sampleHost createTables withCrash) read earlier' loaded 1 ∧
      Around sampleHost (executeAll sampleHost createTables withCrash) overtaken [] overtakenWrite
        (overtakenRun.past.drop 1) overtakenRun.store fun before after =>
          (Spares (overtaken 0) 1 before after ↔ Spares (overtaken 0) 1 loaded before) := by
  have runs : succeeded (overtakenRun.current 1) = true ∧
      (overtakenRun.store.issues.get? 1).map (fun row => row.title) = some "Crash" ∧
      overtakenRun.past[0]? = some overtakenWrite := by
    decide +kernel
  obtain ⟨renamed, lost, last⟩ := runs
  have run : ServesFrom sampleHost (executeAll sampleHost createTables withCrash) overtaken
      ([] ++ overtakenWrite :: overtakenRun.past.drop 1) overtakenRun.store overtakenRun.current := by
    have place : overtakenRun.past = [] ++ overtakenWrite :: overtakenRun.past.drop 1 :=
      Interleave.place_of_getElem? last
    exact place ▸ ServesFrom.of_moves sampleHost _ overtaken _
  exact ⟨renamed, lost, edits_kept_iff (Sequential.of_moves sampleHost createTables withCrash) run rfl⟩

end Wuflow

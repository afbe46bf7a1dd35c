/-
**What the issue modal shows after its revalidation** (`revalidateIssue` over the backend's writes).

`openModal` shows a copy out of an issue list at once and fetches the issue in the background. The fetched
issue is shown only if its `updated_at` differs from the copy's, so the modal shows what GET returns as
long as every write that changes this also puts a new time on the issue.

* `listed_view` — a copy out of a list is what GET returned at that moment.
* `version_of_write` — the version of an issue after a write.
* `revalidated_shows` — after a run whose writes are all noticed the modal shows what GET returns; and the
  first write that is not noticed goes unseen.
* `task_unseen` — a task that another client has added.
-/

import Wuflow.Interleave.Alone
import Wuflow.Requests.Sequential
import Wuflow.Sorting.Stable

namespace Wuflow

open Calendar (Instant)
open Interleave (Prog Event Steps)
open Relational (Table)

/-! ### What the endpoints return -/

/-- An issue with its tasks, as `GET /projects/{pId}/issues/{id}` returns it. -/
def Store.issueView (s : Store) (projectID id : Int) : Option Issue :=
  ((Select.issueByIDInProject id projectID).eval s).map fun issue =>
    { issue with tasks := (Select.tasksByIssueID issue.id).eval s }

/-- `getTasksForIssues`: the tasks of several issues, ordered by position. -/
def Store.getTasksForIssues (s : Store) (ids : List Int) : List Task :=
  ((s.tasks.entries.filter fun entry => ids.contains entry.2.issueID).map fun entry =>
    scanTaskRow entry.1 entry.2).insertionSort fun a b => a.position ≤ b.position

/-- `queryIssuesByProject` for the issues with some of the statuses, ordered by position. -/
def Store.queryIssuesByProject (s : Store) (statuses : IssueStatus → Bool) (projectID : Int) :
    List Issue :=
  let issues := ((s.issues.entries.filter fun entry =>
      statuses entry.2.status && entry.2.projectID == projectID).map fun entry =>
    s.scanIssueRow entry.1 entry.2).insertionSort fun a b => a.position ≤ b.position
  let tasks := s.getTasksForIssues (issues.map Issue.id)
  issues.map fun issue => { issue with tasks := tasks.filter fun task => task.issueID == issue.id }

def Store.getActiveIssuesByProject (s : Store) : Int → List Issue :=
  s.queryIssuesByProject fun status => status != .archive && status != .open

def Store.getArchivedIssuesByProject (s : Store) : Int → List Issue :=
  s.queryIssuesByProject fun status => status == .archive

def Store.getOpenIssuesByProject (s : Store) : Int → List Issue :=
  s.queryIssuesByProject fun status => status == .open

section Views

variable {s : Store} {projectID id : Int}

theorem issueView_eq_some {issue : Issue} :
    s.issueView projectID id = some issue ↔ ∃ row, s.issues.get? id = some row ∧
      row.projectID = projectID ∧
      issue = { s.scanIssueRow id row with tasks := (Select.tasksByIssueID id).eval s } := by
  unfold Store.issueView Select.eval
  simp only [Option.map_map, Option.map_eq_some_iff, Option.filter_eq_some_iff, beq_iff_eq]
  constructor
  · rintro ⟨row, ⟨found, place⟩, rfl⟩
    exact ⟨row, found, place, rfl⟩
  · rintro ⟨row, found, place, rfl⟩
    exact ⟨row, ⟨found, place⟩, rfl⟩

/-- The tasks of one of several issues. -/
theorem tasks_of_issue {ids : List Int} (listed : id ∈ ids) :
    (s.getTasksForIssues ids).filter (fun task => task.issueID == id) =
      (Select.tasksByIssueID id).eval s := by
  unfold Store.getTasksForIssues Select.eval
  rw [Sorting.filter_insertionSort, List.filter_map, List.filter_filter]
  congr 2
  refine List.filter_congr fun entry _ => ?_
  show (entry.2.issueID == id && ids.contains entry.2.issueID) = (entry.2.issueID == id)
  cases here : entry.2.issueID == id with
  | false => rfl
  | true =>
      rw [beq_iff_eq.mp here, Bool.true_and]
      exact List.contains_iff_mem.mpr listed

/-- **A copy out of a list is what GET returns** for it. -/
theorem listed_view {statuses : IssueStatus → Bool} {copy : Issue}
    (listed : copy ∈ s.queryIssuesByProject statuses projectID) :
    s.issueView projectID copy.id = some copy := by
  obtain ⟨issue, sorted, rfl⟩ := List.mem_map.mp listed
  have tasks := tasks_of_issue (s := s) (List.mem_map_of_mem (f := Issue.id) sorted)
  obtain ⟨entry, kept, rfl⟩ := List.mem_map.mp ((List.mem_insertionSort _).mp sorted)
  obtain ⟨member, chosen⟩ := List.mem_filter.mp kept
  rw [Bool.and_eq_true, beq_iff_eq] at chosen
  refine issueView_eq_some.mpr ⟨entry.2, Table.mem_entries_iff.mp member, chosen.2, ?_⟩
  rw [tasks]
  rfl

end Views

/-! ### The modal -/

/-- The variables of the modal. `updated_at` is compared as the text that JSON gives it. -/
structure Modal where
  currentIssue : Option Issue := none
  currentEtag : Option String := none
  issueLoad : Bool := false

/-- The text never matches a server ETag. -/
def staleETag : String := "\"stale\""

/-- `openModal` with a caller's copy: shown at once, and revalidated. -/
def openModal (issue : Issue) : Modal := { currentIssue := some issue, issueLoad := true }

def closeModal : Modal := {}

/-- `fetchIssueById`, on an answer of the server. -/
def fetchIssueById (s : Store) (projectID id : Int) : Option (Issue × String) :=
  (s.issueView projectID id).map fun issue => (issue, formatETag issue.updatedAt)

/-- What `revalidateIssue` finds. -/
inductive Revalidated
  | notFound
  | unchanged (etag : String)
  | outdated
  | replaced (freshIssue : Issue) (etag : String)

/-- How `revalidateIssue` decides once the fetch is back. -/
def revalidation (issue : Issue) (fetched : Option (Issue × String)) (isEditing : Bool) : Revalidated :=
  match fetched with
  | none => .notFound
  | some (freshIssue, etag) =>
      if Calendar.rfc3339Nano freshIssue.updatedAt = Calendar.rfc3339Nano issue.updatedAt then
        .unchanged etag
      else if isEditing then .outdated
      else .replaced freshIssue etag

/-- `revalidateIssue` for the issue that is still open. -/
def Modal.revalidateIssue (modal : Modal) (issue : Issue) (fetched : Option (Issue × String))
    (isEditing : Bool) : Modal :=
  let modal := { modal with issueLoad := false }
  match revalidation issue fetched isEditing with
  | .notFound => closeModal
  | .unchanged etag => { modal with currentEtag := some etag }
  | .outdated => { modal with currentEtag := some staleETag }
  | .replaced freshIssue etag =>
      { modal with currentEtag := some etag, currentIssue := some freshIssue }

/-- The modal after a copy is opened and revalidated while the user is not editing. -/
def revalidated (copy : Issue) (s : Store) : Modal :=
  (openModal copy).revalidateIssue copy (fetchIssueById s copy.projectID copy.id) false

/-- The modal shows what GET returns. -/
def ShowsServer (copy : Issue) (s : Store) : Prop :=
  ∀ fresh, s.issueView copy.projectID copy.id = some fresh →
    (revalidated copy s).currentIssue = some fresh

/-- It does so for an unchanged issue and for one with another version, and for no other. -/
theorem showsServer_iff {copy fresh : Issue} {s : Store}
    (returned : s.issueView copy.projectID copy.id = some fresh) :
    ShowsServer copy s ↔ fresh = copy ∨ fresh.updatedAt ≠ copy.updatedAt := by
  have fetched : fetchIssueById s copy.projectID copy.id =
      some (fresh, formatETag fresh.updatedAt) := by
    unfold fetchIssueById
    rw [returned]
    rfl
  unfold ShowsServer revalidated
  rw [returned, fetched]
  by_cases same : fresh.updatedAt = copy.updatedAt
  · have texts := congrArg Calendar.rfc3339Nano same
    simp only [Modal.revalidateIssue, revalidation, if_pos texts]
    constructor
    · intro shows
      exact .inl (Option.some.inj (shows fresh rfl)).symm
    · rintro (rfl | other)
      · exact fun _ found => found
      · exact absurd same other
  · have texts : Calendar.rfc3339Nano fresh.updatedAt ≠ Calendar.rfc3339Nano copy.updatedAt :=
      fun texts => same (Calendar.rfc3339Nano_injective texts)
    simp only [Modal.revalidateIssue, revalidation, if_neg texts]
    exact iff_of_true (fun _ found => found) (.inr same)

/-! ### Versions -/

/-- The time that a write puts on an issue. -/
def Write.stampOn (w : Write) (s : Store) (id : Int) : Option Instant :=
  match w with
  | .updateIssue key cols => if key = id then some cols.updatedAt else none
  | .archiveDone release now =>
      if s.issues.holds id fun row => row.releaseID == some release && row.status == .done then some now
      else none
  | .deleteUser user _ _ now _ =>
      if s.issues.holds id fun row => row.assigneeID == some user then some now else none
  | _ => none

section Versions

variable {w : Write} {s s' : Store} {rows id : Int} {row row' : IssueRow}

/-- A row after an update of the selected rows. -/
theorem version_of_update {selects : IssueRow → Bool} {change : IssueRow → IssueRow} {now : Instant}
    (stamps : ∀ row, (change row).updatedAt = now) (found : s.issues.get? id = some row)
    (found' : (s.issues.update (fun _ row => selects row) change).get? id = some row') :
    row'.updatedAt = (if s.issues.holds id selects then some now else none).getD row.updatedAt := by
  obtain ⟨old, here, outcome⟩ := update_found found'
  cases here.symm.trans found
  have holds : s.issues.holds id selects = selects row := by
    unfold Table.holds
    rw [found]
  rw [holds]
  rcases outcome with ⟨chosen, rfl⟩ | ⟨spared, rfl⟩
  · rw [chosen, if_pos rfl]
    exact stamps row
  · rw [spared, if_neg Bool.false_ne_true]
    rfl

/-- Clearing references leaves the version alone. -/
theorem version_of_setNull {t : Table IssueRow} {deleted : Int → Bool}
    {reference : IssueRow → Option Int} {clear : IssueRow → IssueRow}
    (found : (setNull t deleted reference clear).get? id = some row')
    (keeps : ∀ row, (clear row).updatedAt = row.updatedAt) :
    ∃ row, t.get? id = some row ∧ row'.updatedAt = row.updatedAt := by
  obtain ⟨row, here, ⟨_, _, _, rfl⟩ | ⟨_, rfl⟩⟩ := setNull_found found
  · exact ⟨row, here, keeps row⟩
  · exact ⟨_, here, rfl⟩

/-- A write without a stamp keeps every version. -/
theorem version_of_unstamped (unstamped : w.stamp = none) (applied : w.apply s = .ok (rows, s'))
    (found : s.issues.get? id = some row) (found' : s'.issues.get? id = some row') :
    row'.updatedAt = row.updatedAt := by
  rcases Write.issue_cases applied found' with
    ⟨rfl, _⟩ | ⟨_, _, rfl, _⟩ | ⟨old, here, carried⟩
  · exact nomatch unstamped
  · exact nomatch unstamped
  · cases here.symm.trans found
    rcases carried.version with stamped | kept
    · exact nomatch unstamped.symm.trans stamped
    · exact kept.version

/-- **The version of an issue after a write.** -/
theorem version_of_write (applied : w.apply s = .ok (rows, s')) (found : s.issues.get? id = some row)
    (found' : s'.issues.get? id = some row') :
    row'.updatedAt = (w.stampOn s id).getD row.updatedAt := by
  cases w with
  | insertIssue new =>
      obtain ⟨_, rest⟩ := require_bind_ok.mp applied
      cases rest
      rw [Table.get?_insert_of_le _ _ (Table.get?_le_seq found).2, found] at found'
      cases found'
      rfl
  | updateIssue key cols =>
      have after := found'
      obtain ⟨_, rest⟩ := require_bind_ok.mp applied
      cases rest
      obtain ⟨old, here, outcome⟩ := update_found after
      cases here.symm.trans found
      show _ = (if key = id then some cols.updatedAt else none).getD row.updatedAt
      rcases outcome with ⟨chosen, rfl⟩ | ⟨spared, rfl⟩
      · rw [if_pos (beq_iff_eq.mp chosen).symm]
        rfl
      · rw [if_neg fun same => beq_eq_false_iff_ne.mp spared same.symm]
        rfl
  | archiveDone release now =>
      cases applied
      exact version_of_update (fun _ => rfl) found found'
  | deleteUser user actor userName now created =>
      obtain ⟨_, rest⟩ := require_bind_ok.mp applied
      obtain ⟨_, rest⟩ := require_bind_ok.mp rest
      obtain ⟨_, rest⟩ := require_bind_ok.mp rest
      cases rest
      rw [Store.deleteUserRow_issues] at found'
      obtain ⟨third, found', updater⟩ := version_of_setNull found' fun _ => rfl
      obtain ⟨second, found', assignee⟩ := version_of_setNull found' fun _ => rfl
      obtain ⟨first, found', creator⟩ := version_of_setNull found' fun _ => rfl
      rw [updater, assignee, creator]
      exact version_of_update (fun _ => rfl) found found'
  | _ => exact version_of_unstamped rfl applied found found'

end Versions

/-! ### Runs -/

/-- **The write is noticed** by a revalidation of the copy: it leaves what GET returns for the issue as it
is, or puts a time other than the copy's on it. -/
def Noticed (copy : Issue) (w : Write) (s : Store) : Prop :=
  (∀ rows s', w.apply s = .ok (rows, s') →
    s'.issueView copy.projectID copy.id = s.issueView copy.projectID copy.id) ∨
    ∃ now, w.stampOn s copy.id = some now ∧ now ≠ copy.updatedAt

section Writes

variable {copy : Issue} {w : Write} {s s' : Store} {rows : Int}

/-- An issue that GET returns, before and after a write. -/
theorem view_version (applied : w.apply s = .ok (rows, s')) {old fresh : Issue}
    (before : s.issueView copy.projectID copy.id = some old)
    (after : s'.issueView copy.projectID copy.id = some fresh) :
    fresh.updatedAt = (w.stampOn s copy.id).getD old.updatedAt := by
  obtain ⟨row, found, _, rfl⟩ := issueView_eq_some.mp before
  obtain ⟨row', found', _, rfl⟩ := issueView_eq_some.mp after
  exact version_of_write applied found found'

/-- A noticed write keeps the modal right. -/
theorem ShowsServer.write (applied : w.apply s = .ok (rows, s')) (noticed : Noticed copy w s)
    (given : copy.id ≤ s.issues.seq) (shows : ShowsServer copy s) : ShowsServer copy s' := by
  cases returned : s'.issueView copy.projectID copy.id with
  | none =>
      intro fresh found
      exact nomatch returned.symm.trans found
  | some fresh =>
      refine (showsServer_iff returned).mpr ?_
      rcases noticed with leaves | ⟨now, stamped, other⟩
      · rw [leaves rows s' applied] at returned
        exact (showsServer_iff returned).mp shows
      · -- the issue was there before, if only in another project
        obtain ⟨row', found', _, rfl⟩ := issueView_eq_some.mp returned
        have evolves := (Write.evolves applied).issues
        cases found : s.issues.get? copy.id with
        | none => exact nomatch (evolves.gone given found).symm.trans found'
        | some row =>
            have version := version_of_write applied found found'
            rw [stamped] at version
            exact .inr fun same => other (version.symm.trans same)

/-- **The first write that changes what GET returns is seen exactly if it is noticed.** -/
theorem showsServer_write_iff (applied : w.apply s = .ok (rows, s'))
    (unchanged : s.issueView copy.projectID copy.id = some copy) {fresh : Issue}
    (returned : s'.issueView copy.projectID copy.id = some fresh) :
    ShowsServer copy s' ↔ Noticed copy w s := by
  rw [showsServer_iff returned]
  have version := view_version applied unchanged returned
  constructor
  · rintro (rfl | other)
    · refine .inl fun _ t applied' => ?_
      cases applied.symm.trans applied'
      rw [returned, unchanged]
    · refine .inr ?_
      cases stamped : w.stampOn s copy.id with
      | none =>
          rw [stamped] at version
          exact absurd version other
      | some now =>
          rw [stamped] at version
          exact ⟨now, rfl, fun same => other (version.trans same)⟩
  · rintro (leaves | ⟨now, stamped, other⟩)
    · rw [leaves rows s' applied, unchanged] at returned
      exact .inl (Option.some.inj returned).symm
    · rw [stamped] at version
      exact .inr fun same => other (version.symm.trans same)

end Writes

/-- **The modal shows the server's issue after every run whose writes are noticed**, and the first write
that changes what GET returns is seen exactly if it is noticed. -/
theorem revalidated_shows {ι : Type} [DecidableEq ι] (host : Host) (start s : Store)
    (reqs : ι → Request) (trace : List (Step ι)) (current : ι → Backend Response)
    (statuses : IssueStatus → Bool) (copy : Issue)
    (listed : copy ∈ start.queryIssuesByProject statuses copy.projectID)
    (run : ServesFrom host start reqs trace s current) :
    (EveryStep start trace (fun before event _ =>
        ∀ w rows, event.entry = ⟨.write w, .ok rows⟩ → Noticed copy w before) → ShowsServer copy s) ∧
      EveryStep start trace fun before event after => ∀ w rows fresh,
        event.entry = ⟨.write w, .ok rows⟩ →
        before.issueView copy.projectID copy.id = some copy →
        after.issueView copy.projectID copy.id = some fresh →
        (ShowsServer copy after ↔ Noticed copy w before) := by
  have first := listed_view listed
  constructor
  · intro noticed
    have steps := run.steps
    clear run
    suffices general : copy.id ≤ s.issues.seq ∧ ShowsServer copy s from general.2
    induction steps with
    | refl =>
        obtain ⟨row, found, _⟩ := issueView_eq_some.mp first
        exact ⟨(Table.get?_le_seq found).2, (showsServer_iff first).mpr (.inl rfl)⟩
    | @step past before after event steps here ih =>
        obtain ⟨given, shows⟩ := ih (EveryStep.earlier (show EveryStep start ([event] ++ past) _ from noticed))
        refine ⟨le_trans given (perform_evolves here).issues.seq_le, ?_⟩
        rcases perform_cases here with ⟨w, rows, same, applied⟩ | ⟨rfl, _⟩
        · exact shows.write applied (noticed [] event past before after rfl steps here w rows same) given
        · exact shows
  · intro later event earlier before after _ _ here w rows fresh same unchanged returned
    obtain ⟨thread, query, answer⟩ := event
    cases same
    exact showsServer_write_iff (Write.apply_of_ok here) unchanged returned

/-! ### Two runs -/

/-- The writes that are noticed in every database: an edit of the issue at another time, and what the
modal does not show. -/
def Write.evident (copy : Issue) : Write → Bool
  | .updateIssue id cols => id == copy.id && cols.updatedAt != copy.updatedAt
  | .insertHistory _ | .insertComment _ | .updateComment _ _ _ _ _ | .deleteComment _ _ _
  | .insertSession _ | .updateSession _ _ _ | .deleteSession _ | .deleteSessionsByUserID _
  | .deleteExpiredSessions _ => true
  | _ => false

theorem noticed_of_evident {copy : Issue} {w : Write} (evident : w.evident copy = true) (s : Store) :
    Noticed copy w s := by
  cases w with
  | updateIssue id cols =>
      obtain ⟨same, other⟩ := Bool.and_eq_true_iff.mp evident
      exact .inr ⟨cols.updatedAt, if_pos (beq_iff_eq.mp same), bne_iff_ne.mp other⟩
  | insertHistory | insertComment =>
      refine .inl fun _ _ applied => ?_
      obtain ⟨_, rest⟩ := require_bind_ok.mp applied
      cases rest
      rfl
  | insertSession =>
      refine .inl fun _ _ applied => ?_
      obtain ⟨_, rest⟩ := require_bind_ok.mp applied
      cases rest
      rfl
  | updateComment | deleteComment | updateSession | deleteSession | deleteSessionsByUserID
  | deleteExpiredSessions =>
      refine .inl fun _ _ applied => ?_
      cases applied
      rfl
  | _ => exact nomatch evident

/-- The issue as the list of active issues shows it. -/
def crash : Issue :=
  { id := 1, title := "Crash", status := .todo, position := 1, priority := .normal, creatorID := 1,
    updaterID := some 1, projectID := 1,
    project := some { id := 1, name := "default", description := "Default project" }, updatedAt := 2 }

theorem crash_listed :
    crash ∈ (executeAll sampleHost createTables withCrash).getActiveIssuesByProject crash.projectID := by
  decide +kernel

/-- A statement that leaves the issue as it is, or is noticed. -/
def Query.evident (copy : Issue) : Query → Bool
  | .write w => w.evident copy
  | _ => true

/-- Another client archives the issue. -/
def archivedElsewhere : Interleave.Config Unit Query.Answer Store Response :=
  executeFrom sampleHost (executeAll sampleHost createTables withCrash)
    (fun _ => .archiveIssue sampleAdmin (some 1) (some 1)) (stepsOf () 20 { instant := 3 })

theorem archivedElsewhere_shown : ShowsServer crash archivedElsewhere.store := by
  have run := ServesFrom.of_moves sampleHost (executeAll sampleHost createTables withCrash)
    (fun _ : Unit => .archiveIssue sampleAdmin (some 1) (some 1)) (stepsOf () 20 { instant := 3 })
  refine (revalidated_shows _ _ _ _ _ _ _ _ crash_listed run).1 ?_
  rintro later event earlier before after split _ _ w rows same
  have evident : archivedElsewhere.past.all (fun event => event.query.evident crash) = true := by
    decide +kernel
  have member : event ∈ archivedElsewhere.past := by
    show event ∈ (executeFrom _ _ _ _).past
    rw [split]
    exact List.mem_append_right _ List.mem_cons_self
  obtain ⟨thread, query, answer⟩ := event
  cases same
  exact noticed_of_evident (List.all_eq_true.mp evident _ member) before

/-- Another client adds a task. -/
def taskElsewhere : Interleave.Config Unit Query.Answer Store Response :=
  executeFrom sampleHost (executeAll sampleHost createTables withCrash)
    (fun _ => .createTask sampleAdmin (some 1) (some 1) (.json { title := "Reproduce it" }))
    (stepsOf () 20 { instant := 3 })

/-- **A task that another client has added is not shown.** -/
theorem task_unseen :
    ¬ ∀ (host : Host) (start s : Store) (reqs : Unit → Request) (trace : List (Step Unit))
      (current : Unit → Backend Response) (statuses : IssueStatus → Bool) (copy : Issue),
      copy ∈ start.queryIssuesByProject statuses copy.projectID →
      ServesFrom host start reqs trace s current → ShowsServer copy s := by
  intro claim
  have shows := claim _ _ taskElsewhere.store _ _ _ _ crash crash_listed (ServesFrom.of_moves _ _ _ _)
  have returned : taskElsewhere.store.issueView crash.projectID crash.id = some { crash with tasks :=
      [{ id := 1, issueID := 1, title := "Reproduce it", position := 1, updatedAt := 3 }] } := by
    decide +kernel
  rcases (showsServer_iff returned).mp shows with same | other
  · exact absurd same (by decide)
  · exact other rfl

end Wuflow

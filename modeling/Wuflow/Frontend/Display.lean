/-
**From the database to the screen** (`db.go`, `issue-lists.js`, `board.js`, `backlog.js`, `archive.js`).

The backend returns the issues of a project in three lists by status, the cache merges them in the order in
which they arrive, and each view filters, sorts and groups what the cache holds.

* `mem_lists_iff` — an issue is in one of the three lists exactly as GET returns it.
* `cards_perm` — the views show each issue of the cache once, unless the filter or the status config hides it.
* `every_issue_shown` — so does the screen with the issues of the database, whatever the order of the
  answers.
-/

import Wuflow.Frontend.IssueLists
import Wuflow.Frontend.Reorder
import Wuflow.Frontend.Revalidation
import Wuflow.Sorting.Buckets

namespace Wuflow.Frontend

open Calendar (Instant)
open EventLoop (Move Run)
open IssueLists (Cache ListKind issueLists Distinct fresh Resolved Returned requestedSince mergeIntoIssues mergeAll)
open Relational (Table)

/-! ### The views -/

/-- The months of the archive with their issues, the latest first, and the cards of the Done list.
`month` is `toLocaleDateString` with the month and the year. -/
def View.renderArchive (view : View) (month : Instant → String) (issues : List Issue) :
    List (Buckets.Bucket String Issue) × List Int :=
  let filteredIssues := view.filterIssues issues
  let archivedIssues := (filterByStatus filteredIssues .archive).insertionSort fun a b =>
    b.updatedAt / 1000000 ≤ a.updatedAt / 1000000
  (Buckets.group (fun issue => month issue.updatedAt) archivedIssues,
    (sortByPosition (filterByStatus filteredIssues .done)).map Issue.id)

/-- The cards of the board, of the open list of the backlog and of the archive. (The backlog shows the Todo
issues again, and the archive those that are done.) -/
def View.cards (view : View) (month : Instant → String) (issues : List Issue) : List Int :=
  (view.renderBoard issues).flatMap Prod.snd ++ (view.backlogIssues issues .open).map Issue.id ++
    ((view.renderArchive month issues).1.flatMap Buckets.Bucket.items).map Issue.id

/-- The status has a place: the backlog, the archive, or a column of the board. -/
def View.places (view : View) (status : IssueStatus) : Bool :=
  decide (status ∈ getBoardColumns view.statusConfig) || decide (status = .open) || decide (status = .archive)

/-- The issue passes the filter and its status has a place. -/
def View.shows (view : View) (issue : Issue) : Bool :=
  view.places issue.status && passes view.toLowerCase view.filter view.currentUserId issue

section Views

variable {view : View} {issues : List Issue}

/-- Neither the backlog nor the archive is a column. -/
theorem column_ne {statusConfig : Option StatusConfig} {status : IssueStatus}
    (column : status ∈ getBoardColumns statusConfig) : status ≠ .open ∧ status ≠ .archive := by
  have listed : status ∈ [IssueStatus.todo, .stage1, .stage2, .stage3, .stage4, .done] := by
    unfold getBoardColumns at column
    exact ((List.filter_sublist.map Prod.snd).append (List.Sublist.refl [IssueStatus.done])).cons_cons
      IssueStatus.todo |>.subset column
  constructor
  · rintro rfl
    exact absurd listed (by decide)
  · rintro rfl
    exact absurd listed (by decide)

/-- What the filter lets pass. -/
def View.passes (view : View) : Issue → Bool := Frontend.passes view.toLowerCase view.filter view.currentUserId

/-- Sorted, filtered and of some status. -/
theorem sorted_perm (view : View) (kept : Issue → Bool) (issues : List Issue) :
    (sortByPosition (view.filterIssues (issues.filter kept))).Perm
      (issues.filter fun issue => kept issue && view.passes issue) := by
  refine (List.perm_insertionSort _ _).trans (List.Perm.of_eq ?_)
  unfold View.filterIssues
  rw [filterIssues_eq, List.filter_filter]
  exact List.filter_congr fun issue _ => Bool.and_comm _ _

theorem board_perm (view : View) (issues : List Issue) : ((view.renderBoard issues).flatMap Prod.snd).Perm
    ((issues.filter fun issue => decide (issue.status ∈ getBoardColumns view.statusConfig) &&
      view.passes issue).map Issue.id) := by
  have columns : (view.renderBoard issues).flatMap Prod.snd = ((getBoardColumns view.statusConfig).flatMap
      fun column => (sortByPosition (view.filterIssues (issues.filter fun issue => issue.status != .open))).filter
        fun issue => issue.status = column).map Issue.id := by
    unfold View.renderBoard
    rw [List.flatMap_map, List.map_flatMap]
    rfl
  rw [columns]
  refine List.Perm.map _ ?_
  refine (Buckets.flatMap_filter_perm Issue.status _ (getBoardColumns_nodup view.statusConfig)).trans ?_
  refine ((sorted_perm view (fun issue => issue.status != .open) issues).filter _).trans (List.Perm.of_eq ?_)
  rw [List.filter_filter]
  refine List.filter_congr fun issue _ => ?_
  by_cases column : issue.status ∈ getBoardColumns view.statusConfig
  · simp [column, (column_ne column).1]
  · simp [column]

theorem backlog_perm (view : View) (issues : List Issue) : ((view.backlogIssues issues .open).map Issue.id).Perm
    ((issues.filter fun issue => decide (issue.status = .open) && view.passes issue).map Issue.id) := by
  refine List.Perm.map _ ((List.perm_insertionSort _ _).trans (List.Perm.of_eq ?_))
  unfold filterByStatus View.filterIssues
  rw [filterIssues_eq, List.filter_filter]
  rfl

theorem archive_perm (view : View) (month : Instant → String) (issues : List Issue) :
    (((view.renderArchive month issues).1.flatMap Buckets.Bucket.items).map Issue.id).Perm
      ((issues.filter fun issue => decide (issue.status = .archive) && view.passes issue).map Issue.id) := by
  refine List.Perm.map _ ((Buckets.group_perm _ _).trans ((List.perm_insertionSort _ _).trans (List.Perm.of_eq ?_)))
  unfold filterByStatus View.filterIssues
  rw [filterIssues_eq, List.filter_filter]
  rfl

/-- **The views show each issue of the cache once**, unless the filter or the status config hides it. -/
theorem cards_perm (view : View) (month : Instant → String) (issues : List Issue) :
    (view.cards month issues).Perm ((issues.filter view.shows).map Issue.id) := by
  unfold View.cards
  refine (((board_perm view issues).append (backlog_perm view issues)).append
    (archive_perm view month issues)).trans ?_
  rw [← List.map_append, ← List.map_append]
  refine List.Perm.map _ ?_
  refine ((Buckets.filter_or_perm issues fun issue _ here => ?_).append_right _).trans
    ((Buckets.filter_or_perm issues fun issue _ here => ?_).trans (List.Perm.of_eq ?_))
  · have column := of_decide_eq_true (Bool.and_eq_true_iff.mp here).1
    rw [decide_eq_false (column_ne column).1, Bool.false_and]
  · have other : issue.status ≠ .archive := by
      rcases Bool.or_eq_true_iff.mp here with column | backlog
      · exact (column_ne (of_decide_eq_true (Bool.and_eq_true_iff.mp column).1)).2
      · rw [of_decide_eq_true (Bool.and_eq_true_iff.mp backlog).1]
        exact nofun
    rw [decide_eq_false other, Bool.false_and]
  · refine List.filter_congr fun issue _ => ?_
    unfold View.shows View.places View.passes
    simp only [Bool.and_or_distrib_right]

end Views

/-! ### The lists -/

/-- The moves of the cache, newest first. -/
abbrev ListMoves := List (Move IssueLists.Call IssueLists.Task IssueLists.Answer)

/-- The list of a kind. -/
def listOf (store : Store) (project : Int) : ListKind → List Issue
  | .open => store.getOpenIssuesByProject project
  | .archived => store.getArchivedIssuesByProject project

/-- What the server answers to a fetch of the cache; `/projects/null/…` is not found. -/
def fetched (store : Store) : IssueLists.Task → List Issue
  | .active _ (some project) => store.getActiveIssuesByProject project
  | .list _ kind _ (some project) => listOf store project kind
  | _ => []

/-- The answers of the latest generation are those that the server gives for `store`. -/
def ServedFrom (store : Store) (past : ListMoves) (s : Cache) : Prop :=
  ∀ t issues, Move.resume t (.issues issues) ∈ past → t.gen = s.generation → issues = fetched store t

section Lists

variable {store : Store} {project id : Int} {issue : Issue}

theorem listed_iff {statuses : IssueStatus → Bool} : issue ∈ store.queryIssuesByProject statuses project ↔
    store.issueView project issue.id = some issue ∧ statuses issue.status = true := by
  constructor
  · intro listed
    refine ⟨listed_view listed, ?_⟩
    obtain ⟨bare, sorted, rfl⟩ := List.mem_map.mp listed
    obtain ⟨entry, kept, rfl⟩ := List.mem_map.mp ((List.mem_insertionSort _).mp sorted)
    exact (Bool.and_eq_true_iff.mp (List.mem_filter.mp kept).2).1
  · rintro ⟨viewed, status⟩
    obtain ⟨row, found, place, same⟩ := issueView_eq_some.mp viewed
    have chosen : (issue.id, row) ∈ store.issues.entries.filter fun entry : Int × IssueRow =>
        statuses entry.2.status && entry.2.projectID == project := by
      refine List.mem_filter.mpr ⟨Table.mem_entries_iff.mpr found, ?_⟩
      rw [Bool.and_eq_true, beq_iff_eq]
      exact ⟨(congrArg (fun issue => statuses issue.status) same).symm.trans status, place⟩
    have sorted := (List.mem_insertionSort fun a b : Issue => a.position ≤ b.position).mpr
      (List.mem_map_of_mem (f := fun entry : Int × IssueRow => store.scanIssueRow entry.1 entry.2) chosen)
    refine List.mem_map.mpr ⟨_, sorted, Eq.trans ?_ same.symm⟩
    exact congrArg (fun tasks => { store.scanIssueRow issue.id row with tasks })
      (tasks_of_issue (List.mem_map_of_mem (f := Issue.id) sorted))

theorem mem_active_iff : issue ∈ store.getActiveIssuesByProject project ↔
    store.issueView project issue.id = some issue ∧ issue.status ≠ .archive ∧ issue.status ≠ .open := by
  unfold Store.getActiveIssuesByProject
  rw [listed_iff, Bool.and_eq_true, bne_iff_ne, bne_iff_ne]

theorem mem_open_iff : issue ∈ listOf store project .open ↔
    store.issueView project issue.id = some issue ∧ issue.status = .open := by
  unfold listOf Store.getOpenIssuesByProject
  rw [listed_iff, beq_iff_eq]

theorem mem_archived_iff : issue ∈ listOf store project .archived ↔
    store.issueView project issue.id = some issue ∧ issue.status = .archive := by
  unfold listOf Store.getArchivedIssuesByProject
  rw [listed_iff, beq_iff_eq]

/-- **An issue is in one of the three lists exactly as GET returns it.** -/
theorem mem_lists_iff : (issue ∈ store.getActiveIssuesByProject project ∨ ∃ kind, issue ∈ listOf store project kind) ↔
    store.issueView project issue.id = some issue := by
  constructor
  · rintro (active | ⟨kind, listed⟩)
    · exact (mem_active_iff.mp active).1
    · cases kind with
      | «open» => exact (mem_open_iff.mp listed).1
      | archived => exact (mem_archived_iff.mp listed).1
  · intro viewed
    by_cases archived : issue.status = .archive
    · exact .inr ⟨.archived, mem_archived_iff.mpr ⟨viewed, archived⟩⟩
    · by_cases backlog : issue.status = .open
      · exact .inr ⟨.open, mem_open_iff.mpr ⟨viewed, backlog⟩⟩
      · exact .inl (mem_active_iff.mpr ⟨viewed, archived, backlog⟩)

/-- The lists agree on every issue. -/
def Agreed (store : Store) (project : Int) (issues : List Issue) : Prop :=
  ∀ issue ∈ issues, store.issueView project issue.id = some issue

theorem Agreed.mem_merge_iff {issues new : List Issue} (agreed : Agreed store project issues)
    (agreed' : Agreed store project new) : issue ∈ mergeIntoIssues issues new ↔ issue ∈ issues ∨ issue ∈ new := by
  unfold mergeIntoIssues
  rw [List.mem_append, List.mem_filter]
  refine ⟨fun member => member.imp_right And.left, fun member => ?_⟩
  rcases member with old | arrived
  · exact .inl old
  · cases known : issues.any fun other => other.id == issue.id with
    | false => exact .inr ⟨arrived, rfl⟩
    | true =>
        obtain ⟨other, old, same⟩ := List.any_eq_true.mp known
        have viewed := agreed other old
        rw [beq_iff_eq.mp same, agreed' issue arrived] at viewed
        exact .inl (Option.some.inj viewed ▸ old)

theorem Agreed.mem_mergeAll_iff {active : List Issue} {order : List (ListKind × List Issue)}
    (agreed : Agreed store project active) (lists : ∀ entry ∈ order, Agreed store project entry.2) :
    issue ∈ mergeAll active order ↔ issue ∈ active ∨ ∃ entry ∈ order, issue ∈ entry.2 := by
  unfold mergeAll
  induction order generalizing active with
  | nil => simp
  | cons entry order ih =>
      have first := lists entry List.mem_cons_self
      have merged : Agreed store project (mergeIntoIssues active entry.2) := fun other member =>
        ((agreed.mem_merge_iff first).mp member).elim (agreed other) (first other)
      rw [List.foldl_cons, ih merged fun entry member => lists entry (List.mem_cons_of_mem _ member),
        agreed.mem_merge_iff first]
      simp only [List.mem_cons, exists_eq_or_imp, or_assoc]

/-- **What the cache holds** once everything has arrived: each issue of the project, as GET returns it. -/
theorem mem_loaded_iff {past : ListMoves} {selected : Option Int} {s : Cache} {pending : List IssueLists.Task}
    (run : Run issueLists Distinct (fresh selected) past s pending) (resolved : Resolved past s pending)
    (chosen : s.selectedProjectId = some project) (served : ServedFrom store past s)
    (all : ∀ kind, kind ∈ requestedSince past) :
    issue ∈ s.issues ↔ store.issueView project issue.id = some issue := by
  obtain ⟨active, order, answered, lists, same, once⟩ := IssueLists.lists_loaded run resolved
  have actives : active = store.getActiveIssuesByProject project := by
    have answer := served _ _ answered rfl
    rw [chosen] at answer
    exact answer
  have kinds : ∀ entry ∈ order, entry.2 = listOf store project entry.1 := fun entry member => by
    obtain ⟨promise, returned⟩ := lists entry member
    have answer := served _ _ returned rfl
    rw [chosen] at answer
    exact answer
  have both : ∀ kind, ∃ entry ∈ order, entry.1 = kind := fun kind => by
    have one := (once kind).1
    rw [if_pos (all kind)] at one
    exact List.mem_map.mp (List.count_pos_iff.mp (one ▸ Nat.one_pos))
  have agreed : Agreed store project active := fun other member => mem_lists_iff.mp (.inl (actives ▸ member))
  have agreed' : ∀ entry ∈ order, Agreed store project entry.2 := fun entry member other inside =>
    mem_lists_iff.mp (.inr ⟨entry.1, kinds entry member ▸ inside⟩)
  rw [same, ← IssueLists.mergeAll_eq, agreed.mem_mergeAll_iff agreed', ← mem_lists_iff, actives]
  refine or_congr_right ⟨?_, ?_⟩
  · rintro ⟨entry, member, inside⟩
    exact ⟨entry.1, kinds entry member ▸ inside⟩
  · rintro ⟨kind, inside⟩
    obtain ⟨entry, member, rfl⟩ := both kind
    exact ⟨entry, member, (kinds entry member).symm ▸ inside⟩

end Lists

/-! ### The screen -/

section Screen

variable {past : ListMoves} {selected : Option Int} {s : Cache} {pending : List IssueLists.Task}

/-- **No issue is lost between the database and the screen, and none is shown twice.** Once the latest load
and both lists have arrived, in any order, each issue of the project has one card, unless the filter leaves
it out or its status has no column; and there are no other cards. -/
theorem every_issue_shown (view : View) (month : Instant → String) (store : Store) (project : Int)
    (run : Run issueLists Distinct (fresh selected) past s pending) (resolved : Resolved past s pending)
    (chosen : s.selectedProjectId = some project) (served : ServedFrom store past s)
    (all : ∀ kind, kind ∈ requestedSince past) (id : Int) :
    (view.cards month s.issues).count id = if (store.issueView project id).any view.shows then 1 else 0 := by
  have distinct : (s.issues.map Issue.id).Nodup :=
    (IssueLists.distinct_issues (show ((fresh selected).issues.map Issue.id).Nodup from List.nodup_nil) run).1
  rw [(cards_perm view month s.issues).count_eq, (distinct.sublist (List.filter_sublist.map Issue.id)).count]
  refine if_congr ?_ rfl rfl
  rw [List.mem_map, Option.any_eq_true]
  constructor
  · rintro ⟨issue, member, rfl⟩
    obtain ⟨inside, shown⟩ := List.mem_filter.mp member
    exact ⟨issue, (mem_loaded_iff run resolved chosen served all).mp inside, shown⟩
  · rintro ⟨issue, viewed, shown⟩
    obtain ⟨row, _, _, same⟩ := issueView_eq_some.mp viewed
    have named : issue.id = id := by rw [same]; rfl
    refine ⟨issue, List.mem_filter.mpr ⟨?_, shown⟩, named⟩
    exact (mem_loaded_iff run resolved chosen served all).mpr (named ▸ viewed)

end Screen

/-- An issue of the first project. -/
def rowAt (status : IssueStatus) (position : Int) : IssueRow :=
  { title := "", description := "", status, position, deadline := none, plannedDates := none,
    priority := .normal, labelID := none, assigneeID := none, updatedBy := none, projectID := 1,
    releaseID := none, updatedAt := 1, creatorID := none }

/-- One issue in each of the lists. -/
def threeLists : Store :=
  { createTables with
    projects := Table.empty.insert { name := "one", description := "" }
    issues := ((Table.empty.insert (rowAt .open 0)).insert (rowAt .archive 1)).insert (rowAt .todo 2) }

/-- The archive arrives first, and the active issues last. -/
def archiveFirst : EventLoop.Config Cache IssueLists.Call IssueLists.Task IssueLists.Answer :=
  issueLists.play (fun s pending move => decide (Distinct s pending move)) (fresh (some 1))
    [.call (.loadIssues [.open, .archived]), .resume 2 (.issues (listOf threeLists 1 .archived)),
      .resume 1 (.issues (listOf threeLists 1 .open)),
      .resume 0 (.issues (threeLists.getActiveIssuesByProject 1)), .resume 0 .settled, .resume 0 .settled]

theorem every_issue_shown_archiveFirst :
    (View.cards ⟨id, none, {}, none⟩ (fun _ => "") archiveFirst.state.issues).count 1 = 1 := by
  have run : Run issueLists Distinct (fresh (some 1)) archiveFirst.past archiveFirst.state
      archiveFirst.pending :=
    Run.mono (Run.of_choices _ _) fun _ _ _ ok => of_decide_eq_true ok
  have past : archiveFirst.past =
      [.resume (.merge 1 .open (listOf threeLists 1 .open)) .settled,
        .resume (.merge 1 .archived (listOf threeLists 1 .archived)) .settled,
        .resume (.active 1 (some 1)) (.issues (threeLists.getActiveIssuesByProject 1)),
        .resume (.list 1 .open 0 (some 1)) (.issues (listOf threeLists 1 .open)),
        .resume (.list 1 .archived 1 (some 1)) (.issues (listOf threeLists 1 .archived)),
        .call (.loadIssues [.open, .archived])] := by
    rfl
  have served : ServedFrom threeLists archiveFirst.past archiveFirst.state := by
    intro t issues returned _
    rw [past] at returned
    simp only [List.mem_cons, Move.resume.injEq, reduceCtorEq, and_false, false_or, List.not_mem_nil, or_false,
      IssueLists.Answer.issues.injEq] at returned
    rcases returned with ⟨rfl, rfl⟩ | ⟨rfl, rfl⟩ | ⟨rfl, rfl⟩ <;> rfl
  have resolved : Resolved archiveFirst.past archiveFirst.state archiveFirst.pending := by
    refine ⟨by decide, fun _ member => absurd member List.not_mem_nil, fun t failed => ?_⟩
    simp [past] at failed
  rw [every_issue_shown _ _ threeLists 1 run resolved rfl served (fun kind => by cases kind <;> decide) 1]
  decide +kernel

end Wuflow.Frontend

/-
**Drag and drop, Move to top and Move to bottom** (`list-utils.js`, `board.js`, `backlog.js`).

A reorder gives the cards of a rendered list the positions 0, 1, 2, … in their new order. The cards that
the filter hides keep theirs, so they may end up on another side of the visible ones.

* `getBoardUpdates_issues`, `backlogOnDrop_issues`, `updatePositions_issues` — each reorder puts cards at
  their index in a list (`placed`).
* `placed_keeps_iff` — the order of the other issues stays as it was exactly if every hidden issue stays on
  the same side of every visible card.
* `reorder_iff` — the same for every reorder of the board and the backlog, and where the card moved to the
  top or the bottom ends up.
* `boardMove_done` — Move to top and Move to bottom of the board are given all issues of the column.
* `hidden_overtaken` — a drop that reorders issues it does not move.
-/

import Wuflow.Frontend.Filters
import Wuflow.Sorting.Stable

namespace Wuflow.Frontend

open Sorting

/-! ### Updates -/

/-- The entries of a reorder for `saveIssueOrder`. -/
structure OrderChange where
  issue : Issue
  previousStatus : IssueStatus
  previousPosition : Int

def applyOrderChange (issue : Issue) (status : IssueStatus) (position : Int) : OrderChange where
  issue := { issue with status, position }
  previousStatus := issue.status
  previousPosition := issue.position

/-- `state.issues` while a reorder is applied to it, the changes to save and the archive requests. -/
structure Updates where
  issues : List Issue
  changes : List OrderChange := []
  archives : List Int := []

/-- The issue with the id in `state.issues`, which holds it once, is changed. -/
def Updates.change (u : Updates) (issue : Issue) (status : IssueStatus) (position : Int) : Updates :=
  { u with
    issues := u.issues.map fun other => if other.id = issue.id then { other with status, position } else other
    changes := u.changes ++ [applyOrderChange issue status position] }

/-- The lists of a view after a drop: for each its status and the ids of its cards from top to
bottom. -/
abbrev Lists := List (IssueStatus × List Int)

def Updates.boardCard (status : IssueStatus) (u : Updates) (card : Int × Nat) : Updates :=
  match u.issues.find? (·.id == card.1) with
  | none => u
  | some issue =>
      if issue.status ≠ status ∨ issue.position ≠ card.2 then u.change issue status card.2 else u

def getBoardUpdates (issues : List Issue) (columns : Lists) : Updates :=
  columns.foldl (fun u column => column.2.zipIdx.foldl (Updates.boardCard column.1) u) { issues }

def Updates.listCard (targetStatus : IssueStatus) (u : Updates) (card : Int × Nat) : Updates :=
  match u.issues.find? (·.id == card.1) with
  | none => u
  | some issue =>
      let statusChanged := issue.status ≠ targetStatus
      let positionChanged := targetStatus ≠ .archive ∧ issue.position ≠ card.2
      if statusChanged ∨ positionChanged then
        if targetStatus = .archive then
          { u with
            issues := u.issues.map fun other =>
              if other.id = issue.id then { other with status := targetStatus } else other
            archives := u.archives ++ [issue.id] }
        else u.change issue targetStatus card.2
      else u

def getListUpdates (u : Updates) (targetStatus : IssueStatus) (cards : List Int) : Updates :=
  cards.zipIdx.foldl (Updates.listCard targetStatus) u

/-- The drop handler of the backlog, list after list. -/
def backlogOnDrop (issues : List Issue) (lists : Lists) : Updates :=
  lists.foldl (fun u list => getListUpdates u list.1 list.2) { issues }

def updatePositions (issues orderedIssues : List Issue) : Updates :=
  orderedIssues.zipIdx.foldl
    (fun u entry => if entry.1.position ≠ entry.2 then u.change entry.1 entry.1.status entry.2 else u)
    { issues }

def handleMoveTop (issues : List Issue) (issue : Issue) (allIssuesInList : List Issue) : Updates :=
  if allIssuesInList.length ≤ 1 ∨ allIssuesInList.head?.map Issue.id = some issue.id then { issues }
  else updatePositions issues (issue :: allIssuesInList.filter fun i => i.id != issue.id)

def handleMoveBottom (issues : List Issue) (issue : Issue) (allIssuesInList : List Issue) : Updates :=
  if allIssuesInList.length ≤ 1 ∨ allIssuesInList.getLast?.map Issue.id = some issue.id then { issues }
  else updatePositions issues ((allIssuesInList.filter fun i => i.id != issue.id) ++ [issue])

/-! ### The views -/

def getDefaultStatusConfig : StatusConfig :=
  { projectID := 0, stage1Name := "Pending", stage2Name := "Working" }

/-- The statuses of the board's columns: Todo and Done, and the stages that have a name. -/
def getBoardColumns (statusConfig : Option StatusConfig) : List IssueStatus :=
  let cfg := statusConfig.getD getDefaultStatusConfig
  let slots := [(cfg.stage1Name, IssueStatus.stage1), (cfg.stage2Name, .stage2),
    (cfg.stage3Name, .stage3), (cfg.stage4Name, .stage4)]
  .todo :: (slots.filter fun slot => trim slot.1 != "").map Prod.snd ++ [.done]

/-- What the views read besides the issues. -/
structure View where
  toLowerCase : String → String
  statusConfig : Option StatusConfig := none
  filter : Filter := {}
  currentUserId : Option Int := none

def View.filterIssues (view : View) (issues : List Issue) : List Issue :=
  Frontend.filterIssues view.toLowerCase issues view.filter view.currentUserId

/-- The cards of the board's columns. -/
def View.renderBoard (view : View) (issues : List Issue) : Lists :=
  let nonBacklogIssues := issues.filter fun issue => issue.status != .open
  let sortedIssues := sortByPosition (view.filterIssues nonBacklogIssues)
  (getBoardColumns view.statusConfig).map fun column =>
    (column, (sortedIssues.filter fun issue => issue.status == column).map Issue.id)

/-- All issues of a column, which the board passes to Move to top and Move to bottom. -/
def columnIssues (issues : List Issue) (status : IssueStatus) : List Issue :=
  sortByPosition ((issues.filter fun issue => issue.status != .open).filter fun issue =>
    issue.status == status)

/-- The issues of a list of the backlog. -/
def View.backlogIssues (view : View) (issues : List Issue) (status : IssueStatus) : List Issue :=
  sortByPosition (filterByStatus (view.filterIssues issues) status)

def View.renderBacklog (view : View) (issues : List Issue) : Lists :=
  [(.open, (view.backlogIssues issues .open).map Issue.id),
    (.todo, (view.backlogIssues issues .todo).map Issue.id)]

/-- The lists after a card has been dropped at a place of the list of a status. -/
def drop (lists : Lists) (id : Int) (target : IssueStatus) (index : Nat) : Lists :=
  lists.map fun list =>
    let others := list.2.filter fun card => card != id
    (list.1, if list.1 = target then others.take index ++ id :: others.drop index else others)

/-- The card is in one of the lists. -/
def Lists.hasCard (lists : Lists) (id : Int) : Bool := lists.any fun list => list.2.contains id

def Lists.hasStatus (lists : Lists) (status : IssueStatus) : Bool := lists.any fun list => list.1 == status

/-! ### Reorders -/

/-- A reorder by the user: a card is dropped into a list, or moved to the top or the bottom of its own. -/
inductive Reorder
  | boardDrop (id : Int) (target : IssueStatus) (index : Nat)
  | backlogDrop (id : Int) (target : IssueStatus) (index : Nat)
  | boardTop (id : Int)
  | boardBottom (id : Int)
  | backlogTop (id : Int)
  | backlogBottom (id : Int)

def Reorder.id : Reorder → Int
  | .boardDrop id _ _ | .backlogDrop id _ _ | .boardTop id | .boardBottom id | .backlogTop id
  | .backlogBottom id => id

/-- Move to top is offered for a card that is not the first of the list it is given. -/
def moveTop (issues : List Issue) (issue : Issue) (list : List Issue) : Option Updates :=
  if list.head?.map Issue.id = some issue.id then none else some (handleMoveTop issues issue list)

def moveBottom (issues : List Issue) (issue : Issue) (list : List Issue) : Option Updates :=
  if list.getLast?.map Issue.id = some issue.id then none else some (handleMoveBottom issues issue list)

/-- The issue of a card of the board, and of the backlog. -/
def View.boardIssue (view : View) (issues : List Issue) (id : Int) : Option Issue :=
  (issues.find? (·.id == id)).filter fun _ => Lists.hasCard (view.renderBoard issues) id

def View.backlogIssue (view : View) (issues : List Issue) (id : Int) : Option Issue :=
  (issues.find? (·.id == id)).filter fun _ => Lists.hasCard (view.renderBacklog issues) id

/-- The local effect of a reorder, if it is possible. -/
def Reorder.run (view : View) (issues : List Issue) : Reorder → Option Updates
  | .boardDrop id target index =>
      let columns := view.renderBoard issues
      if columns.hasCard id && columns.hasStatus target then
        some (getBoardUpdates issues (drop columns id target index))
      else none
  | .backlogDrop id target index =>
      let lists := view.renderBacklog issues
      if lists.hasCard id && lists.hasStatus target then
        some (backlogOnDrop issues (drop lists id target index))
      else none
  | .boardTop id => (view.boardIssue issues id).bind fun issue =>
      moveTop issues issue (columnIssues issues issue.status)
  | .boardBottom id => (view.boardIssue issues id).bind fun issue =>
      moveBottom issues issue (columnIssues issues issue.status)
  | .backlogTop id => (view.backlogIssue issues id).bind fun issue =>
      moveTop issues issue (view.backlogIssues issues issue.status)
  | .backlogBottom id => (view.backlogIssue issues id).bind fun issue =>
      moveBottom issues issue (view.backlogIssues issues issue.status)

/-! ### What a reorder does to the issues -/

/-- The issue with the id gets a status and a position. -/
def place (id : Int) (status : IssueStatus) (position : Int) (issue : Issue) : Issue :=
  if issue.id = id then { issue with status, position } else issue

/-- The cards of a list get its status and their index in it, counted from `n`. -/
def placeFrom (n : Nat) (list : IssueStatus × List Int) (issue : Issue) : Issue :=
  if issue.id ∈ list.2 then
    { issue with status := list.1, position := ((n + list.2.idxOf issue.id : Nat) : Int) }
  else issue

def placed (lists : Lists) (issue : Issue) : Issue :=
  lists.foldl (fun issue list => placeFrom 0 list issue) issue

/-- `state.issues` does not hold two issues with one id. -/
abbrev DistinctIds (issues : List Issue) : Prop := (issues.map Issue.id).Nodup

section Updates

variable {issues : List Issue} {u : Updates}

theorem place_id (id : Int) (status : IssueStatus) (position : Int) (issue : Issue) :
    (place id status position issue).id = issue.id := by
  unfold place
  split <;> rfl

theorem placeFrom_id (n : Nat) (list : IssueStatus × List Int) (issue : Issue) :
    (placeFrom n list issue).id = issue.id := by
  unfold placeFrom
  split <;> rfl

theorem placed_id (lists : Lists) (issue : Issue) : (placed lists issue).id = issue.id := by
  unfold placed
  induction lists generalizing issue with
  | nil => rfl
  | cons list lists ih => exact (ih _).trans (placeFrom_id 0 list issue)

theorem DistinctIds.map {f : Issue → Issue} (keeps : ∀ issue, (f issue).id = issue.id)
    (distinct : DistinctIds issues) : DistinctIds (issues.map f) := by
  unfold DistinctIds
  rw [List.map_map]
  have same : Issue.id ∘ f = Issue.id := funext keeps
  rwa [same]

/-- Two issues with one id are one. -/
theorem DistinctIds.eq (distinct : DistinctIds issues) :
    ∀ a ∈ issues, ∀ b ∈ issues, a.id = b.id → a = b :=
  fun _ first _ second same => List.inj_on_of_nodup_map distinct first second same

/-- An issue that has its place already. -/
theorem map_place_of_placed (distinct : DistinctIds issues) {issue : Issue} {status : IssueStatus}
    {position : Int} (member : issue ∈ issues) (there : issue.status = status ∧ issue.position = position) :
    issues.map (place issue.id status position) = issues := by
  refine (List.map_congr_left fun other inside => ?_).trans (List.map_id issues)
  unfold place
  split
  · next same =>
      obtain rfl := distinct.eq other inside issue member same
      obtain ⟨rfl, rfl⟩ := there
      rfl
  · rfl

theorem found_id {id : Int} {issue : Issue} (found : issues.find? (·.id == id) = some issue) :
    issue.id = id := by
  have chosen := List.find?_some found
  exact beq_iff_eq.mp chosen

/-- An id that no issue has. -/
theorem map_place_of_none {id : Int} {status : IssueStatus} {position : Int}
    (absent : issues.find? (·.id == id) = none) : issues.map (place id status position) = issues := by
  refine (List.map_congr_left fun other inside => ?_).trans (List.map_id issues)
  have differ := List.find?_eq_none.mp absent other inside
  rw [beq_iff_eq] at differ
  exact if_neg differ

/-- One card of a column of the board. -/
theorem boardCard_issues (distinct : DistinctIds u.issues) (status : IssueStatus) (card : Int × Nat) :
    (u.boardCard status card).issues = u.issues.map (place card.1 status card.2) := by
  unfold Updates.boardCard
  cases found : u.issues.find? (·.id == card.1) with
  | none => exact (map_place_of_none found).symm
  | some issue =>
      have same := found_id found
      simp only
      split
      · rw [← same]
        rfl
      · next there =>
          rw [not_or, not_not, not_not] at there
          rw [← same]
          exact (map_place_of_placed distinct (List.mem_of_find?_eq_some found) there).symm

/-- One card of a list, unless it is the archive. -/
theorem listCard_issues (distinct : DistinctIds u.issues) {status : IssueStatus}
    (kept : status ≠ .archive) (card : Int × Nat) :
    (u.listCard status card).issues = u.issues.map (place card.1 status card.2) := by
  unfold Updates.listCard
  cases found : u.issues.find? (·.id == card.1) with
  | none => exact (map_place_of_none found).symm
  | some issue =>
      have same := found_id found
      simp only [kept, ne_eq, not_false_eq_true, true_and]
      split
      · rw [← same]
        rfl
      · next there =>
          rw [not_or, not_not, not_not] at there
          rw [← same]
          exact (map_place_of_placed distinct (List.mem_of_find?_eq_some found) there).symm

/-- The first card and the rest of a list. -/
theorem placeFrom_cons {status : IssueStatus} {card : Int} {cards : List Int} {n : Nat} (issue : Issue)
    (once : card ∉ cards) :
    placeFrom (n + 1) (status, cards) (place card status n issue) =
      placeFrom n (status, card :: cards) issue := by
  unfold placeFrom
  rw [place_id]
  unfold place
  by_cases first : issue.id = card
  · rw [if_pos first, if_neg (first ▸ once), if_pos (first ▸ List.mem_cons_self), first,
      List.idxOf_cons_self]
    rfl
  · rw [if_neg first]
    by_cases later : issue.id ∈ cards
    · rw [if_pos later, if_pos (List.mem_cons_of_mem _ later), List.idxOf_cons_ne _ (Ne.symm first)]
      have count : n + 1 + cards.idxOf issue.id = n + (cards.idxOf issue.id).succ := by omega
      rw [count]
    · rw [if_neg later, if_neg fun member => (List.mem_cons.mp member).elim first later]

/-- **The cards of one list**, one after the other. -/
theorem fold_issues {step : Updates → Int × Nat → Updates} {status : IssueStatus}
    (each : ∀ u card, DistinctIds u.issues →
      (step u card).issues = u.issues.map (place card.1 status card.2))
    {cards : List Int} (once : cards.Nodup) (distinct : DistinctIds u.issues) :
    (cards.zipIdx.foldl step u).issues = u.issues.map (placeFrom 0 (status, cards)) := by
  suffices general : ∀ (n : Nat) (u : Updates), DistinctIds u.issues →
      ((cards.zipIdx n).foldl step u).issues = u.issues.map (placeFrom n (status, cards)) from
    general 0 u distinct
  clear distinct
  induction cards with
  | nil => exact fun n u _ => (List.map_id _).symm
  | cons card cards ih =>
      intro n u distinct
      obtain ⟨new, once⟩ := List.nodup_cons.mp once
      have first := each u (card, n) distinct
      have distinct' : DistinctIds (step u (card, n)).issues := by
        rw [first]
        exact distinct.map (place_id card status n)
      rw [List.zipIdx_cons, List.foldl_cons, ih once (n + 1) _ distinct', first, List.map_map]
      exact List.map_congr_left fun issue _ => placeFrom_cons issue new

/-- List after list. -/
theorem foldl_lists {step : Updates → IssueStatus × List Int → Updates} {lists : Lists}
    (each : ∀ u, ∀ list ∈ lists, DistinctIds u.issues →
      (step u list).issues = u.issues.map (placeFrom 0 list)) (distinct : DistinctIds u.issues) :
    (lists.foldl step u).issues = u.issues.map (placed lists) := by
  induction lists generalizing u with
  | nil => exact (List.map_id _).symm
  | cons list lists ih =>
      have first := each u list List.mem_cons_self distinct
      have distinct' : DistinctIds (step u list).issues := by
        rw [first]
        exact distinct.map (placeFrom_id 0 list)
      rw [List.foldl_cons, ih (fun u list member => each u list (.tail _ member)) distinct', first,
        List.map_map]
      rfl

/-- **A drop on the board.** -/
theorem getBoardUpdates_issues (distinct : DistinctIds issues) {columns : Lists}
    (once : ∀ list ∈ columns, list.2.Nodup) :
    (getBoardUpdates issues columns).issues = issues.map (placed columns) :=
  foldl_lists (u := { issues }) (fun _ list member distinct =>
    fold_issues (fun _ card distinct => boardCard_issues distinct list.1 card) (once list member) distinct)
    distinct

/-- **A drop in the backlog.** -/
theorem backlogOnDrop_issues (distinct : DistinctIds issues) {lists : Lists}
    (once : ∀ list ∈ lists, list.2.Nodup) (kept : ∀ list ∈ lists, list.1 ≠ .archive) :
    (backlogOnDrop issues lists).issues = issues.map (placed lists) :=
  foldl_lists (u := { issues }) (fun _ list member distinct =>
    fold_issues (fun _ card distinct => listCard_issues distinct (kept list member) card)
      (once list member) distinct) distinct

/-- **Move to top and Move to bottom.** -/
theorem updatePositions_issues (distinct : DistinctIds issues) {status : IssueStatus}
    {orderedIssues : List Issue} (once : DistinctIds orderedIssues)
    (within : ∀ issue ∈ orderedIssues, issue ∈ issues ∧ issue.status = status) :
    (updatePositions issues orderedIssues).issues =
      issues.map (placed [(status, orderedIssues.map Issue.id)]) := by
  suffices general : ∀ (n : Nat) (u : Updates), DistinctIds u.issues →
      (∀ issue ∈ orderedIssues, issue ∈ u.issues ∧ issue.status = status) →
      ((orderedIssues.zipIdx n).foldl (fun u entry =>
        if entry.1.position ≠ entry.2 then u.change entry.1 entry.1.status entry.2 else u) u).issues =
        u.issues.map (placeFrom n (status, orderedIssues.map Issue.id)) from
    general 0 { issues } distinct within
  clear distinct within
  induction orderedIssues with
  | nil => exact fun n u _ _ => (List.map_id _).symm
  | cons issue ordered ih =>
      intro n u distinct within
      obtain ⟨new, once⟩ := List.nodup_cons.mp once
      obtain ⟨member, here⟩ := within issue List.mem_cons_self
      rw [List.zipIdx_cons, List.foldl_cons]
      have first : (if issue.position ≠ (n : Int) then u.change issue issue.status n else u).issues =
          u.issues.map (place issue.id status n) := by
        split
        · rw [here]
          rfl
        · next there =>
            exact (map_place_of_placed distinct member ⟨here, not_not.mp there⟩).symm
      have distinct' : DistinctIds
          (if issue.position ≠ (n : Int) then u.change issue issue.status n else u).issues := by
        rw [first]
        exact distinct.map (place_id issue.id status n)
      rw [ih once (n + 1) _ distinct' fun other inside => ?_, first, List.map_map]
      · exact List.map_congr_left fun other _ => placeFrom_cons other new
      · -- the others are as they were
        obtain ⟨old, status_⟩ := within other (.tail _ inside)
        refine ⟨?_, status_⟩
        rw [first]
        refine List.mem_map.mpr ⟨other, old, if_neg fun same => new ?_⟩
        exact same ▸ List.mem_map_of_mem (f := Issue.id) inside

end Updates

/-! ### The order of a column -/

/-- The ids of all issues of a status, ordered by position. -/
def columnOrder (issues : List Issue) (status : IssueStatus) : List Int :=
  (sortByPosition (filterByStatus issues status)).map Issue.id

/-- The lists after card `id` has been moved: each card is in one list, once, and the others are in the
list of their status, in its order. -/
structure Rearranged (issues : List Issue) (id : Int) (lists : Lists) : Prop where
  statuses : (lists.map Prod.fst).Nodup
  once : ∀ list ∈ lists, list.2.Nodup
  apart : lists.Pairwise fun a b => ∀ card ∈ a.2, card ∉ b.2
  others : ∀ list ∈ lists, (list.2.filter fun card => card != id).Sublist (columnOrder issues list.1)

/-- The issues of the column of a list that the list does not show. -/
def hiddenIssues (issues : List Issue) (list : IssueStatus × List Int) : List Issue :=
  issues.filter fun issue => issue.status == list.1 && !list.2.contains issue.id

/-- The hidden issue comes before the visible one when that one has a position. -/
def HiddenFirst (issues : List Issue) (hidden visible : Issue) (position : Int) : Prop :=
  hidden.position < position ∨ (hidden.position = position ∧ Before issues hidden visible)

/-- **No hidden issue changes sides** with a visible card of its column, other than the moved one. -/
def Undisturbed (issues : List Issue) (id : Int) (lists : Lists) : Prop :=
  ∀ list ∈ lists, ∀ hidden ∈ hiddenIssues issues list, hidden.id ≠ id →
    ∀ visible ∈ issues, visible.id ∈ list.2 → visible.id ≠ id →
      (HiddenFirst issues hidden visible (list.2.idxOf visible.id) ↔
        HiddenFirst issues hidden visible visible.position)

section Columns

variable {issues : List Issue} {id : Int} {lists : Lists} {issue : Issue} {status : IssueStatus}

theorem mem_columnOrder {card : Int} :
    card ∈ columnOrder issues status ↔ ∃ issue ∈ issues, issue.status = status ∧ issue.id = card := by
  unfold columnOrder sortByPosition filterByStatus
  simp only [List.mem_map, List.mem_insertionSort, List.mem_filter, beq_iff_eq, and_assoc]

theorem mem_hiddenIssues {list : IssueStatus × List Int} :
    issue ∈ hiddenIssues issues list ↔ issue ∈ issues ∧ issue.status = list.1 ∧ issue.id ∉ list.2 := by
  unfold hiddenIssues
  simp

theorem columnOrder_nodup (distinct : DistinctIds issues) : (columnOrder issues status).Nodup := by
  have perm : (columnOrder issues status).Perm ((filterByStatus issues status).map Issue.id) :=
    (List.perm_insertionSort _ _).map Issue.id
  exact perm.nodup_iff.mpr (distinct.sublist (List.Sublist.map _ List.filter_sublist))

/-- An issue in none of the lists. -/
theorem placed_of_not_mem (absent : ∀ list ∈ lists, issue.id ∉ list.2) : placed lists issue = issue := by
  unfold placed
  induction lists with
  | nil => rfl
  | cons list lists ih =>
      have here : placeFrom 0 list issue = issue := if_neg (absent list List.mem_cons_self)
      rw [List.foldl_cons, here]
      exact ih fun list member => absent list (.tail _ member)

/-- An issue in one of the lists. -/
theorem placed_of_mem (apart : lists.Pairwise fun a b => ∀ card ∈ a.2, card ∉ b.2)
    {list : IssueStatus × List Int} (member : list ∈ lists) (inside : issue.id ∈ list.2) :
    placed lists issue = { issue with status := list.1, position := list.2.idxOf issue.id } := by
  induction lists with
  | nil => exact absurd member List.not_mem_nil
  | cons first lists ih =>
      obtain ⟨apart, rest⟩ := List.pairwise_cons.mp apart
      show placed lists (placeFrom 0 first issue) = _
      rcases List.mem_cons.mp member with rfl | member
      · rw [placed_of_not_mem]
        · unfold placeFrom
          rw [if_pos inside, Nat.zero_add]
        · rw [placeFrom_id]
          exact fun other later => apart other later _ inside
      · have outside : issue.id ∉ first.2 := fun here => apart list member _ here inside
        rw [show placeFrom 0 first issue = issue from if_neg outside]
        exact ih rest member

/-- The order of a column after the issues have been changed. -/
theorem columnOrder_map {f : Issue → Issue} (keeps : ∀ issue, (f issue).id = issue.id) :
    columnOrder (issues.map f) status =
      (sortBy (fun issue => (f issue).position) (issues.filter fun issue => (f issue).status == status)).map
        Issue.id := by
  unfold columnOrder sortByPosition filterByStatus sortBy
  rw [List.filter_map, ← List.map_insertionSort (fun a b => (f a).position ≤ (f b).position)
    (fun a b => a.position ≤ b.position) f _ fun _ _ _ _ => Iff.rfl, List.map_map]
  exact List.map_congr_left fun issue _ => keeps issue

theorem columnOrder_eq : columnOrder issues status =
    (sortBy Issue.position (issues.filter fun issue => issue.status == status)).map Issue.id := rfl

theorem filter_map_id (l : List Issue) :
    (l.map Issue.id).filter (fun card => card != id) =
      (l.filter fun issue => issue.id != id).map Issue.id := by
  rw [List.filter_map]
  rfl

/-- Lists of issues are equal when their ids are. -/
theorem map_id_inj (distinct : DistinctIds issues) {l m : List Issue} (left : ∀ issue ∈ l, issue ∈ issues)
    (right : ∀ issue ∈ m, issue ∈ issues) : l.map Issue.id = m.map Issue.id ↔ l = m := by
  refine ⟨fun same => ?_, fun same => same ▸ rfl⟩
  induction l generalizing m with
  | nil => exact (List.map_eq_nil_iff.mp same.symm).symm
  | cons a l ih =>
      cases m with
      | nil => exact nomatch same
      | cons b m =>
          obtain ⟨first, rest⟩ := List.cons.inj same
          rw [distinct.eq a (left a List.mem_cons_self) b (right b List.mem_cons_self) first,
            ih (fun issue member => left issue (.tail _ member))
              (fun issue member => right issue (.tail _ member)) rest]

namespace Rearranged

variable (rearranged : Rearranged issues id lists)

include rearranged

/-- A card other than the moved one has the status of its list. -/
theorem status_of_card (distinct : DistinctIds issues) {list : IssueStatus × List Int}
    (member : list ∈ lists) (known : issue ∈ issues) (inside : issue.id ∈ list.2) (other : issue.id ≠ id) :
    issue.status = list.1 := by
  have kept : issue.id ∈ list.2.filter fun card => card != id :=
    List.mem_filter.mpr ⟨inside, bne_iff_ne.mpr other⟩
  obtain ⟨found, known', status, same⟩ := mem_columnOrder.mp ((rearranged.others list member).subset kept)
  rw [← distinct.eq found known' issue known same]
  exact status

/-- There is one list for each status. -/
theorem list_unique {a b : IssueStatus × List Int} (first : a ∈ lists) (second : b ∈ lists)
    (same : a.1 = b.1) : a = b :=
  List.inj_on_of_nodup_map rearranged.statuses first second same

/-- The issues that are not moved keep their status. -/
theorem placed_status (distinct : DistinctIds issues) (known : issue ∈ issues) (other : issue.id ≠ id) :
    (placed lists issue).status = issue.status := by
  by_cases shown : ∃ list ∈ lists, issue.id ∈ list.2
  · obtain ⟨list, member, inside⟩ := shown
    rw [placed_of_mem rearranged.apart member inside]
    exact (rearranged.status_of_card distinct member known inside other).symm
  · rw [placed_of_not_mem fun list member inside => shown ⟨list, member, inside⟩]

end Rearranged

/-- The issues of a status but one, in the order of `state.issues`. -/
def columnOthers (issues : List Issue) (id : Int) (status : IssueStatus) : List Issue :=
  (issues.filter fun issue => issue.status == status).filter fun issue => issue.id != id

theorem mem_columnOthers :
    issue ∈ columnOthers issues id status ↔ issue ∈ issues ∧ issue.status = status ∧ issue.id ≠ id := by
  unfold columnOthers
  rw [List.mem_filter, List.mem_filter, bne_iff_ne, beq_iff_eq, and_assoc]

theorem columnOthers_nodup (distinct : DistinctIds issues) : (columnOthers issues id status).Nodup :=
  ((List.Nodup.of_map _ distinct).filter _).filter _

theorem before_columnOthers {a b : Issue} (first : a ∈ columnOthers issues id status)
    (second : b ∈ columnOthers issues id status) :
    Before (columnOthers issues id status) a b ↔ Before issues a b := by
  obtain ⟨_, hereFirst, otherFirst⟩ := mem_columnOthers.mp first
  obtain ⟨_, hereSecond, otherSecond⟩ := mem_columnOthers.mp second
  unfold columnOthers
  rw [before_filter (p := fun issue : Issue => issue.id != id) (bne_iff_ne.mpr otherFirst)
      (bne_iff_ne.mpr otherSecond),
    before_filter (p := fun issue : Issue => issue.status == status) (beq_iff_eq.mpr hereFirst)
      (beq_iff_eq.mpr hereSecond)]

/-- The order of a column without one issue. -/
theorem columnOrder_others : (columnOrder issues status).filter (fun card => card != id) =
    (sortBy Issue.position (columnOthers issues id status)).map Issue.id := by
  rw [columnOrder_eq, filter_map_id, filter_sortBy]
  rfl

/-- The same after the cards have been placed. -/
theorem columnOrder_placed (distinct : DistinctIds issues) (rearranged : Rearranged issues id lists) :
    (columnOrder (issues.map (placed lists)) status).filter (fun card => card != id) =
      (sortBy (fun issue => (placed lists issue).position) (columnOthers issues id status)).map Issue.id := by
  rw [columnOrder_map (placed_id lists), filter_map_id, filter_sortBy]
  have same : (issues.filter fun issue => (placed lists issue).status == status).filter
      (fun issue => issue.id != id) = columnOthers issues id status := by
    unfold columnOthers
    rw [List.filter_filter, List.filter_filter]
    refine List.filter_congr fun issue known => ?_
    by_cases moved : issue.id = id
    · simp [moved]
    · rw [rearranged.placed_status distinct known moved]
  rw [same]

/-- The cards of a list are in the order of their column. -/
theorem Rearranged.idxOf_lt_iff (rearranged : Rearranged issues id lists) (distinct : DistinctIds issues)
    {list : IssueStatus × List Int} (member : list ∈ lists) {a b : Issue}
    (first : a ∈ columnOthers issues id list.1) (second : b ∈ columnOthers issues id list.1)
    (left : a.id ∈ list.2) (right : b.id ∈ list.2) :
    list.2.idxOf a.id < list.2.idxOf b.id ↔
      Precedes Issue.position (columnOthers issues id list.1) a b := by
  obtain ⟨_, _, otherFirst⟩ := mem_columnOthers.mp first
  obtain ⟨_, _, otherSecond⟩ := mem_columnOthers.mp second
  have keptFirst : a.id ∈ list.2.filter fun card => card != id :=
    List.mem_filter.mpr ⟨left, bne_iff_ne.mpr otherFirst⟩
  have keptSecond : b.id ∈ list.2.filter fun card => card != id :=
    List.mem_filter.mpr ⟨right, bne_iff_ne.mpr otherSecond⟩
  have injective : ∀ c ∈ sortBy Issue.position (columnOthers issues id list.1),
      ∀ d ∈ sortBy Issue.position (columnOthers issues id list.1), c.id = d.id → c = d :=
    fun c hc d hd => distinct.eq c (mem_columnOthers.mp ((perm_sortBy _ _).mem_iff.mp hc)).1
      d (mem_columnOthers.mp ((perm_sortBy _ _).mem_iff.mp hd)).1
  have kept : (list.2.filter fun card => card != id).Sublist
      ((columnOrder issues list.1).filter fun card => card != id) := by
    have filtered := (rearranged.others list member).filter fun card => card != id
    rwa [List.filter_filter, List.filter_congr (q := fun card => card != id) fun _ _ => Bool.and_self _]
      at filtered
  calc list.2.idxOf a.id < list.2.idxOf b.id
    _ ↔ Before (list.2.filter fun card => card != id) a.id b.id :=
        (before_filter (p := fun card => card != id) (bne_iff_ne.mpr otherFirst)
          (bne_iff_ne.mpr otherSecond)).symm
    _ ↔ Before ((columnOrder issues list.1).filter fun card => card != id) a.id b.id :=
        before_sublist kept ((columnOrder_nodup distinct).filter _) keptFirst keptSecond
    _ ↔ Before (sortBy Issue.position (columnOthers issues id list.1)) a b := by
        rw [columnOrder_others]
        exact before_map injective ((perm_sortBy _ _).mem_iff.mpr first)
          ((perm_sortBy _ _).mem_iff.mpr second)
    _ ↔ _ := before_sortBy first second

/-- **One column**: the others keep their order exactly if no hidden one changes sides. -/
theorem column_keeps_iff (distinct : DistinctIds issues) (rearranged : Rearranged issues id lists) :
    (columnOrder (issues.map (placed lists)) status).filter (fun card => card != id) =
        (columnOrder issues status).filter (fun card => card != id) ↔
      ∀ list ∈ lists, list.1 = status → ∀ hidden ∈ hiddenIssues issues list, hidden.id ≠ id →
        ∀ visible ∈ issues, visible.id ∈ list.2 → visible.id ≠ id →
          (HiddenFirst issues hidden visible (list.2.idxOf visible.id) ↔
            HiddenFirst issues hidden visible visible.position) := by
  have within : ∀ key : Issue → Int, ∀ issue ∈ sortBy key (columnOthers issues id status), issue ∈ issues :=
    fun key issue inside => (mem_columnOthers.mp ((perm_sortBy key _).mem_iff.mp inside)).1
  -- a card of the column is in the list of the column
  have own : ∀ issue ∈ columnOthers issues id status, ∀ list ∈ lists, issue.id ∈ list.2 →
      list.1 = status := by
    intro issue inside list member shown
    obtain ⟨known, here, other⟩ := mem_columnOthers.mp inside
    exact (rearranged.status_of_card distinct member known shown other).symm.trans here
  rw [columnOrder_placed distinct rearranged, columnOrder_others,
    map_id_inj distinct (within _) (within _),
    sortBy_renumbered_iff (columnOthers_nodup distinct)
      (fun issue => Lists.hasCard lists issue.id) ?hidden ?ordered]
  case hidden =>
    intro issue _ absent
    rw [placed_of_not_mem fun list member inside => ?_]
    refine Bool.eq_false_iff.mp absent (List.any_eq_true.mpr ⟨list, member, ?_⟩)
    exact List.contains_iff_mem.mpr inside
  case ordered =>
    intro a first b second left right
    obtain ⟨list, member, left⟩ := List.any_eq_true.mp left
    obtain ⟨list', member', right⟩ := List.any_eq_true.mp right
    have left := List.contains_iff_mem.mp left
    have right := List.contains_iff_mem.mp right
    obtain rfl := own a first list member left
    obtain rfl := rearranged.list_unique member member' (own b second list' member' right).symm
    rw [placed_of_mem rearranged.apart member left, placed_of_mem rearranged.apart member right,
      ← rearranged.idxOf_lt_iff distinct member first second left right]
    exact Nat.cast_lt
  constructor
  · rintro agree list member rfl hidden concealed other visible known' inside other'
    obtain ⟨known, here, absent⟩ := mem_hiddenIssues.mp concealed
    have place := rearranged.status_of_card distinct member known' inside other'
    have first := mem_columnOthers.mpr ⟨known, here, other⟩
    have second := mem_columnOthers.mpr ⟨known', place, other'⟩
    have nowhere : ∀ list' ∈ lists, hidden.id ∉ list'.2 := fun list' member' shown =>
      absent (rearranged.list_unique member' member (own hidden first list' member' shown) ▸ shown)
    have same := agree hidden first visible second
      (List.any_eq_false.mpr fun list' member' shown => nowhere list' member' (List.contains_iff_mem.mp shown))
      (List.any_eq_true.mpr ⟨list, member, List.contains_iff_mem.mpr inside⟩)
    unfold Precedes at same
    simp only [placed_of_not_mem nowhere, placed_of_mem rearranged.apart member inside] at same
    rwa [before_columnOthers first second] at same
  · intro agree hidden first visible second absent shown
    obtain ⟨list, member, inside⟩ := List.any_eq_true.mp shown
    have inside := List.contains_iff_mem.mp inside
    have nowhere : ∀ list' ∈ lists, hidden.id ∉ list'.2 := fun list' member' found =>
      List.any_eq_false.mp absent list' member' (List.contains_iff_mem.mpr found)
    obtain ⟨known, here, other⟩ := mem_columnOthers.mp first
    obtain ⟨known', _, other'⟩ := mem_columnOthers.mp second
    have place := own visible second list member inside
    have concealed := mem_hiddenIssues.mpr ⟨known, here.trans place.symm, nowhere list member⟩
    have same := agree list member place hidden concealed other visible known' inside other'
    unfold Precedes
    simp only [placed_of_not_mem nowhere, placed_of_mem rearranged.apart member inside]
    rwa [before_columnOthers first second]

/-- **The order of the others**: it stays as it was, in every column, exactly if no hidden issue changes
sides. -/
theorem placed_keeps_iff (distinct : DistinctIds issues) (rearranged : Rearranged issues id lists) :
    (∀ status, (columnOrder (issues.map (placed lists)) status).filter (fun card => card != id) =
        (columnOrder issues status).filter fun card => card != id) ↔ Undisturbed issues id lists := by
  constructor
  · exact fun keeps list member =>
      (column_keeps_iff distinct rearranged).mp (keeps list.1) list member rfl
  · exact fun undisturbed status =>
      (column_keeps_iff distinct rearranged).mpr fun list member _ => undisturbed list member

/-- The issues of a column after the cards of its list have been placed. -/
def columnAfter (issues : List Issue) (list : IssueStatus × List Int) : List Issue :=
  issues.filter fun issue => (placed [list] issue).status == list.1

section Ends

variable {list : IssueStatus × List Int} {moved : Issue}

theorem placed_single (inside : issue.id ∈ list.2) :
    placed [list] issue = { issue with status := list.1, position := list.2.idxOf issue.id } :=
  placed_of_mem (List.pairwise_singleton _ list) List.mem_cons_self inside

theorem placed_hidden (hidden : issue ∈ hiddenIssues issues list) : placed [list] issue = issue :=
  placed_of_not_mem fun _ member =>
    List.mem_singleton.mp member ▸ (mem_hiddenIssues.mp hidden).2.2

theorem mem_columnAfter : issue ∈ columnAfter issues list ↔
    (issue ∈ issues ∧ issue.id ∈ list.2) ∨ issue ∈ hiddenIssues issues list := by
  rw [mem_hiddenIssues]
  unfold columnAfter
  rw [List.mem_filter, beq_iff_eq]
  by_cases inside : issue.id ∈ list.2
  · simp [placed_single inside, inside]
  · have outside : placed [list] issue = issue :=
      placed_of_not_mem fun _ member => List.mem_singleton.mp member ▸ inside
    simp [outside, inside]

/-- A hidden issue and the moved one in their column. -/
theorem hidden_precedes_iff {hidden : Issue} (concealed : hidden ∈ hiddenIssues issues list)
    (known : moved ∈ issues) (inside : moved.id ∈ list.2) :
    Precedes (fun issue => (placed [list] issue).position) (columnAfter issues list) hidden moved ↔
      HiddenFirst issues hidden moved (list.2.idxOf moved.id) := by
  have first := (List.mem_filter.mp (mem_columnAfter.mpr (.inr concealed))).2
  have second := (List.mem_filter.mp (mem_columnAfter.mpr (.inl ⟨known, inside⟩))).2
  unfold Precedes HiddenFirst
  simp only [placed_hidden concealed, placed_single inside]
  unfold columnAfter
  rw [before_filter (p := fun issue : Issue => (placed [list] issue).status == list.1) first second]

/-- The column as the placed issues have it. -/
theorem columnOrder_after : columnOrder (issues.map (placed [list])) list.1 =
    (sortBy (fun issue => (placed [list] issue).position) (columnAfter issues list)).map Issue.id :=
  columnOrder_map (placed_id [list])

/-- The moved issue is in the column of its list only. -/
theorem status_of_moved (distinct : DistinctIds issues) (known : moved ∈ issues)
    (inside : moved.id ∈ list.2) (member : moved.id ∈ columnOrder (issues.map (placed [list])) status) :
    status = list.1 := by
  obtain ⟨found, placed_, here, same⟩ := mem_columnOrder.mp member
  obtain ⟨old, known', rfl⟩ := List.mem_map.mp placed_
  rw [placed_id] at same
  rw [distinct.eq old known' moved known same, placed_single inside] at here
  exact here.symm

theorem mem_of_moved {card : Issue} (inside : card ∈ columnAfter issues list) : card ∈ issues :=
  (List.mem_filter.mp inside).1

/-- The sorted column and its ids have the same ends. -/
theorem end_of_map (distinct : DistinctIds issues) (known : moved ∈ issues) {chosen : Option Issue}
    (within : ∀ card ∈ chosen, card ∈ issues) :
    chosen.map Issue.id = some moved.id ↔ chosen = some moved := by
  refine ⟨fun same => ?_, fun same => same ▸ rfl⟩
  obtain ⟨found, rfl, matched⟩ := Option.map_eq_some_iff.mp same
  rw [distinct.eq found (within found rfl) moved known matched]

/-- **Moved to the top**: the card is the first of its column exactly if no hidden issue comes before it at
the position 0. -/
theorem first_iff (list : IssueStatus × List Int) (distinct : DistinctIds issues) (known : moved ∈ issues)
    {others : List Int} (shown : list.2 = moved.id :: others) :
    (∃ status, (columnOrder (issues.map (placed [list])) status).head? = some moved.id) ↔
      ∀ hidden ∈ hiddenIssues issues list, ¬ HiddenFirst issues hidden moved 0 := by
  have inside : moved.id ∈ list.2 := shown ▸ List.mem_cons_self
  have here := mem_columnAfter.mpr (.inl ⟨known, inside⟩)
  have zero : list.2.idxOf moved.id = 0 := by rw [shown, List.idxOf_cons_self]
  have own : (∃ status, (columnOrder (issues.map (placed [list])) status).head? = some moved.id) ↔
      (columnOrder (issues.map (placed [list])) list.1).head? = some moved.id := by
    refine ⟨fun ⟨status, first⟩ => ?_, fun first => ⟨list.1, first⟩⟩
    rwa [← status_of_moved distinct known inside (List.mem_of_mem_head? first)]
  rw [own, columnOrder_after, List.head?_map,
    end_of_map distinct known fun card first =>
      mem_of_moved ((perm_sortBy _ _).mem_iff.mp (List.mem_of_mem_head? first)),
    head?_sortBy here]
  constructor
  · intro least hidden concealed before
    have differ : hidden ≠ moved := fun same => (mem_hiddenIssues.mp concealed).2.2 (same ▸ inside)
    refine (least hidden (mem_columnAfter.mpr (.inr concealed)) differ).asymm ?_
    rw [hidden_precedes_iff concealed known inside, zero]
    exact before
  · intro ahead card member differ
    rcases mem_columnAfter.mp member with ⟨known', visible⟩ | concealed
    · -- the other cards of the list have later places
      refine .inl ?_
      simp only [placed_single inside, placed_single visible, zero]
      have later : list.2.idxOf card.id ≠ 0 := fun start =>
        differ (distinct.eq card known' moved known ((List.idxOf_inj visible).mp (start.trans zero.symm)))
      exact Nat.cast_lt.mpr (Nat.pos_of_ne_zero later)
    · refine (precedes_total _ here (Ne.symm differ)).resolve_right fun before => ?_
      rw [hidden_precedes_iff concealed known inside, zero] at before
      exact ahead card concealed before

/-- **Moved to the bottom**: the card is the last of its column exactly if every hidden issue comes before
it at the last position. -/
theorem last_iff (list : IssueStatus × List Int) (distinct : DistinctIds issues) (known : moved ∈ issues)
    {others : List Int} (shown : list.2 = others ++ [moved.id]) (new : moved.id ∉ others) :
    (∃ status, (columnOrder (issues.map (placed [list])) status).getLast? = some moved.id) ↔
      ∀ hidden ∈ hiddenIssues issues list, HiddenFirst issues hidden moved others.length := by
  have inside : moved.id ∈ list.2 := shown ▸ List.mem_append_right _ List.mem_cons_self
  have here := mem_columnAfter.mpr (.inl ⟨known, inside⟩)
  have last : list.2.idxOf moved.id = others.length := by
    rw [shown, List.idxOf_append_of_notMem new, List.idxOf_cons_self, Nat.add_zero]
  have own : (∃ status, (columnOrder (issues.map (placed [list])) status).getLast? = some moved.id) ↔
      (columnOrder (issues.map (placed [list])) list.1).getLast? = some moved.id := by
    refine ⟨fun ⟨status, final⟩ => ?_, fun final => ⟨list.1, final⟩⟩
    rwa [← status_of_moved distinct known inside (List.mem_of_mem_getLast? final)]
  have nodup : (columnAfter issues list).Nodup := (List.Nodup.of_map _ distinct).filter _
  rw [own, columnOrder_after, List.getLast?_map,
    end_of_map distinct known fun card final =>
      mem_of_moved ((perm_sortBy _ _).mem_iff.mp (List.mem_of_mem_getLast? final)),
    getLast?_sortBy nodup here]
  constructor
  · intro greatest hidden concealed
    have differ : hidden ≠ moved := fun same => (mem_hiddenIssues.mp concealed).2.2 (same ▸ inside)
    have before := greatest hidden (mem_columnAfter.mpr (.inr concealed)) differ
    rwa [hidden_precedes_iff concealed known inside, last] at before
  · intro behind card member differ
    rcases mem_columnAfter.mp member with ⟨known', visible⟩ | concealed
    · -- the other cards of the list have earlier places
      refine .inl ?_
      simp only [placed_single inside, placed_single visible, last]
      have other : card.id ≠ moved.id := fun same => differ (distinct.eq card known' moved known same)
      have within : card.id ∈ others := by
        rw [shown] at visible
        exact (List.mem_append.mp visible).resolve_right fun single => other (List.mem_singleton.mp single)
      rw [shown, List.idxOf_append_of_mem within]
      exact Nat.cast_lt.mpr (List.idxOf_lt_length_of_mem within)
    · rw [hidden_precedes_iff concealed known inside, last]
      exact behind card concealed

end Ends

end Columns

/-! ### The lists of a reorder -/

/-- The list of Move to top, and of Move to bottom. -/
def topList (issue : Issue) (list : List Issue) : IssueStatus × List Int :=
  (issue.status, issue.id :: (list.map Issue.id).filter fun card => card != issue.id)

def bottomList (issue : Issue) (list : List Issue) : IssueStatus × List Int :=
  (issue.status, ((list.map Issue.id).filter fun card => card != issue.id) ++ [issue.id])

/-- The lists that a reorder numbers: those of its view after the drop, or the one of the moved card. -/
def Reorder.lists (view : View) (issues : List Issue) : Reorder → Lists
  | .boardDrop id target index => drop (view.renderBoard issues) id target index
  | .backlogDrop id target index => drop (view.renderBacklog issues) id target index
  | .boardTop id => ((view.boardIssue issues id).map fun issue =>
      topList issue (columnIssues issues issue.status)).toList
  | .boardBottom id => ((view.boardIssue issues id).map fun issue =>
      bottomList issue (columnIssues issues issue.status)).toList
  | .backlogTop id => ((view.backlogIssue issues id).map fun issue =>
      topList issue (view.backlogIssues issues issue.status)).toList
  | .backlogBottom id => ((view.backlogIssue issues id).map fun issue =>
      bottomList issue (view.backlogIssues issues issue.status)).toList

/-- The lists of a view: for each status at most one, with cards of its column in their order. -/
structure Rendered (issues : List Issue) (lists : Lists) : Prop where
  statuses : (lists.map Prod.fst).Nodup
  cards : ∀ list ∈ lists, list.2.Sublist (columnOrder issues list.1)

section Views

variable {issues : List Issue} {view : View} {id : Int} {issue : Issue}

theorem getBoardColumns_nodup (statusConfig : Option StatusConfig) :
    (getBoardColumns statusConfig).Nodup := by
  have all : [IssueStatus.todo, .stage1, .stage2, .stage3, .stage4, .done].Nodup := by decide
  refine all.sublist ?_
  unfold getBoardColumns
  exact ((List.filter_sublist.map Prod.snd).append (List.Sublist.refl [IssueStatus.done])).cons_cons .todo

/-- Some of the sorted issues of a status. -/
theorem cards_sublist (status : IssueStatus) (kept : Issue → Bool) :
    ((sortByPosition ((issues.filter kept).filter fun issue => issue.status == status)).map Issue.id).Sublist
      (columnOrder issues status) := by
  have swapped : (issues.filter kept).filter (fun issue => issue.status == status) =
      (issues.filter fun issue => issue.status == status).filter kept := by
    rw [List.filter_filter, List.filter_filter]
    exact List.filter_congr fun _ _ => Bool.and_comm _ _
  unfold columnOrder sortByPosition filterByStatus
  rw [swapped, ← filter_insertionSort]
  exact List.filter_sublist.map Issue.id

theorem renderBoard_rendered (view : View) (issues : List Issue) :
    Rendered issues (view.renderBoard issues) := by
  unfold View.renderBoard
  constructor
  · rw [List.map_map]
    exact (List.map_id _).symm ▸ getBoardColumns_nodup view.statusConfig
  · intro list member
    obtain ⟨column, _, rfl⟩ := List.mem_map.mp member
    unfold View.filterIssues
    rw [filterIssues_eq, List.filter_filter]
    unfold sortByPosition
    rw [filter_insertionSort]
    exact cards_sublist column _

theorem backlogIssues_eq (view : View) (issues : List Issue) (status : IssueStatus) :
    view.backlogIssues issues status =
    sortByPosition ((issues.filter (passes view.toLowerCase view.filter view.currentUserId)).filter
      fun issue => issue.status == status) := by
  unfold View.backlogIssues View.filterIssues filterByStatus
  rw [filterIssues_eq]

theorem renderBacklog_rendered (view : View) (issues : List Issue) :
    Rendered issues (view.renderBacklog issues) := by
  unfold View.renderBacklog
  constructor
  · exact (by decide : [IssueStatus.open, IssueStatus.todo].Nodup)
  · intro list member
    rcases List.mem_pair.mp member with rfl | rfl
    · exact backlogIssues_eq view issues .open ▸ cards_sublist .open _
    · exact backlogIssues_eq view issues .todo ▸ cards_sublist .todo _

/-- Cards of a column are cards of one column only. -/
theorem column_unique (distinct : DistinctIds issues) {a b : IssueStatus} {card : Int}
    (first : card ∈ columnOrder issues a) (second : card ∈ columnOrder issues b) : a = b := by
  obtain ⟨one, known, rfl, rfl⟩ := mem_columnOrder.mp first
  obtain ⟨two, known', rfl, same⟩ := mem_columnOrder.mp second
  rw [distinct.eq two known' one known same]

/-- The moved card in one list, the others as they were. -/
theorem rearranged_of (distinct : DistinctIds issues) {lists : Lists} (target : IssueStatus)
    (statuses : (lists.map Prod.fst).Nodup) (once : ∀ list ∈ lists, list.2.Nodup)
    (home : ∀ list ∈ lists, id ∈ list.2 → list.1 = target)
    (others : ∀ list ∈ lists, (list.2.filter fun card => card != id).Sublist (columnOrder issues list.1)) :
    Rearranged issues id lists := by
  refine ⟨statuses, once, ?_, others⟩
  refine (List.pairwise_map.mp statuses).imp_of_mem fun {a b} first second differ card left right => ?_
  by_cases moved : card = id
  · subst moved
    exact differ ((home a first left).trans (home b second right).symm)
  · have kept : ∀ list ∈ lists, card ∈ list.2 → card ∈ columnOrder issues list.1 :=
      fun list member inside =>
        (others list member).subset (List.mem_filter.mpr ⟨inside, bne_iff_ne.mpr moved⟩)
    exact differ (column_unique distinct (kept a first left) (kept b second right))

/-- **A drop** rearranges the lists of a view. -/
theorem drop_rearranged (distinct : DistinctIds issues) {lists : Lists} (rendered : Rendered issues lists)
    (id : Int) (target : IssueStatus) (index : Nat) : Rearranged issues id (drop lists id target index) := by
  have absent : ∀ cards : List Int, id ∉ cards.filter fun card => card != id :=
    fun cards inside => bne_iff_ne.mp (List.mem_filter.mp inside).2 rfl
  refine rearranged_of distinct target ?_ ?_ ?_ ?_
  · unfold drop
    rw [List.map_map]
    exact rendered.statuses
  · intro list member
    obtain ⟨list, known, rfl⟩ := List.mem_map.mp member
    have once : (list.2.filter fun card => card != id).Nodup :=
      ((columnOrder_nodup distinct).sublist (rendered.cards list known)).filter _
    simp only
    split
    · rw [List.nodup_middle, List.take_append_drop]
      exact List.nodup_cons.mpr ⟨absent list.2, once⟩
    · exact once
  · intro list member inside
    obtain ⟨list, known, rfl⟩ := List.mem_map.mp member
    by_contra elsewhere
    simp only at inside elsewhere
    rw [if_neg elsewhere] at inside
    exact absent list.2 inside
  · intro list member
    obtain ⟨list, known, rfl⟩ := List.mem_map.mp member
    have kept : (list.2.filter fun card => card != id).Sublist (columnOrder issues list.1) :=
      List.filter_sublist.trans (rendered.cards list known)
    simp only
    split
    · have gone : ¬ (id != id) = true := fun other => bne_iff_ne.mp other rfl
      rw [List.filter_append, List.filter_cons_of_neg (p := fun card => card != id) gone,
        ← List.filter_append, List.take_append_drop]
      exact List.filter_sublist.trans kept
    · exact List.filter_sublist.trans kept

/-- The cards of a list that Move to top and Move to bottom are given. -/
theorem single_rearranged (distinct : DistinctIds issues) {status : IssueStatus} {cards ordered : List Int}
    (within : cards.Sublist (columnOrder issues status))
    (same : ordered.Perm (id :: cards.filter fun card => card != id))
    (others : ordered.filter (fun card => card != id) = cards.filter fun card => card != id) :
    Rearranged issues id [(status, ordered)] := by
  have absent : id ∉ cards.filter fun card => card != id :=
    fun inside => bne_iff_ne.mp (List.mem_filter.mp inside).2 rfl
  refine rearranged_of distinct status (List.nodup_singleton _) ?_ ?_ ?_
  · intro list member
    rw [List.mem_singleton.mp member]
    exact same.nodup_iff.mpr (List.nodup_cons.mpr
      ⟨absent, ((columnOrder_nodup distinct).sublist within).filter _⟩)
  · intro list member _
    rw [List.mem_singleton.mp member]
  · intro list member
    rw [List.mem_singleton.mp member]
    show (ordered.filter fun card => card != id).Sublist _
    rw [others]
    exact List.filter_sublist.trans within

/-- The list that Move to top and Move to bottom are given: cards of the issue's column, the issue among
them. -/
structure Given (issues : List Issue) (issue : Issue) (list : List Issue) : Prop where
  member : issue ∈ list
  within : ∀ other ∈ list, other ∈ issues ∧ other.status = issue.status
  cards : (list.map Issue.id).Sublist (columnOrder issues issue.status)

section Given

variable {list : List Issue} (given : Given issues issue list) (distinct : DistinctIds issues)

include given distinct

theorem Given.ids_distinct : DistinctIds list := (columnOrder_nodup distinct).sublist given.cards

omit distinct in
theorem Given.only (short : list.length ≤ 1) : list = [issue] := by
  have single : list.length = 1 := le_antisymm short (List.length_pos_of_mem given.member)
  obtain ⟨only, rfl⟩ := List.length_eq_one_iff.mp single
  rw [List.mem_singleton.mp given.member]

omit distinct in
/-- A list with one card only has it at both ends. -/
theorem Given.length_of_head (other : list.head?.map Issue.id ≠ some issue.id) : ¬ list.length ≤ 1 := by
  intro short
  obtain rfl := given.only short
  exact other rfl

omit distinct in
theorem Given.length_of_last (other : list.getLast?.map Issue.id ≠ some issue.id) : ¬ list.length ≤ 1 := by
  intro short
  obtain rfl := given.only short
  exact other rfl

theorem Given.others_distinct :
    DistinctIds (list.filter fun other => other.id != issue.id) ∧
      issue.id ∉ (list.filter fun other => other.id != issue.id).map Issue.id := by
  refine ⟨(given.ids_distinct distinct).sublist (List.filter_sublist.map Issue.id), fun inside => ?_⟩
  obtain ⟨other, kept, same⟩ := List.mem_map.mp inside
  exact bne_iff_ne.mp (List.mem_filter.mp kept).2 same

theorem moveTop_issues {u : Updates} (ran : moveTop issues issue list = some u) :
    u.issues = issues.map (placed [topList issue list]) := by
  unfold moveTop at ran
  split at ran
  · exact nomatch ran
  · next other =>
      obtain rfl := Option.some.inj ran
      obtain ⟨once, new⟩ := given.others_distinct distinct
      have all : DistinctIds (issue :: list.filter fun other => other.id != issue.id) :=
        List.nodup_cons.mpr ⟨new, once⟩
      have column : ∀ card ∈ issue :: list.filter fun other => other.id != issue.id,
          card ∈ issues ∧ card.status = issue.status := by
        intro card member
        rcases List.mem_cons.mp member with rfl | member
        · exact given.within card given.member
        · exact given.within card (List.mem_filter.mp member).1
      unfold handleMoveTop
      rw [if_neg (not_or.mpr ⟨given.length_of_head other, other⟩),
        updatePositions_issues distinct all column, List.map_cons, ← filter_map_id]
      rfl

theorem moveBottom_issues {u : Updates} (ran : moveBottom issues issue list = some u) :
    u.issues = issues.map (placed [bottomList issue list]) := by
  unfold moveBottom at ran
  split at ran
  · exact nomatch ran
  · next other =>
      obtain rfl := Option.some.inj ran
      obtain ⟨once, new⟩ := given.others_distinct distinct
      have all : DistinctIds ((list.filter fun other => other.id != issue.id) ++ [issue]) := by
        unfold DistinctIds
        rw [List.map_append]
        exact List.Nodup.append once (List.nodup_singleton _)
          fun card inside single => new (List.mem_singleton.mp single ▸ inside)
      have column : ∀ card ∈ (list.filter fun other => other.id != issue.id) ++ [issue],
          card ∈ issues ∧ card.status = issue.status := by
        intro card member
        rcases List.mem_append.mp member with member | member
        · exact given.within card (List.mem_filter.mp member).1
        · exact List.mem_singleton.mp member ▸ given.within issue given.member
      unfold handleMoveBottom
      rw [if_neg (not_or.mpr ⟨given.length_of_last other, other⟩),
        updatePositions_issues distinct all column, List.map_append, ← filter_map_id]
      rfl

theorem Given.top_rearranged : Rearranged issues issue.id [topList issue list] := by
  refine single_rearranged distinct given.cards (List.Perm.refl _) ?_
  rw [List.filter_cons_of_neg (p := fun card => card != issue.id) fun other => bne_iff_ne.mp other rfl,
    List.filter_filter]
  exact List.filter_congr fun _ _ => Bool.and_self _

theorem Given.bottom_rearranged : Rearranged issues issue.id [bottomList issue list] := by
  refine single_rearranged distinct given.cards List.perm_append_comm ?_
  rw [List.filter_append, List.filter_filter,
    List.filter_cons_of_neg (p := fun card => card != issue.id) fun other => bne_iff_ne.mp other rfl,
    List.filter_nil, List.append_nil]
  exact List.filter_congr fun _ _ => Bool.and_self _

end Given

theorem given_of_sorted {status : IssueStatus} {kept : Issue → Bool}
    (member : issue ∈ (issues.filter kept).filter fun issue => issue.status == status) :
    Given issues issue
      (sortByPosition ((issues.filter kept).filter fun other => other.status == issue.status)) := by
  obtain ⟨known, here⟩ := List.mem_filter.mp member
  refine ⟨?_, fun other inside => ?_, cards_sublist issue.status kept⟩
  · exact (List.perm_insertionSort _ _).mem_iff.mpr (List.mem_filter.mpr ⟨known, beq_self_eq_true _⟩)
  · obtain ⟨inside, same⟩ := List.mem_filter.mp ((List.perm_insertionSort _ _).mem_iff.mp inside)
    exact ⟨(List.mem_filter.mp inside).1, beq_iff_eq.mp same⟩

/-- A card of the board belongs to an issue of the column that is passed on. -/
theorem boardIssue_given (distinct : DistinctIds issues) (found : view.boardIssue issues id = some issue) :
    issue.id = id ∧ Given issues issue (columnIssues issues issue.status) := by
  obtain ⟨chosen, shown⟩ := Option.filter_eq_some_iff.mp found
  have known := List.mem_of_find?_eq_some chosen
  obtain rfl := found_id chosen
  refine ⟨rfl, ?_⟩
  obtain ⟨list, member, inside⟩ := List.any_eq_true.mp shown
  obtain ⟨column, _, rfl⟩ := List.mem_map.mp member
  obtain ⟨other, sorted, same⟩ := List.mem_map.mp (List.contains_iff_mem.mp inside)
  obtain ⟨sorted, here⟩ := List.mem_filter.mp sorted
  have passed := (List.perm_insertionSort _ _).mem_iff.mp sorted
  unfold View.filterIssues at passed
  rw [filterIssues_eq] at passed
  have remaining := (List.mem_filter.mp passed).1
  obtain rfl := distinct.eq other (List.mem_filter.mp remaining).1 issue known same
  exact given_of_sorted (List.mem_filter.mpr ⟨remaining, here⟩)

/-- A card of the backlog belongs to an issue of its filtered list. -/
theorem backlogIssue_given (distinct : DistinctIds issues)
    (found : view.backlogIssue issues id = some issue) :
    issue.id = id ∧ Given issues issue (view.backlogIssues issues issue.status) := by
  obtain ⟨chosen, shown⟩ := Option.filter_eq_some_iff.mp found
  have known := List.mem_of_find?_eq_some chosen
  obtain rfl := found_id chosen
  refine ⟨rfl, ?_⟩
  obtain ⟨list, member, inside⟩ := List.any_eq_true.mp shown
  have listed : ∃ status, issue.id ∈ (view.backlogIssues issues status).map Issue.id := by
    rcases List.mem_pair.mp member with rfl | rfl
    · exact ⟨.open, List.contains_iff_mem.mp inside⟩
    · exact ⟨.todo, List.contains_iff_mem.mp inside⟩
  obtain ⟨status, listed⟩ := listed
  rw [backlogIssues_eq] at listed
  obtain ⟨other, sorted, same⟩ := List.mem_map.mp listed
  have passed := (List.perm_insertionSort _ _).mem_iff.mp sorted
  have remaining := (List.mem_filter.mp passed).1
  obtain rfl := distinct.eq other (List.mem_filter.mp remaining).1 issue known same
  rw [backlogIssues_eq]
  exact given_of_sorted passed

end Views

/-! ### Only one card moves -/

/-- The order of every column, taken over all issues, is as it was apart from one issue. -/
structure MovesOnly (issues after : List Issue) (id : Int) : Prop where
  order : ∀ status, (columnOrder after status).filter (fun card => card != id) =
    (columnOrder issues status).filter fun card => card != id
  columns : ∀ status, id ∉ columnOrder issues status → id ∉ columnOrder after status →
    columnOrder after status = columnOrder issues status

/-- Move to top makes the card the first of its full column, and Move to bottom the last. -/
def Reorder.Arrives (after : List Issue) : Reorder → Prop
  | .boardDrop _ _ _ | .backlogDrop _ _ _ => True
  | .boardTop id | .backlogTop id => ∃ status, (columnOrder after status).head? = some id
  | .boardBottom id | .backlogBottom id => ∃ status, (columnOrder after status).getLast? = some id

/-- The hidden issues do not stand in the way of the moved one: none comes before the position 0, all come
before the last one. -/
def Reorder.Unobstructed (issues : List Issue) (lists : Lists) : Reorder → Prop
  | .boardDrop _ _ _ | .backlogDrop _ _ _ => True
  | .boardTop id | .backlogTop id => ∀ list ∈ lists, ∀ hidden ∈ hiddenIssues issues list,
      ∀ moved ∈ issues, moved.id = id → ¬ HiddenFirst issues hidden moved 0
  | .boardBottom id | .backlogBottom id => ∀ list ∈ lists, ∀ hidden ∈ hiddenIssues issues list,
      ∀ moved ∈ issues, moved.id = id → HiddenFirst issues hidden moved (list.2.length - 1 : Nat)

/-- The reorder moves its card only, and Move to top and Move to bottom reach their end. -/
structure Reorder.Done (issues after : List Issue) (reorder : Reorder) : Prop where
  alone : MovesOnly issues after reorder.id
  arrives : reorder.Arrives after

/-- Every hidden issue stays on its side of every visible one, and of the moved one where that goes to an
end. -/
structure Reorder.Safe (view : View) (issues : List Issue) (reorder : Reorder) : Prop where
  undisturbed : Undisturbed issues reorder.id (reorder.lists view issues)
  unobstructed : reorder.Unobstructed issues (reorder.lists view issues)

section Reorders

variable {issues : List Issue} {view : View} {u : Updates}

/-- The columns without the moved issue follow from the order of the others. -/
theorem movesOnly_iff {after : List Issue} {id : Int} : MovesOnly issues after id ↔
    ∀ status, (columnOrder after status).filter (fun card => card != id) =
      (columnOrder issues status).filter fun card => card != id := by
  refine ⟨MovesOnly.order, fun order => ⟨order, fun status before now => ?_⟩⟩
  have whole : ∀ cards : List Int, id ∉ cards → cards.filter (fun card => card != id) = cards :=
    fun cards absent => List.filter_eq_self.mpr fun card inside =>
      bne_iff_ne.mpr fun same => absent (same ▸ inside)
  rw [← whole _ now, ← whole _ before, order status]

theorem Given.arrives_top {issue : Issue} {list : List Issue} (given : Given issues issue list)
    (distinct : DistinctIds issues) :
    (∃ status, (columnOrder (issues.map (placed [topList issue list])) status).head? = some issue.id) ↔
      ∀ other ∈ [topList issue list], ∀ hidden ∈ hiddenIssues issues other,
        ∀ moved ∈ issues, moved.id = issue.id → ¬ HiddenFirst issues hidden moved 0 := by
  have known := (given.within issue given.member).1
  rw [first_iff (topList issue list) distinct known rfl, List.forall_mem_singleton]
  constructor
  · intro ahead hidden concealed moved member same
    rw [distinct.eq moved member issue known same]
    exact ahead hidden concealed
  · exact fun ahead hidden concealed => ahead hidden concealed issue known rfl

theorem Given.arrives_bottom {issue : Issue} {list : List Issue} (given : Given issues issue list)
    (distinct : DistinctIds issues) :
    (∃ status, (columnOrder (issues.map (placed [bottomList issue list])) status).getLast? =
        some issue.id) ↔
      ∀ other ∈ [bottomList issue list], ∀ hidden ∈ hiddenIssues issues other,
        ∀ moved ∈ issues, moved.id = issue.id →
          HiddenFirst issues hidden moved (other.2.length - 1 : Nat) := by
  have known := (given.within issue given.member).1
  have new := (given.others_distinct distinct).2
  rw [← filter_map_id] at new
  rw [last_iff (bottomList issue list) distinct known rfl new, List.forall_mem_singleton]
  have last : (bottomList issue list).2.length - 1 =
      ((list.map Issue.id).filter fun card => card != issue.id).length := by
    unfold bottomList
    rw [List.length_append, List.length_singleton, Nat.add_sub_cancel]
  rw [last]
  constructor
  · intro behind hidden concealed moved member same
    rw [distinct.eq moved member issue known same]
    exact behind hidden concealed
  · exact fun behind hidden concealed => behind hidden concealed issue known rfl

/-- The lists of a reorder, the issues it leaves and where its card ends up. -/
structure Numbered (issues : List Issue) (view : View) (reorder : Reorder) (u : Updates) : Prop where
  rearranged : Rearranged issues reorder.id (reorder.lists view issues)
  after : u.issues = issues.map (placed (reorder.lists view issues))
  ends : reorder.Arrives u.issues ↔ reorder.Unobstructed issues (reorder.lists view issues)

theorem drop_kept {lists : Lists} {id : Int} {target : IssueStatus} {index : Nat}
    (kept : ∀ list ∈ lists, list.1 ≠ .archive) : ∀ list ∈ drop lists id target index, list.1 ≠ .archive := by
  intro list member
  obtain ⟨list, known, rfl⟩ := List.mem_map.mp member
  exact kept list known

theorem renderBacklog_kept : ∀ list ∈ view.renderBacklog issues, list.1 ≠ .archive := by
  intro list member
  rcases List.mem_pair.mp member with rfl | rfl
  · exact IssueStatus.noConfusion
  · exact IssueStatus.noConfusion

/-- **What a reorder does**: it numbers its lists. -/
theorem Reorder.numbered (distinct : DistinctIds issues) {reorder : Reorder}
    (ran : reorder.run view issues = some u) : Numbered issues view reorder u := by
  cases reorder with
  | boardDrop id target index =>
      have rearranged := drop_rearranged distinct (renderBoard_rendered view issues) id target index
      unfold Reorder.run at ran
      simp only at ran
      split at ran
      · obtain rfl := Option.some.inj ran
        exact ⟨rearranged, getBoardUpdates_issues distinct rearranged.once, Iff.rfl⟩
      · exact nomatch ran
  | backlogDrop id target index =>
      have rearranged := drop_rearranged distinct (renderBacklog_rendered view issues) id target index
      unfold Reorder.run at ran
      simp only at ran
      split at ran
      · obtain rfl := Option.some.inj ran
        exact ⟨rearranged, backlogOnDrop_issues distinct rearranged.once (drop_kept renderBacklog_kept),
          Iff.rfl⟩
      · exact nomatch ran
  | boardTop id =>
      obtain ⟨issue, found, moved⟩ := Option.bind_eq_some_iff.mp ran
      obtain ⟨rfl, given⟩ := boardIssue_given distinct found
      have lists : (boardTop issue.id).lists view issues =
          [topList issue (columnIssues issues issue.status)] := by simp only [Reorder.lists, found]; rfl
      have after := moveTop_issues given distinct moved
      refine ⟨lists ▸ given.top_rearranged distinct, lists ▸ after, ?_⟩
      rw [after, lists]
      exact given.arrives_top distinct
  | boardBottom id =>
      obtain ⟨issue, found, moved⟩ := Option.bind_eq_some_iff.mp ran
      obtain ⟨rfl, given⟩ := boardIssue_given distinct found
      have lists : (boardBottom issue.id).lists view issues =
          [bottomList issue (columnIssues issues issue.status)] := by simp only [Reorder.lists, found]; rfl
      have after := moveBottom_issues given distinct moved
      refine ⟨lists ▸ given.bottom_rearranged distinct, lists ▸ after, ?_⟩
      rw [after, lists]
      exact given.arrives_bottom distinct
  | backlogTop id =>
      obtain ⟨issue, found, moved⟩ := Option.bind_eq_some_iff.mp ran
      obtain ⟨rfl, given⟩ := backlogIssue_given distinct found
      have lists : (backlogTop issue.id).lists view issues =
          [topList issue (view.backlogIssues issues issue.status)] := by
        simp only [Reorder.lists, found]; rfl
      have after := moveTop_issues given distinct moved
      refine ⟨lists ▸ given.top_rearranged distinct, lists ▸ after, ?_⟩
      rw [after, lists]
      exact given.arrives_top distinct
  | backlogBottom id =>
      obtain ⟨issue, found, moved⟩ := Option.bind_eq_some_iff.mp ran
      obtain ⟨rfl, given⟩ := backlogIssue_given distinct found
      have lists : (backlogBottom issue.id).lists view issues =
          [bottomList issue (view.backlogIssues issues issue.status)] := by
        simp only [Reorder.lists, found]; rfl
      have after := moveBottom_issues given distinct moved
      refine ⟨lists ▸ given.bottom_rearranged distinct, lists ▸ after, ?_⟩
      rw [after, lists]
      exact given.arrives_bottom distinct

theorem Numbered.done_iff (distinct : DistinctIds issues) {reorder : Reorder}
    (numbered : Numbered issues view reorder u) :
    reorder.Done issues u.issues ↔ reorder.Safe view issues := by
  have alone : MovesOnly issues u.issues reorder.id ↔
      Undisturbed issues reorder.id (reorder.lists view issues) := by
    rw [movesOnly_iff, numbered.after]
    exact placed_keeps_iff distinct numbered.rearranged
  constructor
  · exact fun done => ⟨alone.mp done.alone, numbered.ends.mp done.arrives⟩
  · exact fun safe => ⟨alone.mpr safe.undisturbed, numbered.ends.mpr safe.unobstructed⟩

/-- A reorder is safe where its lists show all issues of their columns. -/
theorem safe_of_all_shown {reorder : Reorder}
    (shown : ∀ list ∈ reorder.lists view issues, hiddenIssues issues list = []) :
    reorder.Safe view issues := by
  have none : ∀ list ∈ reorder.lists view issues, ∀ hidden, hidden ∉ hiddenIssues issues list :=
    fun list member hidden concealed => List.not_mem_nil (shown list member ▸ concealed)
  refine ⟨fun list member hidden concealed => absurd concealed (none list member hidden), ?_⟩
  cases reorder with
  | boardDrop id target index => trivial
  | backlogDrop id target index => trivial
  | boardTop id => exact fun list member hidden concealed => absurd concealed (none list member hidden)
  | boardBottom id => exact fun list member hidden concealed => absurd concealed (none list member hidden)
  | backlogTop id => exact fun list member hidden concealed => absurd concealed (none list member hidden)
  | backlogBottom id => exact fun list member hidden concealed => absurd concealed (none list member hidden)

/-- The board passes a column with all its issues. -/
theorem columnIssues_shown {issue : Issue} (given : issue ∈ columnIssues issues issue.status)
    {list : IssueStatus × List Int} (own : list.1 = issue.status)
    (whole : ∀ other ∈ columnIssues issues issue.status, other.id ∈ list.2) :
    hiddenIssues issues list = [] := by
  have sorted : ∀ other, other ∈ columnIssues issues issue.status ↔
      (other ∈ issues ∧ other.status ≠ .open) ∧ other.status = issue.status := by
    intro other
    unfold columnIssues sortByPosition
    rw [List.mem_insertionSort, List.mem_filter, List.mem_filter, bne_iff_ne, beq_iff_eq]
  refine List.eq_nil_iff_forall_not_mem.mpr fun hidden concealed => ?_
  obtain ⟨known, here, absent⟩ := mem_hiddenIssues.mp concealed
  have same := here.trans own
  refine absent (whole hidden ((sorted hidden).mpr ⟨⟨known, ?_⟩, same⟩))
  exact same ▸ ((sorted issue).mp given).1.2

/-- **On the board Move to top and Move to bottom move only one card**, whatever is hidden. -/
theorem boardMove_done (distinct : DistinctIds issues) {id : Int} {reorder : Reorder}
    (move : reorder = .boardTop id ∨ reorder = .boardBottom id)
    (ran : reorder.run view issues = some u) : reorder.Done issues u.issues := by
  refine ((Reorder.numbered distinct ran).done_iff distinct).mpr (safe_of_all_shown ?_)
  -- every issue of the column but the moved one is among the others
  have other : ∀ {issue card : Issue} {list : List Issue}, card ∈ list → card.id ≠ issue.id →
      card.id ∈ (list.map Issue.id).filter fun card => card != issue.id :=
    fun member differ => List.mem_filter.mpr ⟨List.mem_map_of_mem member, bne_iff_ne.mpr differ⟩
  rcases move with rfl | rfl
  · obtain ⟨issue, found, _⟩ := Option.bind_eq_some_iff.mp ran
    obtain ⟨rfl, given⟩ := boardIssue_given distinct found
    simp only [Reorder.lists, found]
    refine List.forall_mem_singleton.mpr (columnIssues_shown given.member rfl fun card member => ?_)
    by_cases moved : card.id = issue.id
    · exact moved ▸ List.mem_cons_self
    · exact List.mem_cons_of_mem _ (other member moved)
  · obtain ⟨issue, found, _⟩ := Option.bind_eq_some_iff.mp ran
    obtain ⟨rfl, given⟩ := boardIssue_given distinct found
    simp only [Reorder.lists, found]
    refine List.forall_mem_singleton.mpr (columnIssues_shown given.member rfl fun card member => ?_)
    by_cases moved : card.id = issue.id
    · exact moved ▸ List.mem_append_right _ List.mem_cons_self
    · exact List.mem_append_left _ (other member moved)

/-- **A reorder moves only one card**, to the end it is meant for, exactly if the hidden issues keep their
sides. -/
theorem reorder_iff (view : View) (issues : List Issue) (reorder : Reorder) (u : Updates)
    (distinct : DistinctIds issues) (ran : reorder.run view issues = some u) :
    reorder.Done issues u.issues ↔ reorder.Safe view issues :=
  (Reorder.numbered distinct ran).done_iff distinct

end Reorders

/-- Four issues to do, of which the third has normal priority. -/
def fourToDo : List Issue :=
  [{ id := 1, status := .todo, position := 0, priority := .high },
    { id := 2, status := .todo, position := 1, priority := .high },
    { id := 3, status := .todo, position := 2, priority := .normal },
    { id := 4, status := .todo, position := 3, priority := .high }]

/-- The views without a filter and for the issues of high priority. -/
def unfiltered : View := { toLowerCase := id }

def highPriority : View := { toLowerCase := id, filter := { priority := some .high } }

/-- Without a filter a card is dropped at the end. -/
theorem drop_unfiltered : ∃ u, (Reorder.backlogDrop 1 .todo 3).run unfiltered fourToDo = some u ∧
    (Reorder.backlogDrop 1 .todo 3).Done fourToDo u.issues :=
  ⟨_, rfl, (reorder_iff unfiltered fourToDo _ _ (by decide) rfl).mpr (safe_of_all_shown (by decide))⟩

/-- With the third issue hidden the last card moves to the top, and the three others keep their order. -/
theorem boardMove_done_hidden : ∃ u, (Reorder.boardTop 4).run highPriority fourToDo = some u ∧
    (Reorder.boardTop 4).Done fourToDo u.issues ∧ columnOrder u.issues .todo = [4, 1, 2, 3] :=
  ⟨_, rfl, @boardMove_done fourToDo highPriority _ (by decide) 4 (.boardTop 4) (.inl rfl) rfl, by decide⟩

/-- **Counterexample**: the first card is dropped after the last visible one, and that one passes the hidden
third issue. -/
theorem hidden_overtaken : ∃ u, DistinctIds fourToDo ∧
    (Reorder.backlogDrop 1 .todo 2).run highPriority fourToDo = some u ∧
      ¬ (Reorder.backlogDrop 1 .todo 2).Done fourToDo u.issues := by
  refine ⟨_, by decide, rfl, fun done => ?_⟩
  have before : (columnOrder fourToDo .todo).filter (fun card => card != 1) = [2, 3, 4] := by decide
  have after := done.alone.order .todo
  rw [Reorder.id, before] at after
  revert after
  decide

end Wuflow.Frontend

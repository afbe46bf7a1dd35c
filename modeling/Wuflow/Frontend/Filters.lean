/-
**Which issues a view shows** (`filters.js`, the columns of `status-config.js`).

`filterIssues` leaves issues out by label, priority, assignee, release and search text; `sortByPosition` is
JavaScript's stable sort. `toLowerCase` of the search is a parameter.

* `filterIssues_eq` — a filter decides about each issue on its own.
-/

import Mathlib.Data.List.Sort
import Wuflow.Model.Types

namespace Wuflow.Frontend

/-! ### Texts -/

/-- What `trim` takes away: white space and line terminators. -/
def isTrimmed (c : Char) : Bool :=
  [0x9, 0xA, 0xB, 0xC, 0xD, 0x20, 0xA0, 0x1680, 0x2028, 0x2029, 0x202F, 0x205F, 0x3000, 0xFEFF].contains
    c.toNat || (0x2000 ≤ c.toNat && c.toNat ≤ 0x200A)

def trim (s : String) : String :=
  String.ofList ((s.toList.dropWhile isTrimmed).reverse.dropWhile isTrimmed).reverse

/-- `s.includes(term)`. -/
def includes (s term : String) : Bool := s.toList.tails.any fun rest => term.toList.isPrefixOf rest

/-! ### Filters -/

inductive LabelFilter
  | noLabel
  | label (id : Int)

inductive AssigneeFilter
  | me
  | unassigned
  | user (id : Int)

inductive ReleaseFilter
  | noRelease
  | release (id : Int)

/-- The part of `state.filter` that `filterIssues` reads. -/
structure Filter where
  labelId : Option LabelFilter := none
  priority : Option IssuePriority := none
  assigneeId : Option AssigneeFilter := none
  releaseId : Option ReleaseFilter := none
  releaseFilterIds : List (Option Int) := []
  search : String := ""

def matchesRelease (issue : Issue) : ReleaseFilter → Bool
  | .noRelease => (issue.releaseID.filter (· != 0)).isNone
  | .release id => issue.releaseID == some id

def matchesReleaseIds (issue : Issue) (releaseFilterIds : List (Option Int)) : Bool :=
  releaseFilterIds.contains issue.releaseID

section Filters

variable (toLowerCase : String → String)

def matchesLabel (issue : Issue) : LabelFilter → Bool
  | .noLabel => issue.label.isNone
  | .label id => issue.label.any fun label => label.id == id

def matchesAssignee (currentUserId : Option Int) (issue : Issue) : AssigneeFilter → Bool
  | .me => currentUserId.isSome && issue.assigneeID == currentUserId
  | .unassigned => issue.assigneeID.isNone
  | .user id => issue.assigneeID == some id

/-- The id, the title or the description contains the text. -/
def matchesTerm (term : String) (issue : Issue) : Bool :=
  includes (toString issue.id) term || includes (toLowerCase issue.title) term ||
    includes (toLowerCase issue.description) term

/-- Leave issues out where there is something to filter by. -/
def narrow {φ : Type} (given : Option φ) (keeps : φ → Issue → Bool) (issues : List Issue) :
    List Issue :=
  match given with
  | none => issues
  | some value => issues.filter (keeps value)

def filterIssues (issues : List Issue) (filter : Filter) (currentUserId : Option Int) : List Issue :=
  let result := narrow filter.labelId (fun label issue => matchesLabel issue label) issues
  let result := narrow (filter.priority.filter (· != .unset))
    (fun priority issue => issue.priority == priority) result
  let result := narrow filter.assigneeId
    (fun assignee issue => matchesAssignee currentUserId issue assignee) result
  let result := narrow filter.releaseId (fun release issue => matchesRelease issue release) result
  let result := if filter.releaseFilterIds.isEmpty then result
    else result.filter (matchesReleaseIds · filter.releaseFilterIds)
  if filter.search = "" then result
  else
    let term := toLowerCase (trim filter.search)
    if term = "" then result else result.filter (matchesTerm toLowerCase term)

/-- The issue passes every filter. -/
def passes (filter : Filter) (currentUserId : Option Int) (issue : Issue) : Bool :=
  filter.labelId.all (matchesLabel issue) &&
    (filter.priority.filter (· != .unset)).all (fun priority => issue.priority == priority) &&
    filter.assigneeId.all (matchesAssignee currentUserId issue) &&
    filter.releaseId.all (matchesRelease issue) &&
    (filter.releaseFilterIds.isEmpty || matchesReleaseIds issue filter.releaseFilterIds) &&
    (filter.search == "" || toLowerCase (trim filter.search) == "" ||
      matchesTerm toLowerCase (toLowerCase (trim filter.search)) issue)

theorem narrow_eq {φ : Type} (given : Option φ) (keeps : φ → Issue → Bool) (issues : List Issue) :
    narrow given keeps issues = issues.filter fun issue => given.all fun value => keeps value issue := by
  cases given with
  | none => exact (List.filter_eq_self.mpr fun _ _ => rfl).symm
  | some value => rfl

/-- A filter that is switched off by a condition. -/
theorem filter_unless (off : Bool) (keeps : Issue → Bool) (issues : List Issue) :
    (if off = true then issues else issues.filter keeps) =
      issues.filter fun issue => off || keeps issue := by
  cases off with
  | true => exact (List.filter_eq_self.mpr fun _ _ => rfl).symm
  | false => rfl

/-- **A filter decides about each issue on its own.** -/
theorem filterIssues_eq (issues : List Issue) (filter : Filter) (currentUserId : Option Int) :
    filterIssues toLowerCase issues filter currentUserId =
      issues.filter (passes toLowerCase filter currentUserId) := by
  have search : ∀ result : List Issue,
      (if filter.search = "" then result else
        if toLowerCase (trim filter.search) = "" then result else
          result.filter (matchesTerm toLowerCase (toLowerCase (trim filter.search)))) =
        result.filter fun issue => filter.search == "" || toLowerCase (trim filter.search) == "" ||
          matchesTerm toLowerCase (toLowerCase (trim filter.search)) issue := by
    intro result
    rw [← filter_unless]
    simp only [Bool.or_eq_true, beq_iff_eq]
    by_cases none : filter.search = ""
    · simp [none]
    · by_cases blank : toLowerCase (trim filter.search) = ""
      · simp [blank]
      · simp [none, blank]
  unfold filterIssues
  simp only [search, narrow_eq]
  rw [filter_unless]
  simp only [List.filter_filter]
  refine List.filter_congr fun issue _ => ?_
  unfold passes
  ac_rfl

end Filters

def filterByStatus (issues : List Issue) (status : IssueStatus) : List Issue :=
  issues.filter fun issue => issue.status == status

def sortByPosition (issues : List Issue) : List Issue :=
  issues.insertionSort fun a b => a.position ≤ b.position

end Wuflow.Frontend

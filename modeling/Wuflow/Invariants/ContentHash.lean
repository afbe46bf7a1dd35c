/-
**A PUT with an unchanged content hash changes no content.**

`persistIssueUpdate` writes at most the position if `issueContentHash` gives the same text for the body and
for the stored issue. The text joins ten pieces with NUL characters.

* `PlainIssue` — the texts of an issue have no NUL character, its status, priority and dates have passed
  their checks, and what it refers to has a positive id, so that zero stands for a missing one.
* `PlainIssue.sameContent` — plain issues with one hash agree in every piece.
* `equal_hash_same_content` — accepted bodies and stored issues are plain, in every run, and so the write
  that is left out would have changed no content.
-/

import Wuflow.Codec.Join
import Wuflow.Model.Checks
import Wuflow.Model.Sanitize
import Wuflow.Requests.Alone
import Wuflow.Requests.Copies
import Wuflow.Requests.IssueContents

namespace Wuflow

open Calendar (Instant nanosPerSecond rfc3339)
open Interleave (Stopping)
open Interleave.Stopping (Ensures)
open Relational (Table)

/-! ### The pieces of the hash -/

/-- The text of a deadline in the hash. -/
def deadlineText (deadline : Option DateTime) : String :=
  (deadline.map fun t => String.ofList (rfc3339 t.instant)).getD ""

/-- The pieces that `issueContentHash` joins. -/
def contentPieces (i : Issue) : List String :=
  [i.title, i.description, i.status.text, i.priority.text,
    toString ((i.label.map (·.id)).getD 0), toString (i.assigneeID.getD 0), deadlineText i.deadline,
    formatDates (i.plannedDates.getD []), toString i.projectID, toString (i.releaseID.getD 0)]

theorem issueContentHash_eq (i : Issue) :
    issueContentHash i = String.intercalate "\x00" (contentPieces i) := by
  unfold issueContentHash
  rfl

/-- **Pieces without NUL characters are read off the hash.** -/
theorem contentPieces_eq {a b : Issue} (plain : ∀ piece ∈ contentPieces a, NoNul piece)
    (plain' : ∀ piece ∈ contentPieces b, NoNul piece)
    (same : issueContentHash a = issueContentHash b) : contentPieces a = contentPieces b := by
  have texts := congrArg String.toList same
  rw [issueContentHash_eq, issueContentHash_eq, String.toList_intercalate, String.toList_intercalate]
    at texts
  refine List.map_injective_iff.mpr (fun _ _ => String.toList_inj.mp) (Join.intercalate_inj ?_ ?_ ?_ ?_ texts)
  · intro piece member
    obtain ⟨text, among, rfl⟩ := List.mem_map.mp member
    exact plain text among
  · intro piece member
    obtain ⟨text, among, rfl⟩ := List.mem_map.mp member
    exact plain' text among
  · exact List.cons_ne_nil _ _
  · exact List.cons_ne_nil _ _

/-! ### Each piece -/

theorem IssueStatus.text_injective {a b : IssueStatus} (valid : isValidStatus a = true)
    (valid' : isValidStatus b = true) (same : a.text = b.text) : a = b := by
  cases a with
  | other => exact nomatch valid
  | _ =>
      cases b with
      | other => exact nomatch valid'
      | _ => first | rfl | exact absurd same (by decide)

theorem IssueStatus.text_noNul {status : IssueStatus} (valid : isValidStatus status = true) :
    NoNul status.text := by
  cases status with
  | other => exact nomatch valid
  | _ => decide

theorem IssuePriority.text_injective {a b : IssuePriority} (valid : a = .unset ∨ isValidPriority a = true)
    (valid' : b = .unset ∨ isValidPriority b = true) (same : a.text = b.text) : a = b := by
  cases a with
  | other => exact valid.elim nofun nofun
  | _ =>
      cases b with
      | other => exact valid'.elim nofun nofun
      | _ => first | rfl | exact absurd same (by decide)

theorem IssuePriority.text_noNul {priority : IssuePriority}
    (valid : priority = .unset ∨ isValidPriority priority = true) : NoNul priority.text := by
  cases priority with
  | other => exact valid.elim nofun nofun
  | _ => decide

theorem toString_noNul (n : Int) : NoNul (toString n) := fun member =>
  (Join.mem_toString member).elim (absurd · (by decide)) (absurd · (by decide))

/-- Zero stands for a missing id. -/
theorem id_injective {a b : Option Int} (positive : ∀ id, a = some id → 0 < id)
    (positive' : ∀ id, b = some id → 0 < id) (same : toString (a.getD 0) = toString (b.getD 0)) : a = b := by
  have ids := Join.toString_inj same
  cases a with
  | none =>
      cases b with
      | none => rfl
      | some id => exact absurd ids (ne_of_lt (positive' id rfl))
  | some id =>
      cases b with
      | none => exact absurd ids.symm (ne_of_lt (positive id rfl))
      | some id' => exact congrArg some ids

theorem deadlineText_noNul (deadline : Option DateTime) : NoNul (deadlineText deadline) := by
  cases deadline with
  | none => decide
  | some t =>
      show '\x00' ∉ (String.ofList (rfc3339 t.instant)).toList
      rw [String.toList_ofList]
      intro member
      rcases Calendar.mem_rfc3339 member with digit | same | same | same | same
      · exact absurd digit (by decide)
      all_goals exact absurd same (by decide)

/-- The second of a deadline. -/
def deadlineSecond (deadline : Option DateTime) : Option Int :=
  deadline.map fun t => t.instant / nanosPerSecond

theorem deadlineText_injective {a b : Option DateTime} (same : deadlineText a = deadlineText b) :
    deadlineSecond a = deadlineSecond b := by
  have some_ : ∀ t : DateTime, deadlineText (some t) ≠ "" := by
    intro t none
    have chars : rfc3339 t.instant = [] := by
      rw [← String.toList_ofList (l := rfc3339 t.instant)]
      exact congrArg String.toList none
    unfold rfc3339 at chars
    exact absurd (List.append_eq_nil_iff.mp (List.append_eq_nil_iff.mp chars).2).2 (List.cons_ne_nil _ _)
  cases a with
  | none =>
      cases b with
      | none => rfl
      | some t => exact absurd same.symm (some_ t)
  | some t =>
      cases b with
      | none => exact absurd same (some_ t)
      | some u =>
          have chars : rfc3339 t.instant = rfc3339 u.instant := String.ofList_inj.mp same
          exact congrArg some (Calendar.rfc3339_injective chars)

/-! ### Planned dates -/

/-- The characters of a date. -/
theorem mem_isDate {d : String} (date : isDate d = true) {c : Char} (member : c ∈ d.toList) :
    c.isDigit = true ∨ c = '-' := by
  unfold isDate at date
  split at date
  · next y1 y2 y3 y4 m1 m2 d1 d2 chars =>
      rw [chars] at member
      rw [Bool.and_eq_true, List.all_eq_true] at date
      have digits := date.1
      simp only [List.mem_cons, List.not_mem_nil, or_false] at member digits
      grind
  · exact nomatch date

/-- Neither a space nor a bracket nor a NUL character is in a date. -/
theorem isDate_free {d : String} (date : isDate d = true) {c : Char} (digit : c.isDigit = false)
    (minus : c ≠ '-') : c ∉ d.toList := by
  intro member
  rcases mem_isDate date member with holds | same
  · exact absurd (holds.symm.trans digit) (by decide)
  · exact minus same

theorem isDate_nonempty {d : String} (date : isDate d = true) : d ≠ "" := by
  rintro rfl
  exact absurd date (by decide)

theorem formatDates_toList (dates : List String) :
    (formatDates dates).toList = '[' :: ([' '].intercalate (dates.map String.toList) ++ [']']) := by
  unfold formatDates
  rw [String.toList_append, String.toList_append, String.toList_intercalate]
  rfl

theorem formatDates_noNul {dates : List String} (valid : ∀ d ∈ dates, isDate d = true) :
    NoNul (formatDates dates) := by
  unfold NoNul
  rw [formatDates_toList]
  intro member
  rcases List.mem_cons.mp member with same | member
  · exact absurd same (by decide)
  · rcases List.mem_append.mp member with inside | last
    · rcases Join.mem_intercalate inside with same | ⟨piece, among, inside⟩
      · exact absurd same (by decide)
      · obtain ⟨d, given, rfl⟩ := List.mem_map.mp among
        exact isDate_free (valid d given) (by decide) (by decide) inside
    · exact absurd (List.mem_singleton.mp last) (by decide)

/-- **Dates are read off their text.** -/
theorem formatDates_injective {dates others : List String} (valid : ∀ d ∈ dates, isDate d = true)
    (valid' : ∀ d ∈ others, isDate d = true) (same : formatDates dates = formatDates others) :
    dates = others := by
  have texts := congrArg String.toList same
  rw [formatDates_toList, formatDates_toList] at texts
  have inner := List.append_cancel_right (List.cons.inj texts).2
  have free : ∀ ds : List String, (∀ d ∈ ds, isDate d = true) →
      ∀ piece ∈ ds.map String.toList, ' ' ∉ piece := by
    intro ds valid piece member
    obtain ⟨d, given, rfl⟩ := List.mem_map.mp member
    exact isDate_free (valid d given) (by decide) (by decide)
  -- only no dates at all give the empty text
  have empty : ∀ ds : List String, (∀ d ∈ ds, isDate d = true) →
      [' '].intercalate (ds.map String.toList) = [] → ds = [] := by
    intro ds valid none
    cases ds with
    | nil => rfl
    | cons d ds =>
        have pieces := Join.intercalate_inj (free _ valid)
          (fun piece member => List.mem_singleton.mp member ▸ List.not_mem_nil) (List.cons_ne_nil _ _)
          (List.cons_ne_nil [] []) (none.trans List.intercalate_singleton.symm)
        exact absurd (String.toList_eq_nil_iff.mp (List.cons.inj pieces).1)
          (isDate_nonempty (valid d List.mem_cons_self))
  cases dates with
  | nil => exact (empty others valid' (inner.symm.trans rfl)).symm
  | cons d dates =>
      cases others with
      | nil => exact empty _ valid (inner.trans rfl)
      | cons d' others =>
          exact List.map_injective_iff.mpr (fun _ _ => String.toList_inj.mp)
            (Join.intercalate_inj (free _ valid) (free _ valid') (List.cons_ne_nil _ _)
              (List.cons_ne_nil _ _) inner)

/-! ### Plain issues -/

/-- The content of an issue in the pieces of its hash: a deadline counts in whole seconds, missing planned
dates are none. -/
structure SameContent (a b : IssueColumns) : Prop where
  title : a.title = b.title
  description : a.description = b.description
  status : a.status = b.status
  priority : a.priority = b.priority
  label : a.labelID = b.labelID
  assignee : a.assigneeID = b.assigneeID
  deadline : deadlineSecond a.deadline = deadlineSecond b.deadline
  plannedDates : a.plannedDates.getD [] = b.plannedDates.getD []
  project : a.projectID = b.projectID
  release : a.releaseID = b.releaseID

theorem SameContent.trans {a b c : IssueColumns} (first : SameContent a b) (second : SameContent b c) :
    SameContent a c where
  title := first.title.trans second.title
  description := first.description.trans second.description
  status := first.status.trans second.status
  priority := first.priority.trans second.priority
  label := first.label.trans second.label
  assignee := first.assignee.trans second.assignee
  deadline := first.deadline.trans second.deadline
  plannedDates := first.plannedDates.trans second.plannedDates
  project := first.project.trans second.project
  release := first.release.trans second.release

/-- Texts without NUL characters, and values that have passed their checks. -/
structure PlainContent (content : IssueContent) : Prop where
  title : NoNul content.title
  description : NoNul content.description
  status : isValidStatus content.status = true
  priority : content.priority = .unset ∨ isValidPriority content.priority = true
  dates : ∀ d ∈ content.plannedDates.getD [], isDate d = true

/-- An issue whose hash can be taken apart. -/
structure PlainIssue (i : Issue) : Prop where
  content : PlainContent i.columns.content
  label : ∀ id, i.label.map (·.id) = some id → 0 < id
  assignee : ∀ id, i.assigneeID = some id → 0 < id
  release : ∀ id, i.releaseID = some id → 0 < id

theorem PlainIssue.pieces {i : Issue} (plain : PlainIssue i) : ∀ piece ∈ contentPieces i, NoNul piece := by
  intro piece member
  unfold contentPieces at member
  simp only [List.mem_cons, List.not_mem_nil, or_false] at member
  rcases member with rfl | rfl | rfl | rfl | rfl | rfl | rfl | rfl | rfl | rfl
  · exact plain.content.title
  · exact plain.content.description
  · exact IssueStatus.text_noNul plain.content.status
  · exact IssuePriority.text_noNul plain.content.priority
  · exact toString_noNul _
  · exact toString_noNul _
  · exact deadlineText_noNul _
  · exact formatDates_noNul plain.content.dates
  · exact toString_noNul _
  · exact toString_noNul _

/-- **Plain issues with one hash have the same content.** -/
theorem PlainIssue.sameContent {a b : Issue} (plain : PlainIssue a) (plain' : PlainIssue b)
    (same : issueContentHash a = issueContentHash b) : SameContent a.columns b.columns := by
  have pieces := contentPieces_eq plain.pieces plain'.pieces same
  unfold contentPieces at pieces
  simp only [List.cons.injEq, and_true] at pieces
  obtain ⟨title, description, status, priority, label, assignee, deadline, dates, project, release⟩ := pieces
  exact
    { title
      description
      status := IssueStatus.text_injective plain.content.status plain'.content.status status
      priority := IssuePriority.text_injective plain.content.priority plain'.content.priority priority
      label := id_injective plain.label plain'.label label
      assignee := id_injective plain.assignee plain'.assignee assignee
      deadline := deadlineText_injective deadline
      plannedDates := formatDates_injective plain.content.dates plain'.content.dates dates
      project := Join.toString_inj project
      release := id_injective plain.release plain'.release release }

/-! ### Accepted bodies -/

/-- A check of the handler lets the request pass, in some state of the database. -/
def Passes (check : Handler Unit) : Prop := ∃ s s', Stopping.Reaches Query.perform (.ok ()) s' check s

/-- What an accepted check has looked up is in the database. -/
theorem found_of_passes {q : Select} {found : q.Row → Bool} {otherwise : Response} {s s' : Store}
    (passes : Stopping.Reaches Query.perform (.ok ()) s'
      (do let row ← orInternal (select q); ensure (found row) otherwise) s) : found (q.eval s) = true := by
  obtain ⟨answer, mid, here, rest⟩ := passes
  obtain ⟨rfl, rfl⟩ := perform_read here
  cases holds : found (q.eval mid) with
  | true => rfl
  | false =>
      have stopped : (ensure (found (q.eval mid)) otherwise : Handler Unit).run.Reaches Query.perform
          (.ok ()) s' mid := rest
      rw [holds] at stopped
      exact nomatch stopped.1

/-- A row is not found under an id that is not positive. -/
theorem positive_of_holds {ρ : Type} {t : Table ρ} {id : Int} {selects : ρ → Bool}
    (holds : t.holds id selects = true) : 0 < id := by
  obtain ⟨row, found, _⟩ := Table.holds_eq_true_iff.mp holds
  exact (Table.get?_le_seq found).1

theorem label_positive {i : Issue} (passes : Passes (checkLabel i)) :
    ∀ id, i.label.map (·.id) = some id → 0 < id := by
  intro id refers
  obtain ⟨label, given, rfl⟩ := Option.map_eq_some_iff.mp refers
  obtain ⟨s, s', passes⟩ := passes
  unfold checkLabel at passes
  rw [given] at passes
  exact positive_of_holds
    (@found_of_passes (.labelExistsInProject label.id i.projectID) (fun found => found) _ _ _ passes)

theorem release_positive {i : Issue} (passes : Passes (checkRelease i)) :
    ∀ id, i.releaseID = some id → 0 < id := by
  intro id given
  obtain ⟨s, s', passes⟩ := passes
  unfold checkRelease at passes
  rw [given] at passes
  exact positive_of_holds (@found_of_passes (.releaseExistsInProject id i.projectID) (fun found => found) _ _ _ passes)

theorem assignee_positive {i : Issue} {current : Option Issue} (passes : Passes (checkAssignee i current)) :
    ∀ id, i.assigneeID = some id → 0 < id := by
  intro id given
  obtain ⟨s, s', passes⟩ := passes
  unfold checkAssignee at passes
  rw [given] at passes
  by_cases kept : (current.bind (·.assigneeID)) = some id
  · simp only [if_pos kept] at passes
    exact positive_of_holds (@found_of_passes (.userExists id) (fun found => found) _ _ _ passes)
  · simp only [if_neg kept] at passes
    exact positive_of_holds (@found_of_passes (.userExistsAndActive id) (fun found => found) _ _ _ passes)

theorem IssueChecked.plain {sent i : Issue} (checked : IssueChecked sent i) (position : Int) :
    PlainContent ⟨i.title, i.description, i.status, position, i.plannedDates, i.priority⟩ := by
  obtain rfl := checked.same
  exact
    { title := sanitizeString_noNul _
      description := trimSpace_removeNul_noNul _
      status := checked.status
      priority := checked.priority
      dates := List.all_eq_true.mp checked.dates }

/-! ### Stored issues -/

/-- Stored content stays plain. -/
theorem keptContent_plain (req : Request) : KeptContent req PlainContent where
  created caller pId sent i position _ valid := by
    have plain := (validateIssue_checked valid).plain position
    refine { plain with priority := ?_ }
    show (if i.priority = .unset then .normal else i.priority) = .unset ∨ _
    by_cases unset : i.priority = .unset
    · rw [if_pos unset]
      exact .inr rfl
    · rw [if_neg unset]
      exact plain.priority
  put caller pId id ifMatch sent i _ valid := (validateIssue_checked valid).plain i.position
  position content position plain := { plain with }
  status content status valid plain := { plain with status := valid }

section Runs

variable {ι : Type} [DecidableEq ι] {host : Host} {reqs : ι → Request} {trace : List (Step ι)} {s : Store}
  {current : ι → Backend Response}

theorem stored_plain (run : Serves host reqs trace s current) : s.IssuesAll PlainContent :=
  ServesFrom.keeps run createTables_consistent (fun t => t.IssuesAll PlainContent) Table.All.empty
    fun thread _ _ _ _ _ sanctioned witnessed applied _ plain =>
      Write.issues_all ((keptContent_plain (reqs thread)).write sanctioned witnessed fun _ holds => holds.2)
        applied plain

/-- **What is read back is plain.** -/
theorem plainIssue_of_stored (run : Serves host reqs trace s current) {id : Int} {row : IssueRow}
    (found : s.issues.get? id = some row) (tasks : List Task) :
    PlainIssue { s.scanIssueRow id row with tasks } := by
  have consistent : Consistent s := (ServesFrom.references createTables_consistent run).consistent
  have plain := stored_plain run id row found
  obtain ⟨_, labels, releases, assignees⟩ := consistent.scanIssueRow_columns found
  refine ⟨{ plain with }, fun l refers => ?_, fun u refers => ?_, fun r refers => ?_⟩
  · obtain ⟨_, here, _⟩ := consistent.label id row l found (labels.symm.trans refers)
    exact (Table.get?_le_seq here).1
  · obtain ⟨_, here⟩ := consistent.assignee id row u found (assignees.symm.trans refers)
    exact (Table.get?_le_seq here).1
  · obtain ⟨_, here, _⟩ := consistent.release id row r found (releases.symm.trans refers)
    exact (Table.get?_le_seq here).1

/-! ### The write that is left out -/

omit [DecidableEq ι] in
/-- **If what is not written is stored already, the body is stored**, with its position. -/
theorem persistIssueUpdate_stores {may : Query → Prop} {body shown : Issue} {row : IssueRow}
    (found : s.issues.get? body.id = some row)
    (stored : issueContentHash body = issueContentHash shown → SameContent body.columns row.toIssueColumns)
    (position : shown.position = row.position) :
    Ensures (Query.tried may)
      (fun _ s' => ∃ row', s'.issues.get? body.id = some row' ∧
        SameContent body.columns row'.toIssueColumns ∧ row'.position = body.position)
      (fun _ _ => True) (persistIssueUpdate body shown) s := by
  have written : ∀ change : IssueRow → IssueRow,
      (s.issues.update (fun key _ => key == body.id) change).get? body.id = some (change row) := by
    intro change
    rw [Table.get?_update, found, Option.map_some, if_pos (beq_self_eq_true _)]
  unfold persistIssueUpdate
  split
  · next same =>
      have content := stored same
      split
      · refine Ensured.orFail_end (Ensured.exec (tame_tried may) (fun _ => trivial) fun rows s' applied => ?_)
        cases applied
        exact Ensured.reading (tame_tried may) (checkRowsAffected_asks _ _)
          (fun _ => ⟨_, written _, { content with }, rfl⟩) fun _ => trivial
      · next same =>
          exact ⟨row, found, content, (not_not.mp same |>.trans position).symm⟩
  · refine Ensured.orFail (Ensured.ask (tame_tried may) now_reading fun now => ?_)
    refine Ensured.exec (tame_tried may) (fun _ => trivial) fun rows s' applied => ?_
    obtain ⟨_, rest⟩ := require_bind_ok.mp applied
    cases rest
    refine Ensured.checkRowsAffected (fun _ => trivial) fun _ => ?_
    exact ⟨_, written _, ⟨rfl, rfl, rfl, rfl, rfl, rfl, rfl, rfl, rfl, rfl⟩, rfl⟩

/-- **An accepted body with the hash of the stored issue has its content**, so that leaving out the write
loses none: after `persistIssueUpdate` the body is stored. -/
theorem equal_hash_same_content (run : Serves host reqs trace s current) {id : Int} {row : IssueRow}
    (found : s.issues.get? id = some row) {tasks : List Task} {shown : Issue}
    (read : shown = { s.scanIssueRow id row with tasks }) {sent i : Issue}
    (valid : validateIssue sent = .ok i) {caller : Caller} {projectID : Int} {body : Issue}
    (built : body = putBody caller projectID id shown i)
    (assignee : Passes (checkAssignee body (some shown))) (label : Passes (checkLabel body))
    (release : Passes (checkRelease body)) (may : Query → Prop) :
    (issueContentHash body = issueContentHash shown → SameContent body.columns shown.columns) ∧
      Ensures (Query.tried may)
        (fun _ s' => ∃ row', s'.issues.get? id = some row' ∧
          SameContent body.columns row'.toIssueColumns ∧ row'.position = body.position)
        (fun _ _ => True) (persistIssueUpdate body shown) s := by
  have plain : PlainIssue body :=
    { content := by rw [built]; exact { (validateIssue_checked valid).plain i.position with }
      label := label_positive label
      assignee := assignee_positive assignee
      release := release_positive release }
  have plain' : PlainIssue shown := read ▸ plainIssue_of_stored run found tasks
  have consistent : Consistent s := (ServesFrom.references createTables_consistent run).consistent
  have copy : shown.columns = { row.toIssueColumns with updatedBy := nullableUserID row.updatedBy } :=
    read ▸ (consistent.copies found tasks).columns
  have stored : SameContent shown.columns row.toIssueColumns := by
    rw [copy]
    exact ⟨rfl, rfl, rfl, rfl, rfl, rfl, rfl, rfl, rfl, rfl⟩
  have key : body.id = id := by rw [built]; rfl
  refine ⟨plain.sameContent plain', ?_⟩
  rw [← key] at found ⊢
  exact persistIssueUpdate_stores found (fun same => (plain.sameContent plain' same).trans stored)
    (congrArg IssueColumns.position copy)

end Runs

/-! ### An issue that is dragged -/

/-- An issue is created for the first user. -/
def draggedIssue : Fin 2 → Request
  | 0 => bootstrap
  | 1 => .createIssue sampleAdmin (some 1) (.json { title := "Crash", status := .todo, assigneeID := some 1 })

def draggedMoves : List (Fin 2 × Input) := bootstrapMoves 0 ++ stepsOf 1 9 { instant := 2 }

def draggedStore : Store := (execute sampleHost draggedIssue draggedMoves).store

/-- The body of a PUT that moves it down. -/
def draggedBody : Issue :=
  { title := "Crash", status := .todo, priority := .normal, position := 7, assigneeID := some 1 }

/-- The hash is the same, and only the position is stored. -/
theorem equal_hash_same_content_dragged :
    ∃ row, draggedStore.issues.get? 1 = some row ∧ row.position ≠ 7 ∧
      SameContent (putBody sampleAdmin 1 1 (draggedStore.scanIssueRow 1 row) draggedBody).columns
        (draggedStore.scanIssueRow 1 row).columns := by
  have evaluated : ((draggedStore.issues.get? 1).map fun row =>
      decide (row.position ≠ 7 ∧
        issueContentHash (putBody sampleAdmin 1 1 (draggedStore.scanIssueRow 1 row) draggedBody) =
          issueContentHash (draggedStore.scanIssueRow 1 row))) = some true ∧
      draggedStore.users.holds 1 (fun _ => true) = true ∧
      draggedStore.users.holds 1 (·.active) = true := by decide +kernel
  obtain ⟨equal, known, active⟩ := evaluated
  obtain ⟨row, found, same⟩ := Option.map_eq_some_iff.mp equal
  obtain ⟨moved, same⟩ := of_decide_eq_true same
  have valid : validateIssue draggedBody = .ok draggedBody := rfl
  have read : draggedStore.scanIssueRow 1 row = { draggedStore.scanIssueRow 1 row with tasks := [] } := rfl
  refine ⟨row, found, moved, (equal_hash_same_content
    (Serves.of_moves sampleHost draggedIssue draggedMoves) found read valid rfl ?_ ?_ ?_ Query.sound).1 same⟩
  · refine ⟨draggedStore, draggedStore, ?_⟩
    unfold checkAssignee
    simp only [putBody, draggedBody]
    split
    · exact ⟨.ok true, draggedStore, ⟨congrArg Except.ok known.symm, rfl⟩, rfl, rfl⟩
    · exact ⟨.ok true, draggedStore, ⟨congrArg Except.ok active.symm, rfl⟩, rfl, rfl⟩
  · exact ⟨draggedStore, draggedStore, rfl, rfl⟩
  · exact ⟨draggedStore, draggedStore, rfl, rfl⟩

end Wuflow

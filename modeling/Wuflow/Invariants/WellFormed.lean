/-
**Stored issues and tasks are well-formed, as long as bodies are clean.**

* `WellFormed s` — every issue and every task has well-formed content.
* `Request.Clean` — the title of each accepted body has no white space at its ends once its tags are
  stripped, and a PUT of an issue names a priority.
* `WellFormed.write` — every write of a clean request keeps the content well-formed: what clients send
  has passed its validator, what handlers write back was read from the database.
* `stored_well_formed` — in every run of clean requests. `stored_untrimmed` is a title that is not
  clean: `sanitizeString` trims it before it strips the tags.
-/

import Wuflow.Model.Checks
import Wuflow.Model.Sanitize
import Wuflow.Requests.IssueContents

namespace Wuflow

open Calendar (Instant)
open Interleave (Entry Event Run Steps Config)
open Relational (Table)

/-! ### Well-formed content -/

/-- 1 to 100 characters, not only white space, and none at the ends. -/
structure WellFormedTitle (title : String) : Prop where
  nonempty : 1 ≤ title.length
  bounded : title.length ≤ 100
  visible : ∃ c ∈ title.toList, isSpace c = false
  first : ∀ c, title.toList.head? = some c → isSpace c = false
  last : ∀ c, title.toList.getLast? = some c → isSpace c = false

structure WellFormedIssue (content : IssueContent) : Prop where
  title : WellFormedTitle content.title
  description : content.description.length ≤ 5000
  status : isValidStatus content.status = true
  priority : content.priority = .normal ∨ content.priority = .high
  plannedDates : (content.plannedDates.getD []).length ≤ 100
  dates : ∀ d ∈ content.plannedDates.getD [], isDate d = true

/-- Every issue and every task is well-formed. -/
structure WellFormed (s : Store) : Prop where
  issues : s.IssuesAll WellFormedIssue
  tasks : s.TasksAll fun content => WellFormedTitle content.title

theorem createTables_wellFormed : WellFormed createTables where
  issues := Table.All.empty
  tasks := Table.All.empty

/-! ### Clean requests -/

/-- The title of the body has no white space at its ends once its tags are stripped. -/
def CleanTitle (title : String) : Prop := trimSpace (sanitizeString title) = sanitizeString title

/-- The bodies that a request would store are clean. -/
def Request.Clean : Request → Prop
  | .createIssue _ _ (.json sent) => (∃ i, validateIssue sent = .ok i) → CleanTitle sent.title
  | .putIssue _ _ _ _ (.json sent) =>
      (∃ i, validateIssue sent = .ok i) → CleanTitle sent.title ∧ sent.priority ≠ .unset
  | .createTask _ _ _ (.json sent) => (∃ t, validateTask sent = .ok t) → CleanTitle sent.title
  | .putTask _ _ _ _ (.json sent) => (∃ t, validateTask sent = .ok t) → CleanTitle sent.title
  | _ => True

/-! ### Trimmed text -/

/-- **A trimmed text that is not empty is visible and has no white space at its ends.** -/
theorem trimmed_ends {s : String} (clean : trimSpace s = s) :
    (∀ c, s.toList.head? = some c → isSpace c = false) ∧
      ∀ c, s.toList.getLast? = some c → isSpace c = false := by
  have chars : trimSpaceChars s.toList = s.toList := by
    have := congrArg String.toList clean
    unfold trimSpace at this
    rwa [String.toList_ofList] at this
  constructor
  · intro c first
    rw [← chars] at first
    exact head?_trimSpaceChars first
  · intro c last
    rw [← chars] at last
    exact getLast?_trimSpaceChars last

theorem wellFormedTitle_of_clean {title : String} (nonempty : title ≠ "") (bounded : title.length ≤ 100)
    (clean : trimSpace title = title) : WellFormedTitle title := by
  obtain ⟨first, last⟩ := trimmed_ends clean
  have some_ : title.toList ≠ [] := fun none => nonempty (String.toList_eq_nil_iff.mp none)
  obtain ⟨c, rest, chars⟩ := List.exists_cons_of_ne_nil some_
  refine
    { nonempty := ?_
      bounded
      visible := ⟨c, by rw [chars]; exact List.mem_cons_self, first c (by rw [chars]; rfl)⟩
      first
      last }
  rw [← String.length_toList, chars]
  exact Nat.succ_le_succ (Nat.zero_le _)

/-! ### One write -/

section Writes

variable {host : Host} {req : Request} {past : Past} {s s' : Store} {rows : Int} {w : Write}

/-- An accepted issue body with a clean title and a priority. -/
theorem IssueChecked.wellFormed {sent i : Issue} (checked : IssueChecked sent i)
    (clean : CleanTitle sent.title) {priority : IssuePriority}
    (priority_ : priority = .normal ∨ priority = .high) (position : Int) :
    WellFormedIssue ⟨i.title, i.description, i.status, position, i.plannedDates, priority⟩ := by
  obtain rfl := checked.same
  exact
    { title := wellFormedTitle_of_clean checked.title checked.titleLength clean
      description := checked.descriptionLength
      status := checked.status
      priority := priority_
      plannedDates := checked.plannedDates
      dates := List.all_eq_true.mp checked.dates }

theorem isValidPriority_cases {priority : IssuePriority} (valid : isValidPriority priority = true) :
    priority = .normal ∨ priority = .high := by
  cases priority with
  | normal => exact .inl rfl
  | high => exact .inr rfl
  | _ => exact nomatch valid

/-- A new issue gets a priority. -/
theorem IssueChecked.default_priority {sent i : Issue} (checked : IssueChecked sent i) :
    (if i.priority = .unset then .normal else i.priority) = .normal ∨
      (if i.priority = .unset then .normal else i.priority) = IssuePriority.high := by
  obtain rfl := checked.same
  by_cases unset : sent.priority = .unset
  · exact .inl (if_pos unset)
  · rw [if_neg unset]
    exact isValidPriority_cases (checked.priority.resolve_left unset)

/-- Issues stay well-formed under the writes of a clean request. -/
theorem keptContent_wellFormed (clean : req.Clean) : KeptContent req WellFormedIssue where
  created := by
    rintro caller pId sent i position rfl valid
    have checked := validateIssue_checked valid
    exact checked.wellFormed (clean ⟨_, valid⟩) checked.default_priority position
  put := by
    rintro caller pId id ifMatch sent i rfl valid
    have checked := validateIssue_checked valid
    obtain ⟨title, set⟩ := clean ⟨_, valid⟩
    refine checked.wellFormed title ?_ i.position
    obtain rfl := checked.same
    exact isValidPriority_cases (checked.priority.resolve_left set)
  position _ _ here := { here with }
  status _ _ valid here := { here with status := valid }

/-- Titles of tasks stay well-formed. -/
theorem Sanctioned.task_titles (clean : req.Clean) (sanctioned : Sanctioned host req past w) :
    w.KeepsTasks fun content => WellFormedTitle content.title := by
  cases sanctioned with
  | createTask unwritten entered loaded writable decoded
  | putTask unwritten entered loaded writable decoded =>
      obtain ⟨raw, rfl, valid⟩ := decoded
      have checked := validateTask_checked valid
      have title := wellFormedTitle_of_clean checked.title checked.titleLength (clean ⟨_, valid⟩)
      obtain rfl := checked.same
      exact title
  | putTaskPositions => exact fun _ _ _ here => here
  | session sessions => exact (sessions.keeps WellFormedIssue _).2
  | _ => trivial

/-- **One write of a clean request.** -/
theorem WellFormed.write (clean : req.Clean) (sanctioned : Sanctioned host req past w)
    (witnessed : Witnessed (fun t => Consistent t ∧ WellFormed t) past s)
    (applied : w.apply s = .ok (rows, s')) (wellFormed : WellFormed s) : WellFormed s' := by
  have issues := (keptContent_wellFormed clean).write sanctioned witnessed fun t kept => kept.2.issues
  exact
    { issues := Write.issues_all issues applied wellFormed.issues
      tasks := Write.tasks_all (sanctioned.task_titles clean) applied wellFormed.tasks }

end Writes

/-! ### Runs -/

/-- **Stored issues and tasks are well-formed** in every state of every run of clean requests. -/
theorem stored_well_formed {ι : Type} [DecidableEq ι] {host : Host} {reqs : ι → Request}
    {trace : List (Step ι)} {s : Store} {current : ι → Backend Response}
    (clean : ∀ i, (reqs i).Clean) (run : Serves host reqs trace s current) : WellFormed s :=
  ServesFrom.keeps run createTables_consistent WellFormed createTables_wellFormed
    fun thread _ _ _ _ _ sanctioned witnessed applied _ wellFormed =>
      wellFormed.write (clean thread) sanctioned witnessed applied

/-! ### Bodies that are not clean -/

/-- An issue is created with the given title. -/
def createTitled (title : String) : Fin 2 → Request
  | 0 => bootstrap
  | 1 => .createIssue sampleAdmin (some 1) (.json { title, status := .todo })

def createTitledMoves : List (Fin 2 × Input) :=
  stepsOf 0 9 { instant := 1, text := some "bcrypt:correct horse 7!" } ++ stepsOf 1 9 { instant := 2 }

theorem stored_well_formed_bold :
    WellFormed (execute sampleHost (createTitled " <b>Crash</b>\n") createTitledMoves).store := by
  refine stored_well_formed (fun i => ?_) (Serves.of_moves sampleHost _ createTitledMoves)
  match i with
  | 0 => exact trivial
  | 1 => exact fun _ => show trimSpace (sanitizeString _) = sanitizeString _ from by decide +kernel

/-- **A title is stored with white space at its start**, since `sanitizeString` trims it before it strips
the tags. -/
theorem stored_untrimmed :
    ¬ ∀ (host : Host) (reqs : Fin 2 → Request) (trace : List (Step (Fin 2))) (s : Store)
      (current : Fin 2 → Backend Response), Serves host reqs trace s current → WellFormed s := by
  intro claim
  have wellFormed := claim _ _ _ _ _
    (Serves.of_moves sampleHost (createTitled "<b> Crash") createTitledMoves)
  have stored : ((execute sampleHost (createTitled "<b> Crash") createTitledMoves).store.issues.get?
      1).map (·.title) = some " Crash" := by decide +kernel
  obtain ⟨row, found, title⟩ := Option.map_eq_some_iff.mp stored
  have first := (wellFormed.issues 1 row found).title.first ' '
  rw [show row.toIssueColumns.content.title = " Crash" from title] at first
  exact absurd (first rfl) (by decide)

end Wuflow

/-
**Facts about the content of every issue and every task.**

`IssueContent` and `TaskContent` are the columns that clients write. `Write.issues_all` and
`Write.tasks_all` say what a write has to show for a fact about them to hold of every row after it: that
the fact holds of the row it inserts or the columns it sets, and that it survives the position or the
status that it changes. No other write touches the content.
-/

import Wuflow.Store.Evolution

namespace Wuflow

open Calendar (Instant)
open Relational (Table)

/-- The content of an issue. -/
structure IssueContent where
  title : String
  description : String
  status : IssueStatus
  position : Int
  plannedDates : Option (List String)
  priority : IssuePriority

def IssueColumns.content (cols : IssueColumns) : IssueContent :=
  ⟨cols.title, cols.description, cols.status, cols.position, cols.plannedDates, cols.priority⟩

/-- The content of a task. -/
structure TaskContent where
  title : String
  position : Int

def TaskRow.content (row : TaskRow) : TaskContent := ⟨row.title, row.position⟩

/-- The fact holds of every issue. -/
def Store.IssuesAll (s : Store) (fact : IssueContent → Prop) : Prop :=
  s.issues.All fun row => fact row.content

/-- The fact holds of every task. -/
def Store.TasksAll (s : Store) (fact : TaskContent → Prop) : Prop :=
  s.tasks.All fun row => fact row.content

/-- A reorder keeps what the positions it sets keep. -/
theorem applyPositionUpdates_all {ρ : Type} {fact : ρ → Prop} {scope : ρ → Bool}
    {setPosition : Int → ρ → ρ} {notFound : Err} {updates : List PositionUpdate} {t t' : Table ρ}
    (sets : ∀ u ∈ updates, ∀ row, fact row → fact (setPosition u.position row))
    (applied : applyPositionUpdates scope setPosition notFound updates t = .ok t')
    (all : t.All fact) : t'.All fact := by
  induction updates generalizing t with
  | nil =>
      cases applied
      exact all
  | cons u updates ih =>
      obtain ⟨_, rest⟩ := require_bind_ok.mp applied
      exact ih (fun u' member => sets u' (List.mem_cons_of_mem _ member)) rest
        (all.update fun _ row _ => sets u List.mem_cons_self row)

/-- Clearing a reference keeps what the cleared row keeps. -/
theorem setNull_all {ρ : Type} {fact : ρ → Prop} {t : Table ρ} {deleted : Int → Bool}
    {reference : ρ → Option Int} {clear : ρ → ρ} (clears : ∀ row, fact row → fact (clear row))
    (all : t.All fact) : (setNull t deleted reference clear).All fact :=
  all.update fun _ row _ => clears row

/-- What a write has to show for a fact to hold of every issue after it. -/
def Write.KeepsIssues (fact : IssueContent → Prop) : Write → Prop
  | .insertIssue row => fact row.content
  | .updateIssue _ cols => fact cols.content
  | .updateIssuePosition _ position => ∀ content, fact content → fact { content with position }
  | .updateIssuePositions _ updates =>
      ∀ u ∈ updates, ∀ content, fact content → fact { content with position := u.position }
  | .archiveDone _ _ => ∀ content, fact content → fact { content with status := .archive }
  | _ => True

/-- What a write has to show for a fact to hold of every task after it. -/
def Write.KeepsTasks (fact : TaskContent → Prop) : Write → Prop
  | .insertTask row => fact row.content
  | .updateTask _ _ row => fact row.content
  | .updateTaskPositions _ updates =>
      ∀ u ∈ updates, ∀ content, fact content → fact { content with position := u.position }
  | _ => True

section Writes

variable {w : Write} {s s' : Store} {rows : Int}

/-- **A fact about every issue.** -/
theorem Write.issues_all {fact : IssueContent → Prop} (keeps : w.KeepsIssues fact)
    (applied : w.apply s = .ok (rows, s')) (all : s.IssuesAll fact) : s'.IssuesAll fact := by
  cases w with
  | insertIssue =>
      obtain ⟨_, rest⟩ := require_bind_ok.mp applied
      cases rest
      exact all.insert keeps
  | updateIssue =>
      obtain ⟨_, rest⟩ := require_bind_ok.mp applied
      cases rest
      exact all.update fun _ _ _ _ => keeps
  | updateIssuePosition =>
      cases applied
      exact all.update fun _ row _ => keeps row.content
  | updateIssuePositions =>
      obtain ⟨issues, rfl, moved⟩ := updateIssuePositions_cases applied
      exact applyPositionUpdates_all (fun u member row => keeps u member row.content) moved all
  | archiveDone =>
      cases applied
      exact all.update fun _ row _ => keeps row.content
  | deleteIssue =>
      cases applied
      split
      · exact all
      · exact all.delete
  | deleteLabel =>
      cases applied
      exact setNull_all (fun _ holds => holds) all
  | deleteRelease =>
      cases applied
      exact setNull_all (fun _ holds => holds) all
  | deleteProject =>
      obtain ⟨_, rest⟩ := require_bind_ok.mp applied
      cases rest
      split
      · exact all
      · exact setNull_all (fun _ holds => holds) (setNull_all (fun _ holds => holds) all)
  | deleteUser =>
      obtain ⟨_, rest⟩ := require_bind_ok.mp applied
      obtain ⟨_, rest⟩ := require_bind_ok.mp rest
      obtain ⟨_, rest⟩ := require_bind_ok.mp rest
      cases rest
      exact setNull_all (fun _ holds => holds) (setNull_all (fun _ holds => holds)
        (setNull_all (fun _ holds => holds) (all.update fun _ _ _ holds => holds)))
  | seedStatusConfig =>
      obtain ⟨_, rfl⟩ := seedStatusConfig_cases applied
      exact all
  | updateTaskPositions =>
      obtain ⟨_, rfl⟩ := updateTaskPositions_cases applied
      exact all
  | insertTask | insertHistory | insertComment | insertLabel | insertProject | upsertStatusConfig
  | updateProject | insertUser | updateUser | insertSession =>
      obtain ⟨_, rest⟩ := require_bind_ok.mp applied
      cases rest
      exact all
  | insertRelease | updateRelease =>
      obtain ⟨_, rest⟩ := require_bind_ok.mp applied
      obtain ⟨_, rest⟩ := require_bind_ok.mp rest
      cases rest
      exact all
  | _ =>
      cases applied
      exact all

/-- **A fact about every task.** -/
theorem Write.tasks_all {fact : TaskContent → Prop} (keeps : w.KeepsTasks fact)
    (applied : w.apply s = .ok (rows, s')) (all : s.TasksAll fact) : s'.TasksAll fact := by
  cases w with
  | insertTask =>
      obtain ⟨_, rest⟩ := require_bind_ok.mp applied
      cases rest
      exact all.insert keeps
  | updateTask =>
      cases applied
      exact all.update fun _ _ _ _ => keeps
  | updateTaskPositions =>
      obtain ⟨tasks, moved, rest⟩ := bind_ok.mp applied
      cases rest
      exact applyPositionUpdates_all (fun u member row => keeps u member row.content) moved all
  | deleteTask =>
      cases applied
      exact all.delete
  | deleteIssue =>
      cases applied
      split
      · exact all
      · exact all.delete
  | deleteProject =>
      obtain ⟨_, rest⟩ := require_bind_ok.mp applied
      cases rest
      split
      · exact all
      · exact all
  | deleteUser =>
      obtain ⟨_, rest⟩ := require_bind_ok.mp applied
      obtain ⟨_, rest⟩ := require_bind_ok.mp rest
      obtain ⟨_, rest⟩ := require_bind_ok.mp rest
      cases rest
      exact all
  | seedStatusConfig =>
      obtain ⟨_, rfl⟩ := seedStatusConfig_cases applied
      exact all
  | updateIssuePositions =>
      obtain ⟨_, rfl, _⟩ := updateIssuePositions_cases applied
      exact all
  | insertIssue | updateIssue | insertHistory | insertComment | insertLabel | insertProject
  | upsertStatusConfig | updateProject | insertUser | updateUser | insertSession =>
      obtain ⟨_, rest⟩ := require_bind_ok.mp applied
      cases rest
      exact all
  | insertRelease | updateRelease =>
      obtain ⟨_, rest⟩ := require_bind_ok.mp applied
      obtain ⟨_, rest⟩ := require_bind_ok.mp rest
      cases rest
      exact all
  | _ =>
      cases applied
      exact all

end Writes

end Wuflow

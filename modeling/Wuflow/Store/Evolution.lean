/-
**What a write never undoes.**

* `Write.exec_cases` — a write fails and leaves the store as it is, or it succeeds with `Write.apply`.
* `Store.Evolves` — no write gives a key out twice, a label never changes, a release keeps its project,
  a session keeps its user and its token. True of every write (`Write.evolves`), hence of every stretch
  of a run.
-/

import Wuflow.Store.Statements

namespace Wuflow

open Calendar (Instant)
open Relational (Table)

/-! ### Constraints and failures -/

theorem require_bind_true {α : Type} {holds : Bool} {violated : Err} {f : Unit → Except Err α}
    (here : holds = true) : (require holds violated >>= f) = f () := by
  rw [here]
  rfl

theorem require_bind_false {α : Type} {holds : Bool} {violated : Err} {f : Unit → Except Err α}
    (here : holds = false) : (require holds violated >>= f) = .error violated := by
  rw [here]
  rfl

theorem require_bind_ok {α : Type} {holds : Bool} {violated : Err} {f : Unit → Except Err α}
    {result : α} :
    (require holds violated >>= f) = .ok result ↔ holds = true ∧ f () = .ok result := by
  cases holds with
  | true =>
      constructor
      · exact fun same => ⟨rfl, same⟩
      · exact fun both => both.2
  | false =>
      constructor
      · exact fun same => nomatch same
      · exact fun both => nomatch both.1

theorem bind_ok {ε α β : Type} {x : Except ε α} {f : α → Except ε β} {result : β} :
    (x >>= f) = .ok result ↔ ∃ value, x = .ok value ∧ f value = .ok result := by
  cases x with
  | ok value =>
      constructor
      · exact fun same => ⟨value, rfl, same⟩
      · rintro ⟨_, ⟨⟩, same⟩
        exact same
  | error err =>
      constructor
      · exact fun same => nomatch same
      · rintro ⟨_, ⟨⟩, _⟩

/-- A write fails without a trace, or succeeds with its effect. -/
theorem Write.exec_cases {w : Write} {s s' : Store} {answer : Except Err Int}
    (here : w.exec s = (answer, s')) :
    (∃ rows, answer = .ok rows ∧ w.apply s = .ok (rows, s')) ∨ ∃ err, answer = .error err ∧ s' = s := by
  unfold Write.exec at here
  cases applied : w.apply s with
  | ok result =>
      obtain ⟨rows, after⟩ := result
      rw [applied] at here
      cases here
      exact .inl ⟨rows, rfl, rfl⟩
  | error err =>
      rw [applied] at here
      cases here
      exact .inr ⟨err, rfl, rfl⟩

theorem Write.exec_of_ok {w : Write} {s s' : Store} {rows : Int}
    (applied : w.apply s = .ok (rows, s')) : w.exec s = (.ok rows, s') := by
  unfold Write.exec
  rw [applied]

theorem Write.exec_of_error {w : Write} {s : Store} {err : Err} (failed : w.apply s = .error err) :
    w.exec s = (.error err, s) := by
  unfold Write.exec
  rw [failed]

theorem Write.apply_of_ok {w : Write} {s s' : Store} {rows : Int}
    (here : w.exec s = (.ok rows, s')) : w.apply s = .ok (rows, s') := by
  rcases Write.exec_cases here with ⟨_, same, applied⟩ | ⟨_, same, _⟩
  · cases same
    exact applied
  · cases same

/-! ### Position updates -/

/-- A reorder only sets positions: what `setPosition` keeps, it keeps. -/
theorem applyPositionUpdates_evolves {ρ : Type} {kept : Int → ρ → ρ → Prop}
    (reflexive : ∀ id row, kept id row row)
    (transitive : ∀ id a b c, kept id a b → kept id b c → kept id a c) {scope : ρ → Bool}
    {setPosition : Int → ρ → ρ} (sets : ∀ id position row, kept id row (setPosition position row))
    {notFound : Err} {updates : List PositionUpdate} {t t' : Table ρ}
    (applied : applyPositionUpdates scope setPosition notFound updates t = .ok t') :
    Table.Evolves kept t t' := by
  induction updates generalizing t with
  | nil =>
      cases applied
      exact .refl reflexive _
  | cons u updates ih =>
      obtain ⟨_, rest⟩ := require_bind_ok.mp applied
      refine Table.Evolves.trans transitive ?_ (ih rest)
      exact .update _ _ _ reflexive fun id row _ _ => sets id u.position row

/-- A reorder only touches rows in its scope. -/
theorem applyPositionUpdates_sameOn {ρ : Type} {part : Int → ρ → Prop} {scope : ρ → Bool}
    {setPosition : Int → ρ → ρ}
    (outside : ∀ id position row, scope row = true →
      ¬ part id row ∧ ¬ part id (setPosition position row))
    {notFound : Err} {updates : List PositionUpdate} {t t' : Table ρ}
    (applied : applyPositionUpdates scope setPosition notFound updates t = .ok t') :
    Table.SameOn part t t' := by
  induction updates generalizing t with
  | nil =>
      cases applied
      exact .refl _
  | cons u updates ih =>
      obtain ⟨_, rest⟩ := require_bind_ok.mp applied
      refine Table.SameOn.trans (Table.SameOn.update fun id row _ chosen => ?_) (ih rest)
      rw [Bool.and_eq_true] at chosen
      exact outside id u.position row chosen.2

/-! ### Evolution of the store -/

/-- Anything may have become of a row. -/
def Anyhow {ρ : Type} (_ : Int) (_ _ : ρ) : Prop := True

def SameLabel (_ : Int) (a b : LabelRow) : Prop := a = b

def SameReleaseProject (_ : Int) (a b : ReleaseRow) : Prop := a.projectID = b.projectID

/-- A session keeps its user and its token. -/
def SameSession (_ : Int) (a b : SessionRow) : Prop :=
  a.userID = b.userID ∧ a.sessionToken = b.sessionToken

theorem Anyhow.refl {ρ : Type} (id : Int) (row : ρ) : Anyhow id row row := trivial

theorem SameLabel.refl (id : Int) (row : LabelRow) : SameLabel id row row := rfl

theorem SameReleaseProject.refl (id : Int) (row : ReleaseRow) : SameReleaseProject id row row := rfl

theorem SameLabel.trans (id : Int) (a b c : LabelRow) (first : SameLabel id a b)
    (second : SameLabel id b c) : SameLabel id a c := Eq.trans first second

theorem SameReleaseProject.trans (id : Int) (a b c : ReleaseRow)
    (first : SameReleaseProject id a b) (second : SameReleaseProject id b c) :
    SameReleaseProject id a c := Eq.trans first second

theorem SameSession.refl (id : Int) (row : SessionRow) : SameSession id row row := ⟨rfl, rfl⟩

theorem SameSession.trans (id : Int) (a b c : SessionRow) (first : SameSession id a b)
    (second : SameSession id b c) : SameSession id a c :=
  ⟨first.1.trans second.1, first.2.trans second.2⟩

/-- What every write preserves of the rows under keys given out before it. -/
structure Store.Evolves (s s' : Store) : Prop where
  projects : Table.Evolves Anyhow s.projects s'.projects
  labels : Table.Evolves SameLabel s.labels s'.labels
  releases : Table.Evolves SameReleaseProject s.releases s'.releases
  issues : Table.Evolves Anyhow s.issues s'.issues
  users : Table.Evolves Anyhow s.users s'.users
  sessions : Table.Evolves SameSession s.sessions s'.sessions

namespace Store.Evolves

theorem refl (s : Store) : s.Evolves s where
  projects := .refl Anyhow.refl _
  labels := .refl SameLabel.refl _
  releases := .refl SameReleaseProject.refl _
  issues := .refl Anyhow.refl _
  users := .refl Anyhow.refl _
  sessions := .refl SameSession.refl _

theorem trans {s t u : Store} (first : s.Evolves t) (second : t.Evolves u) : s.Evolves u where
  projects := first.projects.trans (fun _ _ _ _ _ _ => trivial) second.projects
  labels := first.labels.trans SameLabel.trans second.labels
  releases := first.releases.trans SameReleaseProject.trans second.releases
  issues := first.issues.trans (fun _ _ _ _ _ _ => trivial) second.issues
  users := first.users.trans (fun _ _ _ _ _ _ => trivial) second.users
  sessions := first.sessions.trans SameSession.trans second.sessions

section Parts

variable {s : Store}

/-! A write of one table. -/

theorem of_projects {t : Table ProjectRow} (part : Table.Evolves Anyhow s.projects t) :
    s.Evolves { s with projects := t } := { refl s with projects := part }

theorem of_labels {t : Table LabelRow} (part : Table.Evolves SameLabel s.labels t) :
    s.Evolves { s with labels := t } := { refl s with labels := part }

theorem of_releases {t : Table ReleaseRow} (part : Table.Evolves SameReleaseProject s.releases t) :
    s.Evolves { s with releases := t } := { refl s with releases := part }

theorem of_issues {t : Table IssueRow} (part : Table.Evolves Anyhow s.issues t) :
    s.Evolves { s with issues := t } := { refl s with issues := part }

theorem of_users {t : Table UserRow} (part : Table.Evolves Anyhow s.users t) :
    s.Evolves { s with users := t } := { refl s with users := part }

theorem of_sessions {t : Table SessionRow} (part : Table.Evolves SameSession s.sessions t) :
    s.Evolves { s with sessions := t } := { refl s with sessions := part }

/-- The other tables. -/
theorem of_others {tasks : Table TaskRow} {history : Table HistoryRow} {comments : Table CommentRow}
    {statusConfig : List StatusConfig} :
    s.Evolves { s with tasks, history, comments, statusConfig } := { refl s with }

end Parts

end Store.Evolves

section Deletes

variable (s : Store)

theorem setNull_evolves {ρ : Type} {kept : Int → ρ → ρ → Prop} (reflexive : ∀ id row, kept id row row)
    {clear : ρ → ρ} (clears : ∀ id row, kept id row (clear row)) (t : Table ρ)
    (deleted : Int → Bool) (reference : ρ → Option Int) :
    Table.Evolves kept t (setNull t deleted reference clear) :=
  .update t _ _ reflexive fun id row _ _ => clears id row

/-- No clearing gives out a key. -/
theorem setNull_anyhow {ρ : Type} (t : Table ρ) (deleted : Int → Bool) (reference : ρ → Option Int)
    (clear : ρ → ρ) : Table.Evolves Anyhow t (setNull t deleted reference clear) :=
  setNull_evolves Anyhow.refl (fun _ _ => trivial) t deleted reference

theorem Store.deleteLabels_evolves (selects : Int → LabelRow → Bool) :
    s.Evolves (s.deleteLabels selects) :=
  { Store.Evolves.refl s with
    labels := .delete SameLabel.refl s.labels selects
    issues := by
      rw [Store.deleteLabels_issues]
      exact setNull_anyhow _ _ _ _ }

theorem Store.deleteReleases_evolves (selects : Int → ReleaseRow → Bool) :
    s.Evolves (s.deleteReleases selects) :=
  { Store.Evolves.refl s with
    releases := .delete SameReleaseProject.refl s.releases selects
    issues := by
      rw [Store.deleteReleases_issues]
      exact setNull_anyhow _ _ _ _ }

theorem Store.deleteProjectRow_evolves (id : Int) : s.Evolves (s.deleteProjectRow id) := by
  refine Store.Evolves.trans (s.deleteLabels_evolves fun _ row => row.projectID == id) ?_
  refine Store.Evolves.trans (Store.deleteReleases_evolves _ fun _ row => row.projectID == id) ?_
  exact { Store.Evolves.refl _ with
    projects := .delete Anyhow.refl s.projects fun key _ => key == id }

theorem Store.deleteIssueRow_evolves (id : Int) : s.Evolves (s.deleteIssueRow id) :=
  { Store.Evolves.refl s with
    issues := .delete Anyhow.refl s.issues fun key _ => key == id }

theorem Store.deleteUserRow_evolves (id : Int) : s.Evolves (s.deleteUserRow id) :=
  { Store.Evolves.refl s with
    users := .delete Anyhow.refl s.users fun key _ => key == id
    sessions := .delete SameSession.refl s.sessions fun _ row => row.userID == id
    releases := by
      rw [Store.deleteUserRow_releases]
      exact .update s.releases _ _ SameReleaseProject.refl fun _ _ _ _ => rfl
    issues := by
      rw [Store.deleteUserRow_issues]
      refine Table.Evolves.trans (fun _ _ _ _ _ _ => trivial) ?_ (setNull_anyhow _ _ _ _)
      exact Table.Evolves.trans (fun _ _ _ _ _ _ => trivial) (setNull_anyhow _ _ _ _)
        (setNull_anyhow _ _ _ _) }

theorem Store.deleteUser_evolves {id rows : Int} {actor : Option Int} {userName : String}
    {now created : Instant} {s' : Store}
    (deleted : s.deleteUser id actor userName now created = .ok (rows, s')) : s.Evolves s' := by
  obtain ⟨_, rest⟩ := require_bind_ok.mp deleted
  obtain ⟨_, rest⟩ := require_bind_ok.mp rest
  obtain ⟨_, rest⟩ := require_bind_ok.mp rest
  cases rest
  refine Store.Evolves.trans ?_ (Store.deleteUserRow_evolves _ id)
  have unassigned : s.Evolves { s with
      issues := s.issues.update (fun _ row => row.assigneeID == some id)
        (IssueRow.unassign actor now) } :=
    .of_issues (.update _ _ _ Anyhow.refl fun _ _ _ _ => trivial)
  exact { unassigned with }

end Deletes

/-- A transaction of position updates. -/
theorem updateIssuePositions_cases {s s' : Store} {projectID rows : Int}
    {updates : List PositionUpdate}
    (applied : (Write.updateIssuePositions projectID updates).apply s = .ok (rows, s')) :
    ∃ issues, s' = { s with issues } ∧
      applyPositionUpdates (fun row : IssueRow => row.projectID == projectID && row.status != .archive)
        IssueRow.setPosition .issueNotFound updates s.issues = .ok issues := by
  obtain ⟨issues, moved, rest⟩ := bind_ok.mp applied
  cases rest
  exact ⟨issues, rfl, moved⟩

theorem updateTaskPositions_cases {s s' : Store} {issueID rows : Int}
    {updates : List PositionUpdate}
    (applied : (Write.updateTaskPositions issueID updates).apply s = .ok (rows, s')) :
    ∃ tasks, s' = { s with tasks } := by
  obtain ⟨tasks, _, rest⟩ := bind_ok.mp applied
  cases rest
  exact ⟨tasks, rfl⟩

theorem seedStatusConfig_cases {s s' : Store} {projectID rows : Int}
    (applied : (Write.seedStatusConfig projectID).apply s = .ok (rows, s')) :
    ∃ statusConfig, s' = { s with statusConfig } := by
  by_cases seeded : (s.statusConfig.any fun cfg => cfg.projectID == projectID) = true
  · have here : (Write.seedStatusConfig projectID).apply s = .ok (0, s) := if_pos seeded
    cases here.symm.trans applied
    exact ⟨s.statusConfig, rfl⟩
  · have here : (Write.seedStatusConfig projectID).apply s = (do
        require (refExists s.projects (some projectID)) .foreignKey
        return (1, { s with
          statusConfig := s.statusConfig ++ [⟨projectID, "Pending", "Working", "", ""⟩] })) :=
      if_neg seeded
    obtain ⟨_, rest⟩ := require_bind_ok.mp (here.symm.trans applied)
    cases rest
    exact ⟨_, rfl⟩

/-- **Every write evolves the store.** -/
theorem Write.evolves {w : Write} {s s' : Store} {rows : Int} (applied : w.apply s = .ok (rows, s')) :
    s.Evolves s' := by
  cases w with
  -- tables that nothing refers to
  | updateTask | deleteTask | updateComment | deleteComment =>
      cases applied
      exact .of_others
  | insertTask | insertHistory | insertComment | upsertStatusConfig =>
      obtain ⟨_, rest⟩ := require_bind_ok.mp applied
      cases rest
      exact .of_others
  | updateTaskPositions =>
      obtain ⟨tasks, rfl⟩ := updateTaskPositions_cases applied
      exact .of_others
  | seedStatusConfig =>
      obtain ⟨statusConfig, rfl⟩ := seedStatusConfig_cases applied
      exact .of_others
  -- issues
  | insertIssue =>
      obtain ⟨_, rest⟩ := require_bind_ok.mp applied
      cases rest
      exact .of_issues (.insert Anyhow.refl _ _)
  | updateIssue =>
      obtain ⟨_, rest⟩ := require_bind_ok.mp applied
      cases rest
      exact .of_issues (.update _ _ _ Anyhow.refl fun _ _ _ _ => trivial)
  | updateIssuePosition | archiveDone =>
      cases applied
      exact .of_issues (.update _ _ _ Anyhow.refl fun _ _ _ _ => trivial)
  | updateIssuePositions =>
      obtain ⟨issues, rfl, moved⟩ := updateIssuePositions_cases applied
      exact .of_issues (applyPositionUpdates_evolves Anyhow.refl (fun _ _ _ _ _ _ => trivial)
        (fun _ _ _ => trivial) moved)
  | deleteIssue id =>
      cases applied
      split
      · exact .refl s
      · exact s.deleteIssueRow_evolves id
  -- projects, labels and releases
  | insertProject =>
      obtain ⟨_, rest⟩ := require_bind_ok.mp applied
      cases rest
      exact .of_projects (.insert Anyhow.refl _ _)
  | updateProject =>
      obtain ⟨_, rest⟩ := require_bind_ok.mp applied
      cases rest
      exact .of_projects (.update _ _ _ Anyhow.refl fun _ _ _ _ => trivial)
  | deleteProject id =>
      obtain ⟨_, rest⟩ := require_bind_ok.mp applied
      cases rest
      split
      · exact .refl s
      · exact s.deleteProjectRow_evolves id
  | insertLabel =>
      obtain ⟨_, rest⟩ := require_bind_ok.mp applied
      cases rest
      exact .of_labels (.insert SameLabel.refl _ _)
  | deleteLabel =>
      cases applied
      exact s.deleteLabels_evolves _
  | insertRelease =>
      obtain ⟨_, rest⟩ := require_bind_ok.mp applied
      obtain ⟨_, rest⟩ := require_bind_ok.mp rest
      cases rest
      exact .of_releases (.insert SameReleaseProject.refl _ _)
  | updateRelease =>
      obtain ⟨_, rest⟩ := require_bind_ok.mp applied
      obtain ⟨_, rest⟩ := require_bind_ok.mp rest
      cases rest
      exact .of_releases (.update _ _ _ SameReleaseProject.refl fun _ _ _ _ => rfl)
  | reopenRelease | closeRelease =>
      cases applied
      exact .of_releases (.update _ _ _ SameReleaseProject.refl fun _ _ _ _ => rfl)
  | deleteRelease =>
      cases applied
      exact s.deleteReleases_evolves _
  -- users and sessions
  | insertUser =>
      obtain ⟨_, rest⟩ := require_bind_ok.mp applied
      cases rest
      exact .of_users (.insert Anyhow.refl _ _)
  | updateUser =>
      obtain ⟨_, rest⟩ := require_bind_ok.mp applied
      cases rest
      exact .of_users (.update _ _ _ Anyhow.refl fun _ _ _ _ => trivial)
  | updateUserLastLogin =>
      cases applied
      exact .of_users (.update _ _ _ Anyhow.refl fun _ _ _ _ => trivial)
  | deleteUser => exact s.deleteUser_evolves applied
  | insertSession =>
      obtain ⟨_, rest⟩ := require_bind_ok.mp applied
      cases rest
      exact .of_sessions (.insert SameSession.refl _ _)
  | updateSession =>
      cases applied
      exact .of_sessions (.update _ _ _ SameSession.refl fun _ _ _ _ => ⟨rfl, rfl⟩)
  | deleteSession | deleteSessionsByUserID | deleteExpiredSessions =>
      cases applied
      exact .of_sessions (.delete SameSession.refl _ _)

end Wuflow

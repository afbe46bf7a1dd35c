/-
**What a validator has checked when it accepts a value.**

One lemma for each validator whose checks the invariants rest on: `validateIssue_checked`,
`validateTask_checked`, `validatePositionUpdates_checked`.
-/

import Wuflow.Model.Validation

namespace Wuflow

theorem check_bind_ok {β : Type} {holds : Bool} {error : String} {f : Unit → Except String β}
    {result : β} :
    (check holds error >>= f) = .ok result ↔ holds = true ∧ f () = .ok result := by
  cases holds with
  | true =>
      constructor
      · exact fun same => ⟨rfl, same⟩
      · exact fun both => both.2
  | false =>
      constructor
      · exact fun same => nomatch same
      · exact fun both => nomatch both.1

/-- A year check that passes. -/
theorem checkYear_bind_ok {β : Type} {t : Option DateTime} {error : String}
    {f : Unit → Except String β} {result : β} (accepted : (checkYear t error >>= f) = .ok result) :
    (∀ deadline, t = some deadline → 2000 ≤ deadline.year ∧ deadline.year ≤ 2100) ∧
      f () = .ok result := by
  cases t with
  | none => exact ⟨nofun, accepted⟩
  | some deadline =>
      obtain ⟨inside, rest⟩ := check_bind_ok.mp accepted
      rw [Bool.and_eq_true, decide_eq_true_eq, decide_eq_true_eq] at inside
      refine ⟨fun deadline' same => ?_, rest⟩
      cases same
      exact inside

/-- The checks of `validateIssue`. -/
structure IssueChecked (sent i : Issue) : Prop where
  same : i = { sent with
    title := sanitizeString sent.title, description := trimSpace (removeNul sent.description) }
  title : sanitizeString sent.title ≠ ""
  titleLength : (sanitizeString sent.title).length ≤ 100
  descriptionLength : (trimSpace (removeNul sent.description)).length ≤ 5000
  status : isValidStatus sent.status = true
  priority : sent.priority = .unset ∨ isValidPriority sent.priority = true
  position : 0 ≤ sent.position
  deadline : ∀ deadline, sent.deadline = some deadline → 2000 ≤ deadline.year ∧ deadline.year ≤ 2100
  plannedDates : (sent.plannedDates.getD []).length ≤ 100
  dates : (sent.plannedDates.getD []).all isDate = true

theorem validateIssue_checked {sent i : Issue} (valid : validateIssue sent = .ok i) :
    IssueChecked sent i := by
  obtain ⟨title, valid⟩ := check_bind_ok.mp valid
  obtain ⟨titleLength, valid⟩ := check_bind_ok.mp valid
  obtain ⟨descriptionLength, valid⟩ := check_bind_ok.mp valid
  obtain ⟨status, valid⟩ := check_bind_ok.mp valid
  obtain ⟨priority, valid⟩ := check_bind_ok.mp valid
  obtain ⟨position, valid⟩ := check_bind_ok.mp valid
  obtain ⟨deadline, valid⟩ := checkYear_bind_ok valid
  obtain ⟨plannedDates, valid⟩ := check_bind_ok.mp valid
  obtain ⟨dates, valid⟩ := check_bind_ok.mp valid
  exact
    { same := (Except.ok.inj valid).symm
      title := bne_iff_ne.mp title
      titleLength := of_decide_eq_true titleLength
      descriptionLength := of_decide_eq_true descriptionLength
      status
      priority := by
        rw [Bool.or_eq_true, decide_eq_true_eq] at priority
        exact priority
      position := of_decide_eq_true position
      deadline
      plannedDates := of_decide_eq_true plannedDates
      dates }

/-- The checks of `validateTask`. -/
structure TaskChecked (sent t : Task) : Prop where
  same : t = { sent with title := sanitizeString sent.title }
  title : sanitizeString sent.title ≠ ""
  titleLength : (sanitizeString sent.title).length ≤ 100
  position : 0 ≤ sent.position

theorem validateTask_checked {sent t : Task} (valid : validateTask sent = .ok t) :
    TaskChecked sent t := by
  obtain ⟨title, valid⟩ := check_bind_ok.mp valid
  obtain ⟨titleLength, valid⟩ := check_bind_ok.mp valid
  obtain ⟨position, valid⟩ := check_bind_ok.mp valid
  obtain ⟨_, valid⟩ := checkYear_bind_ok valid
  exact
    { same := (Except.ok.inj valid).symm
      title := bne_iff_ne.mp title
      titleLength := of_decide_eq_true titleLength
      position := of_decide_eq_true position }

theorem validatePositionEntries_checked {seen : List Int} {updates : List PositionUpdate}
    (valid : validatePositionEntries seen updates = .ok ()) : ∀ u ∈ updates, 0 ≤ u.position := by
  induction updates generalizing seen with
  | nil => exact fun _ member => absurd member List.not_mem_nil
  | cons first rest ih =>
      obtain ⟨_, valid⟩ := check_bind_ok.mp valid
      obtain ⟨position, valid⟩ := check_bind_ok.mp valid
      obtain ⟨_, valid⟩ := check_bind_ok.mp valid
      intro u member
      rcases List.mem_cons.mp member with rfl | member
      · exact of_decide_eq_true position
      · exact ih valid u member

/-- No id is listed twice, and none has been seen before. -/
theorem validatePositionEntries_distinct {seen : List Int} {updates : List PositionUpdate}
    (valid : validatePositionEntries seen updates = .ok ()) :
    (updates.map PositionUpdate.id).Nodup ∧ ∀ u ∈ updates, u.id ∉ seen := by
  induction updates generalizing seen with
  | nil => exact ⟨List.nodup_nil, nofun⟩
  | cons first rest ih =>
      obtain ⟨_, valid⟩ := check_bind_ok.mp valid
      obtain ⟨_, valid⟩ := check_bind_ok.mp valid
      obtain ⟨fresh, valid⟩ := check_bind_ok.mp valid
      obtain ⟨distinct, unseen⟩ := ih valid
      refine ⟨List.nodup_cons.mpr ⟨fun again => ?_, distinct⟩, fun u member => ?_⟩
      · obtain ⟨u, member, same⟩ := List.mem_map.mp again
        exact unseen u member (same ▸ List.mem_cons_self)
      · rcases List.mem_cons.mp member with rfl | member
        · simpa using fresh
        · exact fun inside => unseen u member (List.mem_cons_of_mem _ inside)

/-- A reorder request is not normalised, its positions are not negative and its ids distinct. -/
theorem validatePositionUpdates_checked {sent updates : List PositionUpdate}
    (valid : validatePositionUpdates sent = .ok updates) :
    updates = sent ∧ (∀ u ∈ updates, 0 ≤ u.position) ∧ (updates.map PositionUpdate.id).Nodup := by
  obtain ⟨_, valid⟩ := check_bind_ok.mp valid
  obtain ⟨_, valid⟩ := check_bind_ok.mp valid
  cases entries : validatePositionEntries [] sent with
  | error message =>
      simp only [entries] at valid
      exact nomatch valid
  | ok _ =>
      simp only [entries] at valid
      cases valid
      exact ⟨rfl, validatePositionEntries_checked entries, (validatePositionEntries_distinct entries).1⟩

end Wuflow

/-
**What a write can do to releases.**

* `Write.releases_cases` inverts all writes as far as the table of releases is concerned.
* `Write.release_status` — what it does to the status of one release: only `closeRelease` closes it, only
  `reopenRelease` opens it, and each leaves the release in the state it is named after.
-/

import Wuflow.Store.IssueSteps

namespace Wuflow

open Calendar (Instant)
open Relational (Table)

section Cases

variable {w : Write} {s s' : Store} {rows : Int}

/-- **What a write can do to releases.** -/
theorem Write.releases_cases (applied : w.apply s = .ok (rows, s')) :
    (∃ row, w = .insertRelease row ∧ s'.releases = s.releases.insert row) ∨
    (∃ id now, w = .closeRelease id now ∧
      rows = s.releases.count (fun key row => key == id && row.status == .open) ∧
      s'.releases = s.releases.update (fun key row => key == id && row.status == .open)
        fun row => { row with status := .closed, closedAt := some now, updatedAt := now }) ∨
    (∃ id now, w = .reopenRelease id now ∧
      s'.releases = s.releases.update (fun key row => key == id && row.status == .closed)
        fun row => { row with status := .open, closedAt := none, updatedAt := now }) ∨
    ((∀ id now, w ≠ .closeRelease id now ∧ w ≠ .reopenRelease id now) ∧
      (s'.releases = s.releases ∨
        (∃ selects change, (∀ row, (change row).status = row.status) ∧
          s'.releases = s.releases.update selects change) ∨
        ∃ selects, s'.releases = s.releases.delete selects)) := by
  have others : (∀ id now, w ≠ .closeRelease id now ∧ w ≠ .reopenRelease id now) ∨
      (∃ id now, w = .closeRelease id now) ∨ ∃ id now, w = .reopenRelease id now := by
    cases w with
    | closeRelease id now => exact .inr (.inl ⟨id, now, rfl⟩)
    | reopenRelease id now => exact .inr (.inr ⟨id, now, rfl⟩)
    | _ => exact .inl fun _ _ => ⟨nofun, nofun⟩
  rcases others with others | ⟨id, now, rfl⟩ | ⟨id, now, rfl⟩
  · cases w with
    | closeRelease id now => exact absurd rfl (others id now).1
    | reopenRelease id now => exact absurd rfl (others id now).2
    | insertIssue | insertTask | insertHistory | insertComment | upsertStatusConfig | insertProject
    | insertLabel | updateProject | updateIssue | insertSession | insertUser | updateUser =>
        obtain ⟨_, rest⟩ := require_bind_ok.mp applied
        cases rest
        exact .inr (.inr (.inr ⟨others, .inl rfl⟩))
    | insertRelease row =>
        obtain ⟨_, rest⟩ := require_bind_ok.mp applied
        obtain ⟨_, rest⟩ := require_bind_ok.mp rest
        cases rest
        exact .inl ⟨row, rfl, rfl⟩
    | updateRelease id r =>
        obtain ⟨_, rest⟩ := require_bind_ok.mp applied
        obtain ⟨_, rest⟩ := require_bind_ok.mp rest
        cases rest
        exact .inr (.inr (.inr ⟨others, .inr (.inl ⟨fun key _ => key == id, fun row =>
          { row with
            name := r.name, description := r.description, startDate := r.startDate,
            releaseDate := r.releaseDate, ownerID := r.ownerID, updatedAt := r.updatedAt },
          fun _ => rfl, rfl⟩)⟩))
    | updateIssuePositions =>
        obtain ⟨issues, rfl, _⟩ := updateIssuePositions_cases applied
        exact .inr (.inr (.inr ⟨others, .inl rfl⟩))
    | updateTaskPositions =>
        obtain ⟨tasks, rfl⟩ := updateTaskPositions_cases applied
        exact .inr (.inr (.inr ⟨others, .inl rfl⟩))
    | seedStatusConfig =>
        obtain ⟨statusConfig, rfl⟩ := seedStatusConfig_cases applied
        exact .inr (.inr (.inr ⟨others, .inl rfl⟩))
    | deleteIssue =>
        cases applied
        refine .inr (.inr (.inr ⟨others, .inl ?_⟩))
        split <;> rfl
    | deleteProject project =>
        obtain ⟨_, rest⟩ := require_bind_ok.mp applied
        cases rest
        refine .inr (.inr (.inr ⟨others, ?_⟩))
        split
        · exact .inl rfl
        · exact .inr (.inr ⟨fun _ row => row.projectID == project, rfl⟩)
    | deleteRelease release =>
        cases applied
        exact .inr (.inr (.inr ⟨others, .inr (.inr ⟨fun key _ => key == release, rfl⟩)⟩))
    | deleteUser =>
        obtain ⟨_, rest⟩ := require_bind_ok.mp applied
        obtain ⟨_, rest⟩ := require_bind_ok.mp rest
        obtain ⟨_, rest⟩ := require_bind_ok.mp rest
        cases rest
        refine .inr (.inr (.inr ⟨others, .inr (.inl ⟨_, _, ?_, Store.deleteUserRow_releases _ _⟩)⟩))
        exact fun _ => rfl
    | _ =>
        cases applied
        exact .inr (.inr (.inr ⟨others, .inl rfl⟩))
  · cases applied
    exact .inr (.inl ⟨id, now, rfl, rfl, rfl⟩)
  · cases applied
    exact .inr (.inr (.inl ⟨id, now, rfl, rfl⟩))

/-- **The status of a release after a write.** -/
theorem Write.release_status (applied : w.apply s = .ok (rows, s')) {id : Int} {row' : ReleaseRow}
    (found : s'.releases.get? id = some row') :
    (∃ row, w = .insertRelease row ∧ id = s.releases.nextId) ∨
    ∃ row, s.releases.get? id = some row ∧
      ((∃ now, w = .closeRelease id now ∧ row'.status = .closed ∧
          (row.status = .open → rows ≠ 0)) ∨
        (∃ now, w = .reopenRelease id now ∧ row'.status = .open) ∨
        ((∀ now, w ≠ .closeRelease id now ∧ w ≠ .reopenRelease id now) ∧
          row'.status = row.status)) := by
  rcases Write.releases_cases applied with ⟨row, rfl, same⟩ | ⟨key, now, rfl, counted, same⟩ |
    ⟨key, now, rfl, same⟩ | ⟨others, same | ⟨selects, change, kept, same⟩ | ⟨selects, same⟩⟩
  · rw [same, Table.get?_insert] at found
    split at found
    · exact .inl ⟨row, rfl, ‹_›⟩
    · exact .inr ⟨row', found, .inr (.inr ⟨fun _ => ⟨nofun, nofun⟩, rfl⟩)⟩
  · rw [same] at found
    obtain ⟨row, here, outcome⟩ := update_found found
    refine .inr ⟨row, here, ?_⟩
    by_cases named : key = id
    · subst named
      refine .inl ⟨now, rfl, ?_, fun open_ none => ?_⟩
      · rcases outcome with ⟨_, rfl⟩ | ⟨spared, rfl⟩
        · rfl
        · rw [beq_self_eq_true, Bool.true_and, beq_eq_false_iff_ne] at spared
          cases status : row'.status with
          | «open» => exact absurd status spared
          | closed => rfl
      · have spared := Table.count_eq_zero_iff.mp (counted.symm.trans none) key row here
        rw [open_, beq_self_eq_true] at spared
        exact absurd spared (by simp)
    · refine .inr (.inr ⟨fun now' => ⟨?_, nofun⟩, ?_⟩)
      · rintro ⟨⟩
        exact named rfl
      · rcases outcome with ⟨chosen, _⟩ | ⟨_, rfl⟩
        · rw [Bool.and_eq_true, beq_iff_eq] at chosen
          exact absurd chosen.1.symm named
        · rfl
  · rw [same] at found
    obtain ⟨row, here, outcome⟩ := update_found found
    refine .inr ⟨row, here, ?_⟩
    by_cases named : key = id
    · subst named
      refine .inr (.inl ⟨now, rfl, ?_⟩)
      rcases outcome with ⟨_, rfl⟩ | ⟨spared, rfl⟩
      · rfl
      · rw [beq_self_eq_true, Bool.true_and, beq_eq_false_iff_ne] at spared
        cases status : row'.status with
        | «open» => rfl
        | closed => exact absurd status spared
    · refine .inr (.inr ⟨fun now' => ⟨nofun, ?_⟩, ?_⟩)
      · rintro ⟨⟩
        exact named rfl
      · rcases outcome with ⟨chosen, _⟩ | ⟨_, rfl⟩
        · rw [Bool.and_eq_true, beq_iff_eq] at chosen
          exact absurd chosen.1.symm named
        · rfl
  · rw [same] at found
    exact .inr ⟨row', found, .inr (.inr ⟨others id, rfl⟩)⟩
  · rw [same] at found
    obtain ⟨row, here, ⟨_, rfl⟩ | ⟨_, rfl⟩⟩ := update_found found
    · exact .inr ⟨row, here, .inr (.inr ⟨others id, kept row⟩)⟩
    · exact .inr ⟨row', here, .inr (.inr ⟨others id, rfl⟩)⟩
  · rw [same] at found
    exact .inr ⟨row', (Table.get?_delete_eq_some.mp found).1, .inr (.inr ⟨others id, rfl⟩)⟩

end Cases

end Wuflow

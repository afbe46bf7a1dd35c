/-
**The requests that stamp issues obey the discipline.**

One lemma for each loud database function and each loud handler, in the order in which the handler runs
its steps.
-/

import Wuflow.Requests.Discipline

namespace Wuflow

open Calendar (Instant)
open Interleave (Prog Entry Fresh)
open Interleave.Stopping (Asks Obeys)

section Handlers

variable {host : Host} {req : Request} {past : Past}

/-! ### Issue writes -/

theorem createIssue_disciplined {i : Issue} (label : VouchedLabel past (i.label.map (·.id)) i.projectID)
    (release : VouchedRelease past i.releaseID i.projectID) :
    Disciplined host req past (fun _ _ => True) (createIssue i) := by
  refine Disciplined.after (select_asks trivial) fun later maxPos suffix => ?_
  refine Disciplined.bind (Disciplined.ask (by exact trivial)) fun _ updatedAt here => ?_
  subst here
  have extends_ := suffix.trans (List.suffix_cons ⟨.now, updatedAt⟩ later)
  refine Disciplined.bind (Disciplined.exec ?_) fun _ _ _ => Obeys.pure trivial
  exact ⟨⟨label.mono extends_, release.mono extends_⟩, Fresh.here rfl⟩

theorem updateIssue_disciplined {i : Issue} (label : VouchedLabel past (i.label.map (·.id)) i.projectID)
    (release : VouchedRelease past i.releaseID i.projectID) :
    Disciplined host req past (fun _ _ => True) (updateIssue i) := by
  refine Disciplined.bind (Disciplined.ask (by exact trivial)) fun _ updatedAt here => ?_
  subst here
  have extends_ := List.suffix_cons ⟨.now, updatedAt⟩ past
  refine Disciplined.bind (Disciplined.exec ?_) fun _ _ _ => ?_
  · exact ⟨⟨label.mono extends_, release.mono extends_⟩, Fresh.here rfl⟩
  · exact Disciplined.quiet (Asks.bind (checkRowsAffected_asks _ _) fun _ => Asks.pure _)

/-- A loaded issue vouches for its own label and release. -/
theorem loadIssue_disciplined (id projectID : Int) :
    Disciplined host req past
      (fun later issue => VouchedLabel later (issue.label.map (·.id)) issue.projectID ∧
        VouchedRelease later issue.releaseID issue.projectID)
      (loadIssue id projectID) := by
  have read : Disciplined host req past
      (fun later found => ∀ issue, found = some issue →
        VouchedLabel later (issue.label.map (·.id)) issue.projectID ∧
          VouchedRelease later issue.releaseID issue.projectID)
      (getIssueByIDInProject id projectID) := by
    refine Disciplined.bind (Disciplined.select _) fun _ found here => ?_
    subst here
    cases found with
    | none =>
        unfold attachTasks
        exact Obeys.pure fun issue same => nomatch same
    | some issue =>
        unfold attachTasks
        refine Disciplined.after (select_asks trivial) fun later tasks suffix => Obeys.pure ?_
        rintro _ ⟨⟩
        have member := suffix.subset List.mem_cons_self
        exact ⟨fun l same => ⟨_, member, issue, rfl, same, rfl⟩,
          fun r same => ⟨_, member, issue, rfl, same, rfl⟩⟩
  refine Disciplined.bind (Disciplined.orFail read _) fun later found holds => ?_
  refine Disciplined.weaken (Disciplined.orRespond _ _) ?_
  rintro _ issue ⟨rfl, same⟩
  exact holds issue same

/-! ### Reference checks -/

theorem checkLabel_disciplined (i : Issue) :
    Disciplined host req past
      (fun later _ => VouchedLabel later (i.label.map (·.id)) i.projectID ∧ past <:+ later)
      (checkLabel i) := by
  unfold checkLabel
  cases carried : i.label with
  | none => exact Obeys.pure ⟨(fun _ same => nomatch same), List.suffix_refl _⟩
  | some label =>
      refine Disciplined.bind (Disciplined.orFail (Disciplined.select _) _)
        fun _ found here => ?_
      subst here
      refine Disciplined.weaken (Disciplined.ensure _ _) ?_
      rintro _ _ ⟨rfl, rfl⟩
      refine ⟨?_, List.suffix_cons _ _⟩
      rintro _ ⟨⟩
      exact ⟨_, List.mem_cons_self, rfl, rfl, rfl⟩

theorem checkRelease_disciplined (i : Issue) :
    Disciplined host req past
      (fun later _ => VouchedRelease later i.releaseID i.projectID ∧ past <:+ later)
      (checkRelease i) := by
  unfold checkRelease
  cases carried : i.releaseID with
  | none => exact Obeys.pure ⟨(fun _ same => nomatch same), List.suffix_refl _⟩
  | some release =>
      refine Disciplined.bind (Disciplined.orFail (Disciplined.select _) _)
        fun _ found here => ?_
      subst here
      refine Disciplined.weaken (Disciplined.ensure _ _) ?_
      rintro _ _ ⟨rfl, rfl⟩
      refine ⟨?_, List.suffix_cons _ _⟩
      rintro _ ⟨⟩
      exact ⟨_, List.mem_cons_self, rfl, rfl, rfl⟩

/-- All three checks, and what they vouch for. -/
theorem checkReferences_disciplined {α : Type} {post : Past → α → Prop} (i : Issue)
    (current : Option Issue) {rest : Handler α}
    (continues : ∀ later, VouchedLabel later (i.label.map (·.id)) i.projectID →
      VouchedRelease later i.releaseID i.projectID → Disciplined host req later post rest) :
    Disciplined host req past post (do
      checkAssignee i current
      checkLabel i
      checkRelease i
      rest) := by
  refine Disciplined.after (checkAssignee_asks quiet_read i current) fun checked _ _ => ?_
  refine Disciplined.bind (checkLabel_disciplined i) fun middle _ label => ?_
  refine Disciplined.bind (checkRelease_disciplined i) fun later _ release => ?_
  exact continues later (label.1.mono release.2) release.1

/-! ### Issue handlers -/

theorem handleCreateIssue_disciplined (caller : Caller) (body : Body Issue) (projectID : Int) :
    Disciplined host req past (fun _ _ => True) (handleCreateIssue caller body projectID) := by
  refine Disciplined.after (decodeAndValidate_asks _ _) fun _ i _ => ?_
  refine checkReferences_disciplined _ none fun later label release => ?_
  refine Disciplined.bind (Disciplined.orFail (createIssue_disciplined label release) _) ?_
  intro _ created _
  refine Disciplined.quiet (Asks.bind (orInternal_asks (getIssueByID_asks quiet_read _)) fun _ => ?_)
  exact Asks.bind (Asks.lift (recordHistory_quiet _ _ _ _)) fun _ => Asks.pure _

theorem persistIssueUpdate_disciplined {i : Issue} (current : Issue)
    (label : VouchedLabel past (i.label.map (·.id)) i.projectID)
    (release : VouchedRelease past i.releaseID i.projectID) :
    Disciplined host req past (fun _ _ => True) (persistIssueUpdate i current) := by
  unfold persistIssueUpdate
  by_cases same : issueContentHash i = issueContentHash current
  · rw [if_pos same]
    exact Disciplined.quiet (Asks.ite (orFail_asks (updateIssuePosition_quiet _ _) _) (Asks.pure _))
  · rw [if_neg same]
    refine Disciplined.bind (Disciplined.orFail (updateIssue_disciplined label release) _) ?_
    exact fun _ _ _ => Obeys.pure trivial

theorem handlePutIssue_disciplined (caller : Caller) (ifMatch : String) (body : Body Issue)
    (projectID id : Int) :
    Disciplined host req past (fun _ _ => True)
      (handlePutIssue caller ifMatch body projectID id) := by
  refine Disciplined.after (loadIssue_asks quiet_read _ _) fun _ current _ => ?_
  refine Disciplined.after (checkIfMatchConflict_quiet _ _) fun _ _ _ => ?_
  refine Disciplined.after (decodeAndValidate_asks _ _) fun _ i _ => ?_
  refine checkReferences_disciplined _ _ fun later label release => ?_
  refine Disciplined.bind (Disciplined.ensure _ _) ?_
  rintro _ _ ⟨rfl, _⟩
  refine Disciplined.bind (Disciplined.ensure _ _) ?_
  rintro _ _ ⟨rfl, _⟩
  refine Disciplined.bind (persistIssueUpdate_disciplined current label release) fun _ _ _ => ?_
  refine Disciplined.quiet (Asks.bind (Asks.lift (recordIssueEditHistory_quiet _ _ _)) ?_)
  intro updated
  split
  · exact Asks.pure _
  · exact respondWithUpdatedIssue_asks quiet_read id

theorem handleIssueArchiveToggle_disciplined (caller : Caller) (projectID id : Int)
    (opts : ArchiveToggleOpts) :
    Disciplined host req past (fun _ _ => True)
      (handleIssueArchiveToggle caller projectID id opts) := by
  refine Disciplined.bind (loadIssue_disciplined id projectID) fun later current vouched => ?_
  refine Disciplined.bind (Disciplined.ensure _ _) ?_
  rintro _ _ ⟨rfl, _⟩
  refine Disciplined.bind (Disciplined.orFail (updateIssue_disciplined ?_ ?_) _) fun _ _ _ => ?_
  · exact vouched.1
  · exact vouched.2
  refine Disciplined.quiet (Asks.bind (Asks.lift (recordHistory_quiet _ _ _ _)) fun _ => ?_)
  exact respondWithUpdatedIssue_asks quiet_read id

/-- A move carries neither label nor release. -/
theorem handleMoveIssue_disciplined (caller : Caller) (body : Body MoveIssueRequest)
    (projectID id : Int) :
    Disciplined host req past (fun _ _ => True)
      (handleMoveIssue host caller body projectID id) := by
  refine Disciplined.after (loadIssue_asks quiet_read _ _) fun _ current _ => ?_
  refine Disciplined.after (ensure_asks _ _) fun _ _ _ => ?_
  refine Disciplined.after (decodeAndValidate_asks _ _) fun _ moveReq _ => ?_
  refine Disciplined.after (verifyAdminPasswordOrRespond_asks (fun _ => quiet_read _) _ _ _) fun _ _ _ => ?_
  refine Disciplined.after (orInternal_asks (select_asks trivial)) fun _ _ _ => ?_
  refine Disciplined.after (orRespond_asks _ _) fun later newProject _ => ?_
  refine Disciplined.bind (Disciplined.orFail (updateIssue_disciplined ?_ ?_) _) fun _ _ _ => ?_
  · exact fun _ same => nomatch same
  · exact fun _ same => nomatch same
  exact Disciplined.quiet (Asks.bind (Asks.lift (recordHistory_quiet _ _ _ _)) fun _ => Asks.pure _)

/-! ### Release trigger and user delete -/

theorem triggerRelease_disciplined (id : Int) (archiveDone : Bool) :
    Disciplined host req past (fun _ _ => True) (triggerRelease id archiveDone) := by
  refine Disciplined.bind (Disciplined.ask (by exact trivial)) fun _ now here => ?_
  subst here
  refine Disciplined.bind (Disciplined.exec (by exact trivial)) fun _ rows here => ?_
  subst here
  unfold checkRowsAffected
  by_cases none : rows = 0
  · rw [if_pos none]
    exact Obeys.throw trivial
  · rw [if_neg none]
    cases archiveDone with
    | false => exact Obeys.pure trivial
    | true =>
        refine Disciplined.bind (Disciplined.exec ?_) fun _ _ _ => Obeys.pure trivial
        exact Fresh.cons (fun marked => marked) (Fresh.here rfl)

theorem handleTriggerRelease_disciplined (body : Body TriggerRequest) (projectID id : Int) :
    Disciplined host req past (fun _ _ => True) (handleTriggerRelease body projectID id) := by
  refine Disciplined.after (decodeAndValidate_asks _ _) fun _ triggered _ => ?_
  refine Disciplined.after (loadRelease_asks quiet_read _ _) fun _ _ _ => ?_
  refine Disciplined.bind (Disciplined.orFail (triggerRelease_disciplined id _) _) ?_
  exact fun _ _ _ => Disciplined.quiet (respondWithUpdatedRelease_asks quiet_read id)

theorem deleteUser_disciplined (id actorID : Int) (userName : String) :
    Disciplined host req past (fun _ _ => True) (deleteUser id actorID userName) := by
  refine Disciplined.after (Asks.lift (ask_asks (by exact trivial))) fun _ created _ => ?_
  refine Disciplined.bind (Disciplined.ask (by exact trivial)) fun _ now here => ?_
  subst here
  refine Disciplined.weaken (Disciplined.exec ?_) fun _ _ _ => trivial
  exact Fresh.here rfl

theorem handleDeleteUser_disciplined (caller : Caller) (body : Body AdminPasswordRequest) (id : Int) :
    Disciplined host req past (fun _ _ => True) (handleDeleteUser host caller body id) := by
  refine Disciplined.after (ensure_asks _ _) fun _ _ _ => ?_
  refine Disciplined.after (requireAdminPassword_asks (fun _ => quiet_read _) _ _ _) fun _ _ _ => ?_
  refine Disciplined.after (loadUser_asks quiet_read _) fun _ target _ => ?_
  refine Disciplined.bind (Disciplined.orFail (deleteUser_disciplined _ _ _) _) ?_
  exact fun _ _ _ => Obeys.pure trivial

end Handlers

end Wuflow

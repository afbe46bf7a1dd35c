/-
**The handlers of issues, tasks and comments write only what is sanctioned.**

One lemma for each handler that writes, in the order in which the handler runs its steps.
-/

import Wuflow.Requests.Sanctioning

namespace Wuflow

open Calendar (Instant)
open Interleave (Prog Entry Run)
open Interleave.Stopping (Asks Obeys)

/-! ### Issue handlers -/

section Issues

variable {host : Host} {past : Past} {caller : Caller} {pId : Option Int} {projectID : Int}

theorem handleCreateIssue_sanctioning {body : Body Issue} (unwritten : Unwritten past)
    (entered : Entered caller .createIssue pId past projectID) :
    Sanctioning host (.createIssue caller pId body) past (fun _ _ => True)
      (handleCreateIssue caller body projectID) := by
  refine Sanctioning.bind Sanctioning.decode ?_
  rintro _ i ⟨rfl, decoded⟩
  refine Sanctioning.after (checkAssignee_asks reading_read _ _) unwritten
    fun first _ suffix unwritten => ?_
  replace entered := entered.mono suffix
  refine Sanctioning.after (checkLabel_asks reading_read _) unwritten
    fun second _ suffix unwritten => ?_
  replace entered := entered.mono suffix
  refine Sanctioning.after (checkRelease_asks reading_read _) unwritten
    fun third _ suffix unwritten => ?_
  replace entered := entered.mono suffix
  -- the insert and what is left of the history after it
  have create : Sanctioning host (.createIssue caller pId body) third
      (fun later created => Entered caller .createIssue pId later projectID ∧
        ∃ row, row.projectID = projectID ∧
          (⟨.write (.insertIssue row), .ok created.id⟩ : Entry Query.Answer) ∈ later)
      (createIssue { i with projectID, creatorID := caller.userID, updaterID := some caller.userID }) := by
    refine Sanctioning.bind (Sanctioning.select _) fun _ maxPos here => ?_
    subst here
    refine Sanctioning.bind (Sanctioning.ask (by exact trivial)) fun _ updatedAt here => ?_
    subst here
    have suffix : third <:+ ⟨.now, updatedAt⟩ :: ⟨.read (.maxIssuePosition i.status), .ok maxPos⟩ ::
        third := (List.suffix_cons _ _).trans (List.suffix_cons _ _)
    refine Sanctioning.bind (Sanctioning.exec (.createIssue ?_ (entered.mono suffix) decoded
      (List.mem_cons_of_mem _ List.mem_cons_self))) fun _ id here => ?_
    · exact unwritten.read.now
    subst here
    refine Obeys.pure ⟨entered.mono (suffix.trans (List.suffix_cons _ _)), _, ?_, List.mem_cons_self⟩
    rfl
  refine Sanctioning.bind (Sanctioning.orFail create _) fun later created holds => ?_
  obtain ⟨entered, row, own, inserted⟩ := holds
  refine Sanctioning.recording created.id ?_ fun later row suffix issue => ?_
  · exact Asks.bind (orInternal_asks (getIssueByID_asks (fun _ => trivial) _)) fun _ =>
      Asks.bind (Asks.lift (recordHistory_records _ _ _ _)) fun _ => Asks.pure _
  · exact .createdHistory (entered.mono suffix) (suffix.subset inserted) own issue

/-- The history of an edit records the differences between the issue loaded and the issue read after
the write. -/
theorem recordIssueEditHistory_allowed {ifMatch : String} {body : Body Issue} {id : Int}
    {current : Issue} (entered : Entered caller .updateIssue pId past projectID)
    (loaded : LoadedIssue past id projectID current) :
    (recordIssueEditHistory current id caller.userID).Obeys
      (Query.Allowed host (.putIssue caller pId (some id) ifMatch body)) (fun _ _ => True) past := by
  have changes : ∀ (later : Past) (updated : Issue) (tasks : List Task), past <:+ later →
      (⟨.read (.issueByID id), .ok (some updated)⟩ : Entry Query.Answer) ∈ later →
      ∀ listed, (∀ change ∈ listed, change ∈ diffIssueFields current { updated with tasks }) →
      (recordChanges id caller.userID listed).Obeys
        (Query.Allowed host (.putIssue caller pId (some id) ifMatch body)) (fun _ _ => True) later := by
    intro later updated tasks suffix reread listed changed
    induction listed generalizing later with
    | nil => exact trivial
    | cons change listed ih =>
        refine ⟨trivial, fun created => ⟨?_, fun answer => ?_⟩⟩
        · have suffix' := suffix.trans (List.suffix_cons ⟨.currentTimestamp, created⟩ later)
          exact .editHistory (entered.mono suffix') (loaded.mono suffix')
            (List.mem_cons_of_mem _ reread) (changed change List.mem_cons_self) rfl
        · have suffix' : later <:+ ⟨_, answer⟩ :: ⟨.currentTimestamp, created⟩ :: later :=
            (List.suffix_cons _ _).trans (List.suffix_cons _ _)
          have rest := ih _ (suffix.trans suffix') (suffix'.subset reread) fun change member =>
            changed change (List.mem_cons_of_mem _ member)
          cases answer with
          | ok rows => exact rest
          | error err => exact rest
  unfold recordIssueEditHistory
  -- the differences are not computed here
  generalize diffIssueFields current = differences at changes ⊢
  refine ⟨trivial, fun found => ?_⟩
  cases found with
  | error err => exact trivial
  | ok found =>
      cases found with
      | none => exact trivial
      | some updated =>
          refine ⟨trivial, fun tasks => ?_⟩
          cases tasks with
          | error err => exact trivial
          | ok tasks =>
              refine Prog.Obeys.bind (changes _ updated tasks ?_ ?_ _ fun _ member => member)
                fun _ _ _ => trivial
              · exact (List.suffix_cons _ _).trans (List.suffix_cons _ _)
              · exact List.mem_cons_of_mem _ List.mem_cons_self

theorem persistIssueUpdate_sanctioning {ifMatch : String} {body : Body Issue} {id : Int}
    {current i : Issue} (unwritten : Unwritten past)
    (entered : Entered caller .updateIssue pId past projectID)
    (accepted : PutAccepted caller ifMatch body past projectID id current i) (own : i.id = id) :
    Sanctioning host (.putIssue caller pId (some id) ifMatch body) past
      (fun later _ => past <:+ later) (persistIssueUpdate i current) := by
  subst own
  unfold persistIssueUpdate
  by_cases same : issueContentHash i = issueContentHash current
  · rw [if_pos same]
    by_cases moved : i.position ≠ current.position
    · rw [if_pos moved]
      exact Sanctioning.orFail
        (checkedWrite_sanctioning (.putIssuePosition unwritten entered accepted same moved) _) _
    · rw [if_neg moved]
      exact Obeys.pure (List.suffix_refl past)
  · rw [if_neg same]
    refine Sanctioning.bind (Sanctioning.orFail (updateIssue_sanctioning fun updatedAt => ?_) _)
      fun later _ suffix => Obeys.pure suffix
    have suffix := List.suffix_cons (⟨.now, updatedAt⟩ : Entry Query.Answer) past
    exact .putIssue unwritten.now (entered.mono suffix)
      (accepted.mono suffix) same

theorem handlePutIssue_sanctioning {ifMatch : String} {body : Body Issue} {id : Int}
    (unwritten : Unwritten past) (entered : Entered caller .updateIssue pId past projectID) :
    Sanctioning host (.putIssue caller pId (some id) ifMatch body) past (fun _ _ => True)
      (handlePutIssue caller ifMatch body projectID id) := by
  refine Sanctioning.bind (loadIssue_sanctioning id projectID unwritten) ?_
  rintro first current ⟨suffix, unwritten, loaded⟩
  replace entered := entered.mono suffix
  refine Sanctioning.bind (Sanctioning.ensure _ _) ?_
  rintro _ _ ⟨rfl, version⟩
  refine Sanctioning.bind Sanctioning.decode ?_
  rintro _ sent ⟨rfl, decoded⟩
  refine Sanctioning.after (checkAssignee_asks reading_read _ _) unwritten
    fun second _ suffix unwritten => ?_
  replace entered := entered.mono suffix
  replace loaded := loaded.mono suffix
  refine Sanctioning.after (checkLabel_asks reading_read _) unwritten
    fun third _ suffix unwritten => ?_
  replace entered := entered.mono suffix
  replace loaded := loaded.mono suffix
  refine Sanctioning.after (checkRelease_asks reading_read _) unwritten
    fun fourth _ suffix unwritten => ?_
  replace entered := entered.mono suffix
  replace loaded := loaded.mono suffix
  refine Sanctioning.bind (Sanctioning.ensure _ _) ?_
  rintro _ _ ⟨rfl, writable⟩
  refine Sanctioning.bind (Sanctioning.ensure _ _) ?_
  rintro _ _ ⟨rfl, kept⟩
  refine Sanctioning.bind (persistIssueUpdate_sanctioning unwritten entered
    { loaded, version, sent := ⟨sent, decoded, rfl⟩, writable := bne_iff_ne.mp writable
      kept := bne_iff_ne.mp kept } rfl) fun later _ suffix => ?_
  refine Sanctioning.bind (Obeys.lift (recordIssueEditHistory_allowed (entered.mono suffix)
    (loaded.mono suffix))) fun _ updated _ => ?_
  split
  · exact Obeys.pure trivial
  · exact Sanctioning.ending (respondWithUpdatedIssue_asks reading_read id)

theorem handlePutIssuePositions_sanctioning {body : Body (List PositionUpdate)}
    (unwritten : Unwritten past) (entered : Entered caller .updateIssue pId past projectID) :
    Sanctioning host (.putIssuePositions caller pId body) past (fun _ _ => True)
      (handlePutIssuePositions body projectID) := by
  refine Sanctioning.bind Sanctioning.decode ?_
  rintro past updates ⟨rfl, decoded⟩
  have write : Sanctioning host (.putIssuePositions caller pId body) past (fun _ _ => True)
      (updateIssuePositions projectID updates) :=
    Sanctioning.bind (Sanctioning.exec (.putIssuePositions unwritten entered decoded))
      fun _ _ _ => Obeys.pure trivial
  exact Sanctioning.bind (Sanctioning.orFail write _) fun _ _ _ => Obeys.pure trivial

/-- Archive and unarchive write back the issue they loaded, with the new status. -/
theorem handleIssueArchiveToggle_sanctioning {req : Request} {id : Int} {action : Action}
    {opts : ArchiveToggleOpts} (unwritten : Unwritten past)
    (entered : Entered caller action pId past projectID)
    (records : req.records = some (caller, action, pId, id))
    (sanctioned : ∀ later current updatedAt, Unwritten later →
      Entered caller action pId later projectID → LoadedIssue later id projectID current →
      opts.valid current.status = true → Sanctioned host req later
        (.updateIssue current.id { current with status := opts.newStatus, updatedAt }.columns)) :
    Sanctioning host req past (fun _ _ => True)
      (handleIssueArchiveToggle caller projectID id opts) := by
  refine Sanctioning.bind (loadIssue_sanctioning id projectID unwritten) ?_
  rintro first current ⟨suffix, unwritten, loaded⟩
  replace entered := entered.mono suffix
  refine Sanctioning.bind (Sanctioning.ensure _ _) ?_
  rintro _ _ ⟨rfl, valid⟩
  refine Sanctioning.bind (Sanctioning.orFail (updateIssue_sanctioning fun updatedAt => ?_) _)
    fun later _ suffix => ?_
  · exact sanctioned _ current updatedAt unwritten.now (entered.mono (List.suffix_cons _ _))
      (loaded.mono (List.suffix_cons _ _)) valid
  · refine Sanctioning.recording id ?_ fun later row suffix' own => ?_
    · exact Asks.bind (Asks.lift (recordHistory_records _ _ _ _)) fun _ =>
        respondWithUpdatedIssue_asks (fun _ => trivial) id
    · exact .history records (entered.mono (suffix.trans suffix'))
        (loaded.mono (suffix.trans suffix')) own

theorem handleArchiveIssue_sanctioning {id : Int} (unwritten : Unwritten past)
    (entered : Entered caller .archiveIssue pId past projectID) :
    Sanctioning host (.archiveIssue caller pId (some id)) past (fun _ _ => True)
      (handleArchiveIssue caller projectID id) :=
  handleIssueArchiveToggle_sanctioning unwritten entered rfl
    fun _ _ _ unwritten entered loaded valid =>
      .archiveIssue unwritten entered loaded (bne_iff_ne.mp valid)

theorem handleUnarchiveIssue_sanctioning {id : Int} (unwritten : Unwritten past)
    (entered : Entered caller .unarchiveIssue pId past projectID) :
    Sanctioning host (.unarchiveIssue caller pId (some id)) past (fun _ _ => True)
      (handleUnarchiveIssue caller projectID id) :=
  handleIssueArchiveToggle_sanctioning unwritten entered rfl
    fun _ _ _ unwritten entered loaded valid =>
      .unarchiveIssue unwritten entered loaded (beq_iff_eq.mp valid)

theorem handleMoveIssue_sanctioning {id : Int} {body : Body MoveIssueRequest}
    (unwritten : Unwritten past) (entered : Entered caller .moveIssue pId past projectID) :
    Sanctioning host (.moveIssue caller pId (some id) body) past (fun _ _ => True)
      (handleMoveIssue host caller body projectID id) := by
  refine Sanctioning.bind (loadIssue_sanctioning id projectID unwritten) ?_
  rintro first current ⟨suffix, unwritten, loaded⟩
  replace entered := entered.mono suffix
  refine Sanctioning.bind (Sanctioning.ensure _ _) ?_
  rintro _ _ ⟨rfl, writable⟩
  refine Sanctioning.bind Sanctioning.decode ?_
  rintro _ req ⟨rfl, decoded⟩
  refine Sanctioning.after (verifyAdminPasswordOrRespond_asks (fun _ => reading_read _) _ _ _)
    unwritten fun second _ suffix unwritten => ?_
  replace entered := entered.mono suffix
  replace loaded := loaded.mono suffix
  refine Sanctioning.after (orInternal_asks (select_asks (reading_read _))) unwritten
    fun third found suffix unwritten => ?_
  replace entered := entered.mono suffix
  replace loaded := loaded.mono suffix
  refine Sanctioning.bind (Sanctioning.orRespond _ _) ?_
  rintro _ newProject ⟨rfl, _⟩
  refine Sanctioning.bind (Sanctioning.orFail (updateIssue_sanctioning fun updatedAt => ?_) _)
    fun later _ suffix => ?_
  · show Sanctioned host _ _ (.updateIssue current.id
      { movedIssue caller req.newProjectID current with updatedAt }.columns)
    exact .moveIssue unwritten.now (entered.mono (List.suffix_cons _ _))
      (loaded.mono (List.suffix_cons _ _)) (bne_iff_ne.mp writable) decoded
  · refine Sanctioning.recording id ?_ fun later row suffix' own => ?_
    · exact Asks.bind (Asks.lift (recordHistory_records _ _ _ _)) fun _ => Asks.pure _
    · exact .history rfl (entered.mono (suffix.trans suffix')) (loaded.mono (suffix.trans suffix')) own

theorem handleDeleteIssue_sanctioning {id : Int} {body : Body AdminPasswordRequest}
    (unwritten : Unwritten past) (entered : Entered caller .deleteIssue pId past projectID) :
    Sanctioning host (.deleteIssue caller pId (some id) body) past (fun _ _ => True)
      (handleDeleteIssue host caller body projectID id) := by
  refine Sanctioning.bind (loadIssue_sanctioning id projectID unwritten) ?_
  rintro first issue ⟨suffix, unwritten, loaded⟩
  replace entered := entered.mono suffix
  refine Sanctioning.bind (Sanctioning.ensure _ _) ?_
  rintro _ _ ⟨rfl, writable⟩
  refine Sanctioning.after (requireAdminPassword_asks (fun _ => reading_read _) _ _ _) unwritten
    fun second _ suffix unwritten => ?_
  refine Sanctioning.bind (Sanctioning.orFail (checkedWrite_sanctioning (.deleteIssue unwritten
    (entered.mono suffix) (loaded.mono suffix) (bne_iff_ne.mp writable)) _) _) fun _ _ _ => ?_
  exact Obeys.pure trivial

end Issues

/-! ### Task and comment handlers -/

section Activity

variable {host : Host} {past : Past} {caller : Caller} {pId : Option Int} {projectID issueID : Int}
  {issue : Issue}

theorem ensureNotArchived_sanctioning {req : Request} (message : String) :
    Sanctioning host req past (fun later _ => later = past ∧ issue.status ≠ .archive)
      (ensureNotArchived issue message) :=
  Sanctioning.weaken (Sanctioning.ensure _ _) fun _ _ holds => ⟨holds.1, bne_iff_ne.mp holds.2⟩

/-- What the handlers below an issue record of it. -/
theorem recordHistory_sanctioning {req : Request} {action : Action} {data : ChangeData}
    (entered : Entered caller action pId past projectID)
    (records : req.records = some (caller, action, pId, issueID))
    (loaded : LoadedIssue past issueID projectID issue) :
    Sanctioning host req past (fun _ _ => True)
      (liftM (recordHistory issueID caller.userID .task data) : Handler Unit) :=
  Sanctioning.recording issueID (Asks.lift (recordHistory_records _ _ _ _))
    fun _ _ suffix own => .history records (entered.mono suffix) (loaded.mono suffix) own

theorem handleCreateTask_sanctioning {body : Body Task} (unwritten : Unwritten past)
    (entered : Entered caller .createTask pId past projectID)
    (loaded : LoadedIssue past issueID projectID issue) :
    Sanctioning host (.createTask caller pId (some issueID) body) past (fun _ _ => True)
      (handleCreateTask caller body issueID issue) := by
  refine Sanctioning.bind Sanctioning.decode ?_
  rintro past t ⟨rfl, decoded⟩
  refine Sanctioning.bind (ensureNotArchived_sanctioning _) ?_
  rintro past _ ⟨rfl, writable⟩
  have create : Sanctioning host (.createTask caller pId (some issueID) body) past
      (fun later _ => past <:+ later) (createTask { t with issueID }) := by
    refine Sanctioning.bind (Sanctioning.select _) fun _ found here => ?_
    subst here
    cases found with
    | false => exact Obeys.throw trivial
    | true =>
        refine Sanctioning.bind (Sanctioning.select _) fun _ maxPos here => ?_
        subst here
        refine Sanctioning.bind (Sanctioning.ask (by exact trivial)) fun _ updatedAt here => ?_
        subst here
        have suffix : past <:+ ⟨.now, updatedAt⟩ :: ⟨.read (.maxTaskPosition issueID), .ok maxPos⟩ ::
            ⟨.read (.issueExists issueID), .ok true⟩ :: past :=
          ((List.suffix_cons _ _).trans (List.suffix_cons _ _)).trans (List.suffix_cons _ _)
        refine Sanctioning.bind (Sanctioning.exec (.createTask unwritten.read.read.now
          (entered.mono suffix) (loaded.mono suffix) writable decoded
          (List.mem_cons_of_mem _ List.mem_cons_self))) fun _ id here => ?_
        subst here
        exact Obeys.pure (suffix.trans (List.suffix_cons _ _))
  refine Sanctioning.bind (Sanctioning.orFail create _) fun later created suffix => ?_
  refine Sanctioning.bind (recordHistory_sanctioning (entered.mono suffix) rfl (loaded.mono suffix))
    fun _ _ _ => Obeys.pure trivial

theorem handlePutTask_sanctioning {id : Int} {body : Body Task} (unwritten : Unwritten past)
    (entered : Entered caller .updateTask pId past projectID)
    (loaded : LoadedIssue past issueID projectID issue) :
    Sanctioning host (.putTask caller pId (some issueID) (some id) body) past (fun _ _ => True)
      (handlePutTask caller body issueID id issue) := by
  refine Sanctioning.bind Sanctioning.decode ?_
  rintro past t ⟨rfl, decoded⟩
  refine Sanctioning.bind (ensureNotArchived_sanctioning _) ?_
  rintro past _ ⟨rfl, writable⟩
  have write : Sanctioning host (.putTask caller pId (some issueID) (some id) body) past
      (fun later _ => past <:+ later) (updateTask { t with id, issueID } issueID) := by
    refine Sanctioning.bind (Sanctioning.ask (by exact trivial)) fun _ updatedAt here => ?_
    subst here
    refine Sanctioning.bind (Sanctioning.exec (.putTask unwritten.now
      (entered.mono (List.suffix_cons _ _)) (loaded.mono (List.suffix_cons _ _)) writable decoded))
      fun _ rows here => ?_
    subst here
    refine Sanctioning.weaken (Sanctioning.looking (Asks.bind (checkRowsAffected_asks _ _) fun _ =>
      Asks.pure _)) fun later _ suffix => ?_
    exact ((List.suffix_cons _ _).trans (List.suffix_cons _ _)).trans suffix
  refine Sanctioning.bind (Sanctioning.orFail write _) fun later updated suffix => ?_
  show Sanctioning host _ later _ (do
    if (taskUpdateChange (findIssueTask issue id) updated).field ≠ "" then
      recordHistory issueID caller.userID .task (taskUpdateChange (findIssueTask issue id) updated)
    return _)
  split
  · exact Sanctioning.bind (recordHistory_sanctioning (entered.mono suffix) rfl (loaded.mono suffix))
      fun _ _ _ => Obeys.pure trivial
  · exact Obeys.pure trivial

theorem handlePutTaskPositions_sanctioning {body : Body (List PositionUpdate)}
    (unwritten : Unwritten past) (entered : Entered caller .updateTask pId past projectID)
    (loaded : LoadedIssue past issueID projectID issue) :
    Sanctioning host (.putTaskPositions caller pId (some issueID) body) past (fun _ _ => True)
      (handlePutTaskPositions body issueID issue) := by
  refine Sanctioning.bind Sanctioning.decode ?_
  rintro past updates ⟨rfl, decoded⟩
  refine Sanctioning.bind (ensureNotArchived_sanctioning _) ?_
  rintro past _ ⟨rfl, writable⟩
  have write : Sanctioning host (.putTaskPositions caller pId (some issueID) body) past
      (fun _ _ => True) (updateTaskPositions issueID updates) :=
    Sanctioning.bind (Sanctioning.exec (.putTaskPositions unwritten entered loaded writable decoded))
      fun _ _ _ => Obeys.pure trivial
  exact Sanctioning.bind (Sanctioning.orFail write _) fun _ _ _ => Obeys.pure trivial

theorem handleDeleteTask_sanctioning {id : Int} (unwritten : Unwritten past)
    (entered : Entered caller .deleteTask pId past projectID)
    (loaded : LoadedIssue past issueID projectID issue) :
    Sanctioning host (.deleteTask caller pId (some issueID) (some id)) past (fun _ _ => True)
      (handleDeleteTask caller issueID id issue) := by
  refine Sanctioning.bind (ensureNotArchived_sanctioning _) ?_
  rintro past _ ⟨rfl, writable⟩
  refine Sanctioning.bind (Sanctioning.orFail
    (checkedWrite_sanctioning (.deleteTask unwritten entered loaded writable) _) _)
    fun later _ suffix => ?_
  exact Sanctioning.bind (recordHistory_sanctioning (entered.mono suffix) rfl (loaded.mono suffix))
    fun _ _ _ => Obeys.pure trivial

theorem handleCreateComment_sanctioning {body : Body Comment} (unwritten : Unwritten past)
    (entered : Entered caller .createComment pId past projectID)
    (loaded : LoadedIssue past issueID projectID issue) :
    Sanctioning host (.createComment caller pId (some issueID) body) past (fun _ _ => True)
      (handleCreateComment caller body issueID issue) := by
  refine Sanctioning.bind Sanctioning.decode ?_
  rintro past c ⟨rfl, decoded⟩
  refine Sanctioning.bind (ensureNotArchived_sanctioning _) ?_
  rintro past _ ⟨rfl, writable⟩
  have create : Sanctioning host (.createComment caller pId (some issueID) body) past
      (fun _ _ => True) (createComment { c with issueID, userID := some caller.userID }) := by
    refine Sanctioning.bind (Sanctioning.ask (by exact trivial)) fun _ now here => ?_
    subst here
    exact Sanctioning.bind (Sanctioning.exec (.createComment unwritten.now
      (entered.mono (List.suffix_cons _ _)) (loaded.mono (List.suffix_cons _ _)) writable decoded))
      fun _ _ _ => Obeys.pure trivial
  refine Sanctioning.bind (Sanctioning.orFail create _) fun later created _ => Sanctioning.ending ?_
  refine Asks.bind (Asks.lift (select_asks (reading_read _))) fun author => ?_
  split
  · exact Asks.pure _
  · exact Asks.pure _

theorem handlePutComment_sanctioning {id : Int} {body : Body Comment} (unwritten : Unwritten past)
    (entered : Entered caller .updateComment pId past projectID)
    (loaded : LoadedIssue past issueID projectID issue) :
    Sanctioning host (.putComment caller pId (some issueID) (some id) body) past (fun _ _ => True)
      (handlePutComment caller body issueID id issue) := by
  refine Sanctioning.bind Sanctioning.decode ?_
  rintro past c ⟨rfl, decoded⟩
  refine Sanctioning.bind (ensureNotArchived_sanctioning _) ?_
  rintro past _ ⟨rfl, writable⟩
  refine Sanctioning.bind (Sanctioning.orFail (timedWrite_sanctioning (fun now => ?_) _) _)
    fun later _ _ => ?_
  · exact .putComment unwritten.now (entered.mono (List.suffix_cons _ _))
      (loaded.mono (List.suffix_cons _ _)) writable decoded
  · exact Sanctioning.ending (Asks.bind (orInternal_asks (getCommentByID_asks reading_read _ _))
      fun _ => Asks.pure _)

theorem handleDeleteComment_sanctioning {id : Int} (unwritten : Unwritten past)
    (entered : Entered caller .deleteComment pId past projectID)
    (loaded : LoadedIssue past issueID projectID issue) :
    Sanctioning host (.deleteComment caller pId (some issueID) (some id)) past (fun _ _ => True)
      (handleDeleteComment caller issueID id issue) := by
  refine Sanctioning.bind (ensureNotArchived_sanctioning _) ?_
  rintro past _ ⟨rfl, writable⟩
  exact Sanctioning.bind (Sanctioning.orFail
    (checkedWrite_sanctioning (.deleteComment unwritten entered loaded writable) _) _)
    fun _ _ _ => Obeys.pure trivial

end Activity

end Wuflow

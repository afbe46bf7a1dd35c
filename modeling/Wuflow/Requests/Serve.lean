/-
**Every request obeys the discipline.**

The user writes come first: a self update and an admin update load the row, work on the copy and write
it back. `serve_disciplined` then puts all handlers behind their route wrappers.
-/

import Wuflow.Requests.IssueWrites
import Wuflow.Requests.SessionWrites

namespace Wuflow

open Calendar (Instant)
open Interleave (Prog Entry Fresh)
open Interleave.Stopping (Asks Obeys)

/-! ### User writes -/

section Users

variable {host : Host} {req : Request} {past : Past}

theorem WritesBack.updateUser_disciplined {u : User} (back : WritesBack req past u) :
    Disciplined host req past (fun _ _ => True) (updateUser u) := by
  refine Disciplined.bind (Disciplined.ask (by exact trivial)) fun _ updatedAt here => ?_
  subst here
  have allowed : Discipline host req (⟨.now, updatedAt⟩ :: past)
      (.write (.updateUser { u with updatedAt } (u.role != .sysadmin || !u.active))) := by
    obtain ⟨id, existing, ⟨more, rfl, others⟩, same, self, admin⟩ := back.loaded
    refine ⟨rfl, id, existing, ⟨⟨.now, updatedAt⟩ :: more, rfl, ?_⟩, same, ?_, admin⟩
    · rintro entry member
      rcases List.mem_cons.mp member with rfl | member
      · exact fun loads => loads
      · exact others entry member
    · intro caller body here
      obtain ⟨own, profile⟩ := self caller body here
      exact ⟨own, ⟨profile.email, profile.firstName, profile.lastName, profile.role, profile.active⟩⟩
  refine Disciplined.bind (Disciplined.onDuplicate (Disciplined.exec allowed) _) fun _ rows _ =>
    Disciplined.quiet (Asks.bind ?_ fun _ => Asks.pure _)
  exact Asks.ite (Asks.bind (select_asks (by exact trivial)) fun _ => Asks.throw _) (Asks.pure _)

/-- The one load of a user handler. -/
theorem loadUser_disciplined (id : Int) :
    Disciplined host req [] (fun later user => later = [⟨.read (.userByID id), .ok (some user)⟩])
      (loadUser id) := by
  refine Disciplined.bind (Disciplined.orFail (Disciplined.select _) _) fun _ found here => ?_
  subst here
  refine Disciplined.weaken (Disciplined.orRespond _ _) ?_
  rintro _ user ⟨rfl, rfl⟩
  rfl

/-- What a password change does to a user, and what it asks on the way. -/
theorem setPassword_disciplined (user : User) (newPassword : String) :
    Disciplined host req past
      (fun later value => (∃ new, later = new ++ past ∧ ∀ entry ∈ new, ¬ entry.1.LoadsUser) ∧
        (∃ passwordHash, value = { user with passwordHash }) ∧ (newPassword = "" → value = user))
      (setPassword host user newPassword) := by
  unfold setPassword updateUserPassword
  by_cases kept : newPassword = ""
  · rw [if_pos kept]
    exact Obeys.pure ⟨⟨[], rfl, fun _ member => absurd member List.not_mem_nil⟩,
      ⟨user.passwordHash, rfl⟩, fun _ => rfl⟩
  · rw [if_neg kept]
    cases validatePassword host newPassword user.email with
    | error message => exact Obeys.throw trivial
    | ok _ =>
        refine ⟨trivial, fun passwordHash => ?_⟩
        cases passwordHash with
        | none => exact trivial
        | some passwordHash =>
            refine ⟨⟨[_], rfl, fun entry member => ?_⟩, ⟨passwordHash, rfl⟩, fun same => absurd same kept⟩
            rw [List.mem_singleton.mp member]
            exact fun loads => loads

theorem handleUpdateSelf_disciplined (caller : Caller) (body : Body UserRequest) :
    Disciplined host (.updateSelf caller body) [] (fun _ _ => True)
      (handleUpdateSelf host caller body) := by
  refine Disciplined.bind (Disciplined.ensure _ _) ?_
  rintro _ _ ⟨rfl, _⟩
  refine Disciplined.bind (loadUser_disciplined _) fun _ existing here => ?_
  subst here
  refine Disciplined.bind (decodeAndValidate_obeys fun _ => trivial) ?_
  rintro _ update ⟨rfl, _⟩
  have prepared : Disciplined host (.updateSelf caller body)
      [⟨.read (.userByID caller.userID), .ok (some existing)⟩]
      (fun later value => LoadedOnce later caller.userID existing ∧
        ∃ passwordHash, value = { existing with passwordHash })
      (prepareSelfUpdate host existing update) := by
    unfold prepareSelfUpdate
    by_cases kept : update.password = ""
    · rw [if_pos kept]
      exact Obeys.pure ⟨⟨[], rfl, fun _ member => absurd member List.not_mem_nil⟩,
        existing.passwordHash, rfl⟩
    · rw [if_neg kept]
      refine Disciplined.bind (Disciplined.ensure _ _) ?_
      rintro _ _ ⟨rfl, _⟩
      exact Disciplined.weaken (setPassword_disciplined _ _) fun _ _ holds => ⟨holds.1, holds.2.1⟩
  refine Disciplined.bind prepared ?_
  rintro later _ ⟨loaded, passwordHash, rfl⟩
  refine Disciplined.bind (Disciplined.orFail (WritesBack.updateUser_disciplined ?_) _) ?_
  · refine ⟨caller.userID, existing, loaded, rfl, ?_, fun _ _ _ same => nomatch same⟩
    rintro _ _ ⟨rfl, rfl⟩
    exact ⟨rfl, ⟨rfl, rfl, rfl, rfl, rfl⟩⟩
  · intro _ _ _
    exact Disciplined.quiet (Asks.ite
      (Asks.bind (Asks.lift (deleteSessionsByUserID_quiet _)) fun _ => Asks.pure _) (Asks.pure _))

/-- Validation keeps the password of a user request. -/
theorem validateUserRequest_password {sent update : UserRequest}
    (valid : validateUserRequest sent = .ok update) : update.password = sent.password := by
  unfold validateUserRequest at valid
  cases checked : checkUserFields (trimSpace sent.email) (trimSpace sent.firstName)
      (trimSpace sent.lastName) sent.role with
  | error message =>
      simp only [checked] at valid
      exact nomatch valid
  | ok _ =>
      simp only [checked] at valid
      cases valid
      rfl

theorem decodeUserRequest_disciplined (body : Body UserRequest) :
    Disciplined host req past
      (fun later update => later = past ∧ ∀ sent, body = .json sent → update.password = sent.password)
      (decodeAndValidate body validateUserRequest) := by
  refine Disciplined.weaken (decodeAndValidate_obeys fun _ => trivial) fun _ update holds => ⟨holds.1, ?_⟩
  obtain ⟨sent, decoded, valid⟩ := holds.2
  rintro _ same
  cases decoded.symm.trans same
  exact validateUserRequest_password valid

/-- The user an admin update writes is a copy of the loaded one. -/
theorem validateUser_copy {u v : User} (valid : validateUser u = .ok v) :
    v.id = u.id ∧ v.passwordHash = u.passwordHash := by
  unfold validateUser at valid
  cases checked : checkUserFields (trimSpace u.email) (sanitizeString u.firstName)
      (sanitizeString u.lastName) u.role with
  | error message =>
      simp only [checked] at valid
      exact nomatch valid
  | ok _ =>
      simp only [checked] at valid
      cases valid
      exact ⟨rfl, rfl⟩

-- the validation is opaque from here on: the proofs only follow what the handlers ask
attribute [local irreducible] validateUser validateUserRequest

theorem validateAndPrepareUserUpdate_disciplined (caller : Caller) (existing : User)
    (update : UserRequest) :
    Disciplined host req past
      (fun later (value : User × Bool) => (∃ new, later = new ++ past ∧
          ∀ entry ∈ new, ¬ entry.1.LoadsUser) ∧ value.1.id = existing.id ∧
        (update.password = "" → value.1.passwordHash = existing.passwordHash))
      (validateAndPrepareUserUpdate host caller existing update) := by
  unfold validateAndPrepareUserUpdate
  cases valid : validateUser _ with
  | error message => exact Obeys.throw trivial
  | ok user =>
  obtain ⟨sameID, sameHash⟩ := validateUser_copy valid
  have rest : ∀ new : Past, (∀ entry ∈ new, ¬ entry.1.LoadsUser) →
      Disciplined host req (new ++ past)
        (fun later (value : User × Bool) => (∃ new, later = new ++ past ∧
            ∀ entry ∈ new, ¬ entry.1.LoadsUser) ∧ value.1.id = existing.id ∧
          (update.password = "" → value.1.passwordHash = existing.passwordHash))
        (do
          let updated ← setPassword host user update.password
          return (updated, endsSessions existing update user)) := by
    intro new others
    refine Disciplined.bind (setPassword_disciplined _ _) ?_
    rintro _ updated ⟨⟨more, rfl, others'⟩, ⟨passwordHash, rfl⟩, kept⟩
    refine Obeys.pure ⟨⟨more ++ new, (List.append_assoc _ _ _).symm, ?_⟩, sameID, fun empty => ?_⟩
    · intro entry member
      rcases List.mem_append.mp member with member | member
      · exact others' entry member
      · exact others entry member
    · rw [kept empty]
      exact sameHash
  show Disciplined host req past _ (if needsConfirmation existing update user then _ else _)
  by_cases needed : needsConfirmation existing update user = true
  · rw [if_pos needed]
    have confirm : Asks (fun query => query.Quiet ∧ ¬ query.LoadsUser)
        (verifyAdminPasswordOrRespond host caller update.adminPassword) :=
      verifyAdminPasswordOrRespond_asks (fun _ => ⟨trivial, fun loads => loads⟩) host caller _
    refine Disciplined.bind (Disciplined.of_kind confirm fun _ both => both.1) ?_
    rintro _ _ ⟨new, rfl, others⟩
    exact rest new fun entry member => (others entry member).2
  · rw [if_neg needed]
    exact rest [] fun _ member => absurd member List.not_mem_nil

theorem handleUpdateUser_disciplined (caller : Caller) (body : Body UserRequest) (id : Int) :
    Disciplined host (.updateUser caller (some id) body) [] (fun _ _ => True)
      (handleUpdateUser host caller body id) := by
  refine Disciplined.bind (loadUser_disciplined _) fun _ existing here => ?_
  subst here
  refine Disciplined.bind (decodeUserRequest_disciplined _) fun _ update decoded => ?_
  rw [decoded.1]
  refine Disciplined.bind (validateAndPrepareUserUpdate_disciplined _ _ _) fun later value holds => ?_
  have back : WritesBack (.updateUser caller (some id) body) later value.1 := by
    refine ⟨id, existing, holds.1, holds.2.1.symm, fun _ _ same => (by cases same), ?_⟩
    rintro _ _ sent ⟨rfl, rfl, rfl⟩
    exact ⟨rfl, fun empty => holds.2.2 ((decoded.2 sent rfl).trans empty)⟩
  refine Disciplined.bind (Disciplined.orFail back.updateUser_disciplined _) fun _ _ _ => ?_
  exact Disciplined.quiet (Asks.ite
    (Asks.bind (Asks.lift (deleteSessionsByUserID_quiet _)) fun _ => Asks.pure _) (Asks.pure _))

end Users

/-! ### Route wrappers -/

section Wrappers

variable {host : Host} {req : Request} {past : Past} {post : Past → Response → Prop} {caller : Caller}
  {action : Action}

theorem withRole_disciplined {h : Handler Response} (handles : Disciplined host req past post h) :
    Disciplined host req past post (withRole caller action h) := by
  refine Disciplined.bind (Disciplined.ensure _ _) ?_
  rintro _ _ ⟨rfl, _⟩
  exact handles

theorem resourceIDFromPath_disciplined (id : Option Int) :
    Disciplined host req past (fun later found => later = past ∧ id = some found)
      (resourceIDFromPath id) := by
  refine Disciplined.weaken (Disciplined.orRespond _ _) fun _ _ holds => ⟨holds.1, ?_⟩
  exact (Option.filter_eq_some_iff.mp holds.2).1

theorem withResource_disciplined {id : Option Int} {h : Int → Handler Response}
    (handles : ∀ found, id = some found → Disciplined host req past post (h found)) :
    Disciplined host req past post (withResource caller action id h) := by
  refine withRole_disciplined (Disciplined.bind (resourceIDFromPath_disciplined id) ?_)
  rintro _ found ⟨rfl, same⟩
  exact handles found same

theorem withProject_disciplined {pId : Option Int} {h : Int → Handler Response}
    (handles : ∀ later projectID, Disciplined host req later post (h projectID)) :
    Disciplined host req past post (withProject caller action pId h) :=
  withRole_disciplined (Disciplined.after (checkProjectAccess_asks quiet_read pId) fun later found _ =>
    handles later found)

theorem withProjectResource_disciplined {pId id : Option Int} {h : Int → Int → Handler Response}
    (handles : ∀ later projectID found, Disciplined host req later post (h projectID found)) :
    Disciplined host req past post (withProjectResource caller action pId id h) := by
  refine withProject_disciplined fun later projectID => ?_
  refine Disciplined.bind (resourceIDFromPath_disciplined id) ?_
  rintro _ found ⟨rfl, _⟩
  exact handles _ projectID found

theorem withIssue_disciplined {pId iId : Option Int} {h : Int → Issue → Handler Response}
    (handles : ∀ later issueID issue, Disciplined host req later post (h issueID issue)) :
    Disciplined host req past post (withIssue caller action pId iId h) := by
  refine withProject_disciplined fun later projectID => ?_
  refine Disciplined.bind (resourceIDFromPath_disciplined iId) ?_
  rintro _ issueID ⟨rfl, _⟩
  exact Disciplined.after (loadIssue_asks quiet_read _ _) fun later issue _ => handles later issueID issue

theorem withIssueResource_disciplined {pId iId id : Option Int}
    {h : Int → Int → Issue → Handler Response}
    (handles : ∀ later issueID found issue, Disciplined host req later post (h issueID found issue)) :
    Disciplined host req past post (withIssueResource caller action pId iId id h) := by
  refine withIssue_disciplined fun later issueID issue => ?_
  refine Disciplined.bind (resourceIDFromPath_disciplined id) ?_
  rintro _ found ⟨rfl, _⟩
  exact handles _ issueID found issue

end Wrappers

/-! ### Every request -/

section Serve

variable {host : Host}

/-- The handler of every request obeys the discipline. -/
theorem handler_disciplined (req : Request) :
    Disciplined host req [] (fun _ _ => True) (handler host req) := by
  cases req with
  | createIssue caller pId body =>
      exact withProject_disciplined fun _ _ => handleCreateIssue_disciplined caller body _
  | getIssue caller pId id =>
      exact withProjectResource_disciplined fun _ _ _ => .quiet (handleGetIssue_quiet _ _)
  | putIssue caller pId id ifMatch body =>
      exact withProjectResource_disciplined fun _ _ _ => handlePutIssue_disciplined caller _ _ _ _
  | putIssuePositions caller pId body =>
      exact withProject_disciplined fun _ _ => .quiet (handlePutIssuePositions_quiet _ _)
  | archiveIssue caller pId id =>
      exact withProjectResource_disciplined fun _ _ _ =>
        handleIssueArchiveToggle_disciplined caller _ _ _
  | unarchiveIssue caller pId id =>
      exact withProjectResource_disciplined fun _ _ _ =>
        handleIssueArchiveToggle_disciplined caller _ _ _
  | moveIssue caller pId id body =>
      exact withProjectResource_disciplined fun _ _ _ => handleMoveIssue_disciplined caller _ _ _
  | deleteIssue caller pId id body =>
      exact withProjectResource_disciplined fun _ _ _ => .quiet (handleDeleteIssue_quiet _ _ _ _ _)
  | createTask caller pId iId body =>
      exact withIssue_disciplined fun _ _ _ => .quiet (handleCreateTask_quiet _ _ _ _)
  | putTask caller pId iId id body =>
      exact withIssueResource_disciplined fun _ _ _ _ => .quiet (handlePutTask_quiet _ _ _ _ _)
  | putTaskPositions caller pId iId body =>
      exact withIssue_disciplined fun _ _ _ => .quiet (handlePutTaskPositions_quiet _ _ _)
  | deleteTask caller pId iId id =>
      exact withIssueResource_disciplined fun _ _ _ _ => .quiet (handleDeleteTask_quiet _ _ _ _)
  | createComment caller pId iId body =>
      exact withIssue_disciplined fun _ _ _ => .quiet (handleCreateComment_quiet _ _ _ _)
  | putComment caller pId iId id body =>
      exact withIssueResource_disciplined fun _ _ _ _ => .quiet (handlePutComment_quiet _ _ _ _ _)
  | deleteComment caller pId iId id =>
      exact withIssueResource_disciplined fun _ _ _ _ => .quiet (handleDeleteComment_quiet _ _ _ _)
  | createLabel caller pId body =>
      exact withProject_disciplined fun _ _ => .quiet (handleCreateLabel_quiet _ _)
  | deleteLabel caller pId id body =>
      exact withProjectResource_disciplined fun _ _ _ => .quiet (handleDeleteLabel_quiet _ _ _ _ _)
  | getStatusConfig caller pId =>
      exact withProject_disciplined fun _ _ => .quiet (handleGetStatusConfig_quiet _)
  | updateStatusConfig caller pId body =>
      exact withProject_disciplined fun _ _ => .quiet (handleUpdateStatusConfig_quiet _ _)
  | createProject caller body => exact withRole_disciplined (.quiet (handleCreateProject_quiet _ _))
  | updateProject caller pId body =>
      exact withProject_disciplined fun _ _ => .quiet (handleUpdateProject_quiet _ _ _)
  | deleteProject caller pId body =>
      exact withProject_disciplined fun _ _ => .quiet (handleDeleteProject_quiet _ _ _ _)
  | createRelease caller pId body =>
      exact withProject_disciplined fun _ _ => .quiet (handleCreateRelease_quiet _ _)
  | getRelease caller pId id =>
      exact withProjectResource_disciplined fun _ _ _ => .quiet (handleGetRelease_quiet _ _)
  | putRelease caller pId id body =>
      exact withProjectResource_disciplined fun _ _ _ => .quiet (handlePutRelease_quiet _ _ _)
  | deleteRelease caller pId id body =>
      exact withProjectResource_disciplined fun _ _ _ => .quiet (handleDeleteRelease_quiet _ _ _ _ _)
  | triggerRelease caller pId id body =>
      exact withProjectResource_disciplined fun _ _ _ => handleTriggerRelease_disciplined _ _ _
  | reopenRelease caller pId id =>
      exact withProjectResource_disciplined fun _ _ _ => .quiet (handleReopenRelease_quiet _ _)
  | getUser caller id => exact withResource_disciplined fun _ _ => .quiet (handleGetUser_quiet _)
  | createUser caller body => exact withRole_disciplined (.quiet (handleCreateUser_quiet _ _))
  | updateUser caller id body =>
      refine withResource_disciplined fun found same => ?_
      subst same
      exact handleUpdateUser_disciplined caller body found
  | deleteUser caller id body =>
      exact withResource_disciplined fun _ _ => handleDeleteUser_disciplined caller body _
  | updateSelf caller body => exact handleUpdateSelf_disciplined caller body
  | login ip body => exact handleLogin_disciplined ip body
  | logout cookie => exact .quiet (handleLogout_quiet cookie)
  | refresh ip cookie =>
      cases cookie with
      | none =>
          refine .quiet (Asks.bind (Asks.lift (ask_asks (by exact trivial))) fun _ => ?_)
          exact Asks.bind (ensure_asks _ _) fun _ => Asks.throw _
      | some token =>
          exact (handleRefresh_refreshed ip).mono (fun _ _ _ => trivial) fun _ _ _ => trivial
  | pageLoad cookie =>
      cases cookie with
      | none => exact .quiet (Asks.throw _)
      | some token => exact handlePageLoad_refreshed.mono (fun _ _ _ => trivial) fun _ _ _ => trivial
  | cleanUpSessions =>
      exact .quiet (Asks.bind (Asks.lift deleteExpiredSessions_quiet) fun _ => Asks.pure _)
  | ensureInitialAdmin email password =>
      exact .quiet (Asks.bind (Asks.lift (ensureInitialAdmin_quiet host email password)) fun _ =>
        Asks.pure _)

/-- A response satisfies what both ends of its handler satisfy. -/
theorem Handler.respond_obeys {rule : Past → Query → Prop} {post : Past → Response → Prop}
    {past : Past} {h : Handler Response} (obeys : Obeys rule post post past h) :
    (Handler.respond h).Obeys rule post past := by
  refine Prog.Obeys.bind obeys fun later result holds => ?_
  cases result with
  | ok response => exact holds
  | error response => exact holds

/-- **Every request obeys the discipline.** -/
theorem serve_disciplined (host : Host) (req : Request) :
    (serve host req).Obeys (Discipline host req) (fun _ _ => True) [] :=
  Handler.respond_obeys (handler_disciplined req)

/-- **Every request that presents a refresh token ends as a refresh.** -/
theorem serve_refreshed (host : Host) {req : Request} {token : List UInt8}
    (presented : req.presents = some token) :
    (serve host req).Obeys (Discipline host req) (Refreshed host token) [] := by
  cases req with
  | refresh ip cookie =>
      cases presented
      exact Handler.respond_obeys (handleRefresh_refreshed ip)
  | pageLoad cookie =>
      cases presented
      exact Handler.respond_obeys handlePageLoad_refreshed
  | _ => exact nomatch presented

end Serve

end Wuflow

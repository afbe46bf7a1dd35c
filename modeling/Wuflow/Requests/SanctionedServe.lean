/-
**Every request writes only what is sanctioned.**

The handlers of projects, releases and accounts, and `serve_sanctioned` over all requests.
-/

import Wuflow.Requests.SanctionedIssues

namespace Wuflow

open Calendar (Instant)
open Interleave (Prog Entry Run)
open Interleave.Stopping (Asks Obeys)

/-! ### Project handlers -/

section Projects

variable {host : Host} {past : Past} {caller : Caller} {pId : Option Int} {projectID : Int}

theorem handleCreateLabel_sanctioning {body : Body Label} (unwritten : Unwritten past)
    (entered : Entered caller .createLabel pId past projectID) :
    Sanctioning host (.createLabel caller pId body) past (fun _ _ => True)
      (handleCreateLabel body projectID) := by
  refine Sanctioning.bind Sanctioning.decode ?_
  rintro past l ⟨rfl, decoded⟩
  have create : Sanctioning host (.createLabel caller pId body) past (fun _ _ => True)
      (createLabel { l with projectID }) :=
    Sanctioning.bind (Sanctioning.exec (.createLabel unwritten entered decoded))
      fun _ _ _ => Obeys.pure trivial
  exact Sanctioning.bind (Sanctioning.orFail create _) fun _ _ _ => Obeys.pure trivial

theorem handleDeleteLabel_sanctioning {id : Int} {body : Body AdminPasswordRequest}
    (unwritten : Unwritten past) (entered : Entered caller .deleteLabel pId past projectID) :
    Sanctioning host (.deleteLabel caller pId (some id) body) past (fun _ _ => True)
      (handleDeleteLabel host caller body projectID id) := by
  refine Sanctioning.after (requireAdminPassword_asks (fun _ => reading_read _) _ _ _) unwritten
    fun later _ suffix unwritten => ?_
  exact Sanctioning.bind (Sanctioning.orFail
    (checkedWrite_sanctioning (.deleteLabel unwritten (entered.mono suffix)) _) _)
    fun _ _ _ => Obeys.pure trivial

theorem handleUpdateStatusConfig_sanctioning {body : Body StatusConfig} (unwritten : Unwritten past)
    (entered : Entered caller .updateStatusConfig pId past projectID) :
    Sanctioning host (.updateStatusConfig caller pId body) past (fun _ _ => True)
      (handleUpdateStatusConfig body projectID) := by
  refine Sanctioning.bind Sanctioning.decode ?_
  rintro past cfg ⟨rfl, decoded⟩
  have write : Sanctioning host (.updateStatusConfig caller pId body) past (fun _ _ => True)
      (upsertStatusConfig { cfg with projectID }) :=
    Sanctioning.bind (Sanctioning.exec (.updateStatusConfig unwritten entered decoded))
      fun _ _ _ => Obeys.pure trivial
  exact Sanctioning.bind (Sanctioning.orFail write _) fun _ _ _ => Obeys.pure trivial

theorem handleCreateProject_sanctioning {body : Body Project} (unwritten : Unwritten past)
    (permitted : can caller.role .createProject = true) :
    Sanctioning host (.createProject caller body) past (fun _ _ => True)
      (handleCreateProject host body) := by
  refine Sanctioning.bind Sanctioning.decode ?_
  rintro past p ⟨rfl, _⟩
  have create : Sanctioning host (.createProject caller body) past (fun _ _ => True)
      (createProject p) := by
    refine Sanctioning.bind (Sanctioning.onDuplicate
      (Sanctioning.exec (.createProject unwritten permitted)) _) fun _ id here => ?_
    subst here
    exact Sanctioning.bind (Sanctioning.exec (.seedStatusConfig permitted List.mem_cons_self))
      fun _ _ _ => Obeys.pure trivial
  exact Sanctioning.bind (Sanctioning.orFail create _) fun _ _ _ => Obeys.pure trivial

theorem handleUpdateProject_sanctioning {body : Body Project} (unwritten : Unwritten past)
    (entered : Entered caller .updateProject pId past projectID) :
    Sanctioning host (.updateProject caller pId body) past (fun _ _ => True)
      (handleUpdateProject host body projectID) := by
  refine Sanctioning.bind Sanctioning.decode ?_
  rintro past p ⟨rfl, _⟩
  have write : Sanctioning host (.updateProject caller pId body) past (fun _ _ => True)
      (updateProject { p with id := projectID }) :=
    Sanctioning.bind (Sanctioning.onDuplicate (Sanctioning.exec (.updateProject unwritten entered)) _)
      fun _ _ _ => Sanctioning.ending (checkRowsAffected_asks _ _)
  exact Sanctioning.bind (Sanctioning.orFail write _) fun _ _ _ => Obeys.pure trivial

theorem handleDeleteProject_sanctioning {body : Body AdminPasswordRequest} (unwritten : Unwritten past)
    (entered : Entered caller .deleteProject pId past projectID) :
    Sanctioning host (.deleteProject caller pId body) past (fun _ _ => True)
      (handleDeleteProject host caller body projectID) := by
  refine Sanctioning.after (ensure_asks _ _) unwritten fun _ _ suffix unwritten => ?_
  replace entered := entered.mono suffix
  refine Sanctioning.after (requireAdminPassword_asks (fun _ => reading_read _) _ _ _) unwritten
    fun _ _ suffix unwritten => ?_
  replace entered := entered.mono suffix
  refine Sanctioning.after (orInternal_asks (select_asks (reading_read _))) unwritten
    fun _ count suffix unwritten => ?_
  replace entered := entered.mono suffix
  refine Sanctioning.after (ensure_asks _ _) unwritten fun _ _ suffix unwritten => ?_
  replace entered := entered.mono suffix
  exact Sanctioning.bind (Sanctioning.orFail
    (checkedWrite_sanctioning (.deleteProject unwritten entered) _) _) fun _ _ _ => Obeys.pure trivial

theorem handleCreateRelease_sanctioning {body : Body Release} (unwritten : Unwritten past)
    (entered : Entered caller .createRelease pId past projectID) :
    Sanctioning host (.createRelease caller pId body) past (fun _ _ => True)
      (handleCreateRelease body projectID) := by
  refine Sanctioning.bind Sanctioning.decode ?_
  rintro past r ⟨rfl, _⟩
  have create : Sanctioning host (.createRelease caller pId body) past (fun _ _ => True)
      (createRelease { r with projectID }) := by
    refine Sanctioning.bind (Sanctioning.ask (by exact trivial)) fun _ createdAt here => ?_
    subst here
    exact Sanctioning.bind (Sanctioning.onDuplicate (Sanctioning.exec (.createRelease
      unwritten.now (entered.mono (List.suffix_cons _ _)) rfl)) _) fun _ _ _ => Obeys.pure trivial
  exact Sanctioning.bind (Sanctioning.orFail create _) fun _ _ _ => Obeys.pure trivial

theorem handlePutRelease_sanctioning {id : Int} {body : Body Release} (unwritten : Unwritten past)
    (entered : Entered caller .updateRelease pId past projectID) :
    Sanctioning host (.putRelease caller pId (some id) body) past (fun _ _ => True)
      (handlePutRelease body projectID id) := by
  refine Sanctioning.bind Sanctioning.decode ?_
  rintro past r ⟨rfl, _⟩
  refine Sanctioning.bind (loadRelease_sanctioning id projectID unwritten) ?_
  rintro later current ⟨suffix, unwritten, loaded⟩
  refine Sanctioning.bind (Sanctioning.ensure _ _) ?_
  rintro past _ ⟨rfl, open_⟩
  have write : Sanctioning host (.putRelease caller pId (some id) body) past (fun _ _ => True)
      (updateRelease { r with id, projectID }) := by
    refine Sanctioning.bind (Sanctioning.ask (by exact trivial)) fun _ updatedAt here => ?_
    subst here
    refine Sanctioning.bind (Sanctioning.onDuplicate (Sanctioning.exec (.putRelease unwritten.now
      ((entered.mono suffix).mono (List.suffix_cons _ _)) (loaded.mono (List.suffix_cons _ _))
      (bne_iff_ne.mp open_))) _) fun _ _ _ => Sanctioning.ending (checkRowsAffected_asks _ _)
  exact Sanctioning.bind (Sanctioning.orFail write _) fun _ _ _ =>
    Sanctioning.ending (respondWithUpdatedRelease_asks reading_read id)

theorem handleDeleteRelease_sanctioning {id : Int} {body : Body AdminPasswordRequest}
    (unwritten : Unwritten past) (entered : Entered caller .deleteRelease pId past projectID) :
    Sanctioning host (.deleteRelease caller pId (some id) body) past (fun _ _ => True)
      (handleDeleteRelease host caller body projectID id) := by
  refine Sanctioning.bind (loadRelease_sanctioning id projectID unwritten) ?_
  rintro first release ⟨suffix, unwritten, loaded⟩
  replace entered := entered.mono suffix
  refine Sanctioning.after (requireAdminPassword_asks (fun _ => reading_read _) _ _ _) unwritten
    fun _ _ suffix unwritten => ?_
  exact Sanctioning.bind (Sanctioning.orFail (checkedWrite_sanctioning
    (.deleteRelease unwritten (entered.mono suffix) (loaded.mono suffix)) _) _)
    fun _ _ _ => Obeys.pure trivial

theorem handleTriggerRelease_sanctioning {id : Int} {body : Body TriggerRequest}
    (unwritten : Unwritten past) (entered : Entered caller .triggerRelease pId past projectID) :
    Sanctioning host (.triggerRelease caller pId (some id) body) past (fun _ _ => True)
      (handleTriggerRelease body projectID id) := by
  refine Sanctioning.bind Sanctioning.decode ?_
  rintro past req ⟨rfl, _⟩
  refine Sanctioning.bind (loadRelease_sanctioning id projectID unwritten) ?_
  rintro past release ⟨suffix, unwritten, loaded⟩
  replace entered := entered.mono suffix
  have trigger : Sanctioning host (.triggerRelease caller pId (some id) body) past (fun _ _ => True)
      (triggerRelease id req.archiveDone) := by
    refine Sanctioning.bind (Sanctioning.ask (by exact trivial)) fun _ now here => ?_
    subst here
    replace entered := entered.mono (List.suffix_cons ⟨.now, now⟩ _)
    replace loaded := loaded.mono (List.suffix_cons ⟨.now, now⟩ _)
    refine Sanctioning.bind (Sanctioning.exec (.triggerRelease unwritten.now entered loaded))
      fun _ rows here => ?_
    subst here
    refine Sanctioning.bind (Sanctioning.looking (checkRowsAffected_asks _ _)) fun later _ suffix => ?_
    replace suffix := (List.suffix_cons _ _).trans suffix
    cases req.archiveDone with
    | false => exact Obeys.pure trivial
    | true =>
        exact Sanctioning.bind (Sanctioning.exec (.archiveDone (entered.mono suffix)
          (loaded.mono suffix))) fun _ _ _ => Obeys.pure trivial
  exact Sanctioning.bind (Sanctioning.orFail trigger _) fun _ _ _ =>
    Sanctioning.ending (respondWithUpdatedRelease_asks reading_read id)

theorem handleReopenRelease_sanctioning {id : Int} (unwritten : Unwritten past)
    (entered : Entered caller .triggerRelease pId past projectID) :
    Sanctioning host (.reopenRelease caller pId (some id)) past (fun _ _ => True)
      (handleReopenRelease projectID id) := by
  refine Sanctioning.bind (loadRelease_sanctioning id projectID unwritten) ?_
  rintro past release ⟨suffix, unwritten, loaded⟩
  replace entered := entered.mono suffix
  refine Sanctioning.bind (Sanctioning.orFail (timedWrite_sanctioning (fun now => ?_) _) _)
    fun _ _ _ => ?_
  · exact .reopenRelease unwritten.now (entered.mono (List.suffix_cons _ _))
      (loaded.mono (List.suffix_cons _ _))
  · exact Sanctioning.ending (respondWithUpdatedRelease_asks reading_read id)

end Projects

/-! ### Sessions -/

/-- The query is no write on anything but the sessions. -/
def Query.SessionsOnly : Query → Prop
  | .write w => w.OnSessions
  | _ => True

theorem Query.SessionsOnly.allowed {host : Host} {req : Request} {past : Past} {query : Query}
    (sessions : query.SessionsOnly) : query.Allowed host req past := by
  cases query with
  | write w => exact .session sessions
  | _ => exact trivial

theorem deleteSessionsByUserID_sessions (userID : Int) :
    Asks Query.SessionsOnly (deleteSessionsByUserID userID) :=
  Asks.bind (exec_asks trivial) fun _ => Asks.pure _

theorem deleteSession_sessions (id : Int) : Asks Query.SessionsOnly (deleteSession id) :=
  Asks.bind (exec_asks (by exact trivial)) fun _ => checkRowsAffected_asks _ _

theorem deleteSessionSafe_sessions (id : Int) :
    (deleteSessionSafe id).Asks Query.SessionsOnly := by
  refine Prog.Asks.bind (deleteSession_sessions id) fun _ => ?_
  exact trivial

theorem revokeOnReuse_sessions (userID : Int) : (revokeOnReuse userID).Asks Query.SessionsOnly := by
  refine Prog.Asks.bind (deleteSessionsByUserID_sessions userID) fun result => ?_
  cases result with
  | ok _ => exact trivial
  | error _ =>
      refine Prog.Asks.bind (deleteSessionsByUserID_sessions userID) fun _ => ?_
      exact trivial

theorem generateAccessToken_sessions (user : User) :
    (generateAccessToken user).Asks Query.SessionsOnly := by
  unfold generateAccessToken
  cases user.active with
  | false => exact trivial
  | true => exact ⟨trivial, fun _ => ⟨trivial, fun _ => trivial⟩⟩

theorem generateRefreshToken_sessions (host : Host) (sessionToken : List UInt8) :
    (generateRefreshToken host sessionToken).Asks Query.SessionsOnly := ⟨trivial, fun _ => trivial⟩

theorem createUserSession_sessions (host : Host) (user : User) :
    (createUserSession host user).Asks Query.SessionsOnly := by
  refine Prog.Asks.bind (generateAccessToken_sessions user) fun accessToken => ?_
  cases accessToken with
  | none => exact trivial
  | some accessToken =>
      refine Prog.Asks.bind (ask_asks trivial) fun sessionToken => ?_
      refine Prog.Asks.bind (generateRefreshToken_sessions host sessionToken) fun fresh => ?_
      refine ⟨trivial, fun now => ⟨trivial, fun answer => ?_⟩⟩
      cases answer with
      | ok id => exact trivial
      | error err => exact trivial

theorem rotateSession_sessions (host : Host) (session : Session) :
    Asks Query.SessionsOnly (rotateSession host session) := by
  have drop : Asks Query.SessionsOnly (do
      deleteSessionSafe session.id
      throw .userInactive : ExceptT RefreshErr Backend (User × AccessToken × List UInt8)) :=
    Asks.bind (Asks.lift (deleteSessionSafe_sessions session.id)) fun _ => Asks.throw _
  refine Asks.bind (Asks.adapt (select_asks trivial) _) fun found => ?_
  cases found with
  | none => exact drop
  | some user =>
      refine Asks.ite drop ?_
      refine Asks.bind (Asks.lift (generateAccessToken_sessions user)) fun accessToken => ?_
      cases accessToken with
      | none => exact Asks.throw _
      | some accessToken =>
          refine Asks.bind (Asks.lift (generateRefreshToken_sessions host _)) fun fresh => ?_
          refine Asks.bind (Asks.lift (ask_asks trivial)) fun now => ?_
          exact Asks.bind (Asks.adapt (Asks.bind (exec_asks (by exact trivial)) fun _ =>
            checkRowsAffected_asks _ _) _) fun _ => Asks.pure _

theorem refreshSession_sessions (host : Host) (token : List UInt8) :
    Asks Query.SessionsOnly (refreshSession host token) := by
  unfold refreshSession
  cases validateRefreshToken token with
  | none => exact Asks.throw _
  | some parsed =>
      obtain ⟨sessionToken, secret⟩ := parsed
      refine Asks.bind (Asks.adapt (select_asks trivial) _) fun found => ?_
      cases found with
      | none => exact Asks.throw _
      | some session =>
          refine Asks.bind (Asks.lift (ask_asks trivial)) fun now => Asks.ite ?_ (Asks.ite ?_ ?_)
          · exact Asks.bind (Asks.lift (deleteSessionSafe_sessions _)) fun _ => Asks.throw _
          · exact Asks.bind (Asks.lift (revokeOnReuse_sessions _)) fun _ => Asks.throw _
          · exact rotateSession_sessions host session

theorem revokeSessionFromCookie_sessions (cookie : Option (List UInt8)) :
    (revokeSessionFromCookie cookie).Asks Query.SessionsOnly := by
  unfold revokeSessionFromCookie
  cases cookie.bind validateRefreshToken with
  | none => exact trivial
  | some parsed =>
      refine Prog.Asks.bind (select_asks trivial) fun result => ?_
      split
      · refine Prog.Asks.bind (deleteSession_sessions _) fun _ => ?_
        exact trivial
      · exact trivial

/-! ### Account handlers -/

section Accounts

variable {host : Host} {past : Past}

/-- A part that writes on the sessions only. -/
theorem Sanctioning.sessions {ε α : Type} {req : Request} {p : ExceptT ε Backend α}
    (asks : Asks Query.SessionsOnly p) : Sanctioning host req past (fun _ _ => True) p :=
  Sanctioning.weaken (Sanctioning.of_asks asks fun _ _ _ here => here.allowed) fun _ _ _ => trivial

/-- A database function whose error is only logged. -/
theorem Sanctioning.logged {ε α : Type} {req : Request} {post : Past → α → Prop} {p : Db α}
    (sanctioning : Sanctioning host req past post p) :
    Sanctioning host req past (fun _ _ => True)
      (liftM (p.run : Backend (Except Err α)) : ExceptT ε Backend (Except Err α)) :=
  Obeys.lift (Prog.Obeys.mono (fun _ _ here => here) (fun _ _ _ => trivial) sanctioning)

theorem handleLogin_sanctioning {ip : String} {body : Body LoginRequest} :
    Sanctioning host (.login ip body) past (fun _ _ => True) (handleLogin host ip body) := by
  refine Sanctioning.bind (Sanctioning.ask (by exact trivial)) fun _ blocked here => ?_
  subst here
  refine Sanctioning.bind (Sanctioning.ensure _ _) ?_
  rintro _ _ ⟨rfl, _⟩
  refine Sanctioning.bind Sanctioning.decode ?_
  rintro _ login ⟨rfl, decoded⟩
  refine Sanctioning.bind (Sanctioning.ask (by exact trivial)) fun _ blocked here => ?_
  subst here
  refine Sanctioning.bind (Sanctioning.ensure _ _) ?_
  rintro _ _ ⟨rfl, _⟩
  refine Sanctioning.bind (Sanctioning.orFail (Sanctioning.select _) _) fun found user here => ?_
  cases user with
  | none => exact Sanctioning.ending (Asks.bind (Asks.lift (ask_asks trivial)) fun _ => Asks.throw _)
  | some user =>
  have read : (⟨.read (.userByEmail login.email), .ok (some user)⟩ : Entry Query.Answer) ∈ found := by
    rw [here]
    exact List.mem_cons_self
  show Sanctioning host _ _ _
    (if user.active = false ∨ host.checkPassword user.passwordHash login.password = false then _ else _)
  by_cases refused : user.active = false ∨ host.checkPassword user.passwordHash login.password = false
  · rw [if_pos refused]
    exact Sanctioning.ending (Asks.bind (Asks.lift (ask_asks trivial)) fun _ => Asks.throw _)
  · rw [if_neg refused]
    rw [not_or, Bool.not_eq_false, Bool.not_eq_false] at refused
    refine Sanctioning.bind (Sanctioning.of_asks (Asks.lift (createUserSession_sessions host user))
      fun _ _ _ here => here.allowed) fun later created suffix => ?_
    cases created with
    | none => exact Sanctioning.ending (Asks.throw _)
    | some created =>
        refine Sanctioning.bind (Sanctioning.ask (by exact trivial)) fun _ _ here => ?_
        subst here
        have last : Sanctioning host (.login ip body) (⟨.resetOnSuccess ip login.email, ()⟩ :: later)
            (fun _ _ => True) (updateUserLastLogin user.id) := by
          refine Sanctioning.bind (Sanctioning.ask (by exact trivial)) fun _ at_ here => ?_
          subst here
          refine Sanctioning.bind (Sanctioning.exec (.lastLogin decoded ?_ refused.2))
            fun _ _ _ => Obeys.pure trivial
          exact List.mem_cons_of_mem _ (List.mem_cons_of_mem _ (suffix.subset read))
        exact Sanctioning.bind (Sanctioning.logged last) fun _ _ _ => Obeys.pure trivial

theorem handleRefresh_sanctioning {req : Request} (ip : String) (cookie : Option (List UInt8)) :
    Sanctioning host req past (fun _ _ => True) (handleRefresh host ip cookie) := by
  refine Sanctioning.sessions (Asks.bind (Asks.lift (ask_asks trivial)) fun allowed => ?_)
  refine Asks.bind (ensure_asks _ _) fun _ => Asks.bind (orRespond_asks _ _) fun token => ?_
  refine Asks.bind (Asks.lift (refreshSession_sessions host token)) fun result => ?_
  cases result with
  | ok tokens => exact Asks.pure _
  | error err => exact Asks.throw _

theorem handlePageLoad_sanctioning {req : Request} (cookie : Option (List UInt8)) :
    Sanctioning host req past (fun _ _ => True) (handlePageLoad host cookie) := by
  refine Sanctioning.sessions (Asks.bind (orRespond_asks _ _) fun token => ?_)
  refine Asks.bind (Asks.lift (refreshSession_sessions host token)) fun result => ?_
  cases result with
  | ok tokens => exact Asks.pure _
  | error err => exact Asks.throw _

theorem deleteSessions_sanctioning {req : Request} (changed : Bool) (userID : Int)
    (response : Response) :
    Sanctioning host req past (fun _ _ => True) (do
      if changed then
        let _ ← ((revokeUserSessions userID).run : Backend _)
      return response : Handler Response) := by
  refine Sanctioning.sessions ?_
  cases changed with
  | true =>
      exact Asks.bind (Asks.lift (deleteSessionsByUserID_sessions userID)) fun _ => Asks.pure _
  | false => exact Asks.pure _

/-- The one write of the user row, and the look at why it changed nothing. -/
theorem updateUser_sanctioning {req : Request} {u : User}
    (sanctioned : ∀ later u removes, Sanctioned host req later (.updateUser u removes)) :
    Sanctioning host req past (fun _ _ => True) (updateUser u) := by
  refine Sanctioning.bind (Sanctioning.ask (by exact trivial)) fun _ updatedAt _ => ?_
  refine Sanctioning.bind (Sanctioning.onDuplicate (Sanctioning.exec (sanctioned _ _ _)) _)
    fun _ rows _ => Sanctioning.ending (Asks.bind ?_ fun _ => Asks.pure _)
  exact Asks.ite (Asks.bind (select_asks (by exact trivial)) fun _ => Asks.throw _) (Asks.pure _)

theorem handleUpdateSelf_sanctioning (caller : Caller) (body : Body UserRequest) :
    Sanctioning host (.updateSelf caller body) past (fun _ _ => True)
      (handleUpdateSelf host caller body) := by
  refine Sanctioning.bind (Sanctioning.looking (ensure_asks _ _)) fun _ _ _ => ?_
  refine Sanctioning.bind (Sanctioning.looking (loadUser_asks reading_read _)) fun _ existing _ => ?_
  refine Sanctioning.bind (Sanctioning.looking (decodeAndValidate_asks _ _)) fun _ req _ => ?_
  refine Sanctioning.bind (Sanctioning.looking ?_) fun _ user _ => ?_
  · refine Asks.ite (Asks.pure _) (Asks.bind (ensure_asks _ _) fun _ => ?_)
    exact setPassword_asks (fun _ => trivial) host _ _
  refine Sanctioning.bind (Sanctioning.orFail (updateUser_sanctioning fun _ _ _ => .updateSelf) _)
    fun _ user _ => ?_
  by_cases changed : req.password ≠ ""
  · rw [if_pos changed]
    exact deleteSessions_sanctioning true caller.userID _
  · rw [if_neg changed]
    exact deleteSessions_sanctioning false caller.userID _

theorem handleCreateUser_sanctioning {caller : Caller} {body : Body UserRequest}
    (permitted : can caller.role .createUser = true) :
    Sanctioning host (.createUser caller body) past (fun _ _ => True) (handleCreateUser host body) := by
  refine Sanctioning.bind (Sanctioning.looking (decodeAndValidate_asks _ _)) fun _ req _ => ?_
  refine Sanctioning.bind (Sanctioning.looking (ensure_asks _ _)) fun _ _ _ => ?_
  refine Sanctioning.bind (Sanctioning.looking (setPassword_asks (fun _ => trivial) host _ _))
    fun later user _ => ?_
  have create : Sanctioning host (.createUser caller body) later (fun _ _ => True)
      (createUser user) := by
    refine Sanctioning.bind (Sanctioning.ask (by exact trivial)) fun _ updatedAt _ => ?_
    exact Sanctioning.bind (Sanctioning.onDuplicate (Sanctioning.exec (.createUser permitted)) _)
      fun _ _ _ => Obeys.pure trivial
  exact Sanctioning.bind (Sanctioning.orFail create _) fun _ _ _ => Obeys.pure trivial

-- the validation is opaque here: the proof only follows what the handler asks
attribute [local irreducible] validateUser validateUserRequest

theorem handleUpdateUser_sanctioning {caller : Caller} {id : Option Int} {found : Int}
    {body : Body UserRequest} (permitted : can caller.role .updateUser = true) :
    Sanctioning host (.updateUser caller id body) past (fun _ _ => True)
      (handleUpdateUser host caller body found) := by
  refine Sanctioning.bind (Sanctioning.looking (loadUser_asks reading_read _)) fun _ existing _ => ?_
  refine Sanctioning.bind (Sanctioning.looking (decodeAndValidate_asks _ _)) fun _ req _ => ?_
  have prepare : Asks Query.Reading (validateAndPrepareUserUpdate host caller existing req) := by
    unfold validateAndPrepareUserUpdate
    split
    · exact Asks.throw _
    · next user _ =>
        have rest : Asks Query.Reading (do
            let updated ← setPassword host user req.password
            return (updated, endsSessions existing req user)) :=
          Asks.bind (setPassword_asks (fun _ => trivial) host _ _) fun _ => Asks.pure _
        refine Asks.ite (Asks.bind ?_ fun _ => rest) rest
        exact verifyAdminPasswordOrRespond_asks (fun _ => reading_read _) _ _ _
  refine Sanctioning.bind (Sanctioning.looking prepare) fun _ prepared _ => ?_
  refine Sanctioning.bind (Sanctioning.orFail (updateUser_sanctioning fun _ _ _ =>
    .updateUser permitted) _) fun _ user _ => ?_
  exact deleteSessions_sanctioning prepared.2 found _

theorem handleDeleteUser_sanctioning {caller : Caller} {id : Int} {body : Body AdminPasswordRequest}
    (permitted : can caller.role .deleteUser = true) :
    Sanctioning host (.deleteUser caller (some id) body) past (fun _ _ => True)
      (handleDeleteUser host caller body id) := by
  refine Sanctioning.bind (Sanctioning.looking (ensure_asks _ _)) fun _ _ _ => ?_
  refine Sanctioning.bind (Sanctioning.looking (requireAdminPassword_asks (fun _ => reading_read _)
    _ _ _)) fun _ _ _ => ?_
  refine Sanctioning.bind (Sanctioning.looking (loadUser_asks reading_read _)) fun later target _ => ?_
  have delete : Sanctioning host (.deleteUser caller (some id) body) later (fun _ _ => True)
      (deleteUser id caller.userID (assigneeName { assignee := some target })) := by
    refine Sanctioning.bind (Sanctioning.ask (by exact trivial)) fun _ created _ => ?_
    refine Sanctioning.bind (Sanctioning.ask (by exact trivial)) fun _ now _ => ?_
    exact Sanctioning.weaken (Sanctioning.exec (.deleteUser permitted)) fun _ _ _ => trivial
  exact Sanctioning.bind (Sanctioning.orFail delete _) fun _ _ _ => Obeys.pure trivial

theorem ensureInitialAdmin_sanctioning {ε : Type} (email password : String) :
    Sanctioning host (.ensureInitialAdmin email password) past (fun _ _ => True)
      (liftM (ensureInitialAdmin host email password) : ExceptT ε Backend Bool) := by
  have asks : (ensureInitialAdmin host email password).Asks fun query =>
      query.Reading ∨ ∃ row, query = .write (.insertUser row) :=
    ensureInitialAdmin_asks (fun _ => .inl) (fun row => .inr ⟨row, rfl⟩) host email password
  refine Sanctioning.weaken (Sanctioning.of_asks (Asks.lift asks) ?_) fun _ _ _ => trivial
  rintro later query _ (reading | ⟨row, rfl⟩)
  · exact reading.allowed
  · exact .firstUser

end Accounts

/-! ### Route wrappers -/

section Wrappers

variable {host : Host} {req : Request} {past : Past} {post : Past → Response → Prop} {caller : Caller}
  {action : Action}

theorem withRole_sanctioning {h : Handler Response}
    (handles : can caller.role action = true → Sanctioning host req past post h) :
    Sanctioning host req past post (withRole caller action h) := by
  refine Sanctioning.bind (Sanctioning.ensure _ _) ?_
  rintro _ _ ⟨rfl, permitted⟩
  exact handles permitted

theorem resourceIDFromPath_sanctioning (id : Option Int) :
    Sanctioning host req past (fun later found => later = past ∧ id = some found)
      (resourceIDFromPath id) := by
  refine Sanctioning.weaken (Sanctioning.orRespond _ _) fun _ _ holds => ⟨holds.1, ?_⟩
  exact (Option.filter_eq_some_iff.mp holds.2).1

theorem withResource_sanctioning {id : Option Int} {h : Int → Handler Response}
    (handles : ∀ found, id = some found → can caller.role action = true →
      Sanctioning host req past post (h found)) :
    Sanctioning host req past post (withResource caller action id h) := by
  refine withRole_sanctioning fun permitted => ?_
  refine Sanctioning.bind (resourceIDFromPath_sanctioning id) ?_
  rintro _ found ⟨rfl, same⟩
  exact handles found same permitted

theorem withProject_sanctioning {pId : Option Int} {h : Int → Handler Response}
    (handles : ∀ later projectID, Unwritten later → Entered caller action pId later projectID →
      Sanctioning host req later post (h projectID)) :
    Sanctioning host req [] post (withProject caller action pId h) := by
  refine withRole_sanctioning fun permitted => ?_
  have access : Sanctioning host req []
      (fun later projectID => Unwritten later ∧ Entered caller action pId later projectID)
      (checkProjectAccess pId) := by
    refine Sanctioning.bind (Sanctioning.orRespond _ _) ?_
    rintro _ projectID ⟨rfl, path⟩
    refine Sanctioning.bind (Sanctioning.orFail (Sanctioning.select _) _) fun _ found here => ?_
    subst here
    refine Sanctioning.bind (Sanctioning.ensure _ _) ?_
    rintro _ _ ⟨rfl, rfl⟩
    have unwritten : Unwritten [] := fun _ member => absurd member List.not_mem_nil
    exact Obeys.pure ⟨unwritten.read, permitted, (Option.filter_eq_some_iff.mp path).1,
      List.mem_cons_self⟩
  exact Sanctioning.bind access fun later projectID holds =>
    handles later projectID holds.1 holds.2

theorem withProjectResource_sanctioning {pId id : Option Int} {h : Int → Int → Handler Response}
    (handles : ∀ later projectID found, id = some found → Unwritten later →
      Entered caller action pId later projectID →
      Sanctioning host req later post (h projectID found)) :
    Sanctioning host req [] post (withProjectResource caller action pId id h) := by
  refine withProject_sanctioning fun later projectID unwritten entered => ?_
  refine Sanctioning.bind (resourceIDFromPath_sanctioning id) ?_
  rintro _ found ⟨rfl, same⟩
  exact handles _ projectID found same unwritten entered

theorem withIssue_sanctioning {pId iId : Option Int} {h : Int → Issue → Handler Response}
    (handles : ∀ later projectID issueID issue, iId = some issueID → Unwritten later →
      Entered caller action pId later projectID → LoadedIssue later issueID projectID issue →
      Sanctioning host req later post (h issueID issue)) :
    Sanctioning host req [] post (withIssue caller action pId iId h) := by
  refine withProject_sanctioning fun later projectID unwritten entered => ?_
  refine Sanctioning.bind (resourceIDFromPath_sanctioning iId) ?_
  rintro _ issueID ⟨rfl, same⟩
  refine Sanctioning.bind (loadIssue_sanctioning issueID projectID unwritten) ?_
  rintro later issue ⟨suffix, unwritten, loaded⟩
  exact handles later projectID issueID issue same unwritten (entered.mono suffix) loaded

theorem withIssueResource_sanctioning {pId iId id : Option Int}
    {h : Int → Int → Issue → Handler Response}
    (handles : ∀ later projectID issueID found issue, iId = some issueID → id = some found →
      Unwritten later → Entered caller action pId later projectID →
      LoadedIssue later issueID projectID issue →
      Sanctioning host req later post (h issueID found issue)) :
    Sanctioning host req [] post (withIssueResource caller action pId iId id h) := by
  refine withIssue_sanctioning fun later projectID issueID issue same unwritten entered loaded => ?_
  refine Sanctioning.bind (resourceIDFromPath_sanctioning id) ?_
  rintro _ found ⟨rfl, same'⟩
  exact handles _ projectID issueID found issue same same' unwritten entered loaded

end Wrappers

/-! ### Every request -/

/-- The handler of every request writes only what is sanctioned. -/
theorem handler_sanctioning {host : Host} (req : Request) :
    Sanctioning host req [] (fun _ _ => True) (handler host req) := by
  cases req with
  | createIssue caller pId body =>
      exact withProject_sanctioning fun _ _ => handleCreateIssue_sanctioning
  | getIssue caller pId id =>
      refine withProjectResource_sanctioning fun _ _ _ _ _ _ => Sanctioning.ending ?_
      exact Asks.bind (loadIssue_asks reading_read _ _) fun _ => Asks.pure _
  | putIssue caller pId id ifMatch body =>
      refine withProjectResource_sanctioning fun _ _ _ same => ?_
      subst same
      exact handlePutIssue_sanctioning
  | putIssuePositions caller pId body =>
      exact withProject_sanctioning fun _ _ => handlePutIssuePositions_sanctioning
  | archiveIssue caller pId id =>
      refine withProjectResource_sanctioning fun _ _ _ same => ?_
      subst same
      exact handleArchiveIssue_sanctioning
  | unarchiveIssue caller pId id =>
      refine withProjectResource_sanctioning fun _ _ _ same => ?_
      subst same
      exact handleUnarchiveIssue_sanctioning
  | moveIssue caller pId id body =>
      refine withProjectResource_sanctioning fun _ _ _ same => ?_
      subst same
      exact handleMoveIssue_sanctioning
  | deleteIssue caller pId id body =>
      refine withProjectResource_sanctioning fun _ _ _ same => ?_
      subst same
      exact handleDeleteIssue_sanctioning
  | createTask caller pId iId body =>
      refine withIssue_sanctioning fun _ _ _ _ same => ?_
      subst same
      exact handleCreateTask_sanctioning
  | putTask caller pId iId id body =>
      refine withIssueResource_sanctioning fun _ _ _ _ _ same same' => ?_
      subst same same'
      exact handlePutTask_sanctioning
  | putTaskPositions caller pId iId body =>
      refine withIssue_sanctioning fun _ _ _ _ same => ?_
      subst same
      exact handlePutTaskPositions_sanctioning
  | deleteTask caller pId iId id =>
      refine withIssueResource_sanctioning fun _ _ _ _ _ same same' => ?_
      subst same same'
      exact handleDeleteTask_sanctioning
  | createComment caller pId iId body =>
      refine withIssue_sanctioning fun _ _ _ _ same => ?_
      subst same
      exact handleCreateComment_sanctioning
  | putComment caller pId iId id body =>
      refine withIssueResource_sanctioning fun _ _ _ _ _ same same' => ?_
      subst same same'
      exact handlePutComment_sanctioning
  | deleteComment caller pId iId id =>
      refine withIssueResource_sanctioning fun _ _ _ _ _ same same' => ?_
      subst same same'
      exact handleDeleteComment_sanctioning
  | createLabel caller pId body =>
      exact withProject_sanctioning fun _ _ => handleCreateLabel_sanctioning
  | deleteLabel caller pId id body =>
      refine withProjectResource_sanctioning fun _ _ _ same => ?_
      subst same
      exact handleDeleteLabel_sanctioning
  | getStatusConfig caller pId =>
      refine withProject_sanctioning fun _ _ _ _ => Sanctioning.ending ?_
      exact Asks.bind (orInternal_asks (getStatusConfig_asks reading_read _)) fun _ => Asks.pure _
  | updateStatusConfig caller pId body =>
      exact withProject_sanctioning fun _ _ => handleUpdateStatusConfig_sanctioning
  | createProject caller body =>
      refine withRole_sanctioning (handleCreateProject_sanctioning ?_)
      exact fun _ member => absurd member List.not_mem_nil
  | updateProject caller pId body =>
      exact withProject_sanctioning fun _ _ => handleUpdateProject_sanctioning
  | deleteProject caller pId body =>
      exact withProject_sanctioning fun _ _ => handleDeleteProject_sanctioning
  | createRelease caller pId body =>
      exact withProject_sanctioning fun _ _ => handleCreateRelease_sanctioning
  | getRelease caller pId id =>
      refine withProjectResource_sanctioning fun _ _ _ _ _ _ => Sanctioning.ending ?_
      exact Asks.bind (loadRelease_asks reading_read _ _) fun _ => Asks.pure _
  | putRelease caller pId id body =>
      refine withProjectResource_sanctioning fun _ _ _ same => ?_
      subst same
      exact handlePutRelease_sanctioning
  | deleteRelease caller pId id body =>
      refine withProjectResource_sanctioning fun _ _ _ same => ?_
      subst same
      exact handleDeleteRelease_sanctioning
  | triggerRelease caller pId id body =>
      refine withProjectResource_sanctioning fun _ _ _ same => ?_
      subst same
      exact handleTriggerRelease_sanctioning
  | reopenRelease caller pId id =>
      refine withProjectResource_sanctioning fun _ _ _ same => ?_
      subst same
      exact handleReopenRelease_sanctioning
  | getUser caller id =>
      refine withResource_sanctioning fun _ _ _ => Sanctioning.ending ?_
      exact Asks.bind (loadUser_asks reading_read _) fun _ => Asks.pure _
  | createUser caller body => exact withRole_sanctioning handleCreateUser_sanctioning
  | updateUser caller id body =>
      exact withResource_sanctioning fun _ _ => handleUpdateUser_sanctioning
  | deleteUser caller id body =>
      refine withResource_sanctioning fun _ same => ?_
      subst same
      exact handleDeleteUser_sanctioning
  | updateSelf caller body => exact handleUpdateSelf_sanctioning caller body
  | login ip body => exact handleLogin_sanctioning
  | logout cookie =>
      exact Sanctioning.sessions (Asks.bind (Asks.lift (revokeSessionFromCookie_sessions cookie))
        fun _ => Asks.pure _)
  | refresh ip cookie => exact handleRefresh_sanctioning ip cookie
  | pageLoad cookie => exact handlePageLoad_sanctioning cookie
  | cleanUpSessions =>
      have delete : Asks Query.SessionsOnly deleteExpiredSessions :=
        Asks.bind (Asks.lift (ask_asks trivial)) fun _ => exec_asks (by exact trivial)
      exact Sanctioning.sessions (Asks.bind (Asks.lift delete) fun _ => Asks.pure _)
  | ensureInitialAdmin email password =>
      exact Sanctioning.bind (ensureInitialAdmin_sanctioning email password) fun _ _ _ =>
        Obeys.pure trivial

/-- **Every request writes only what is sanctioned.** -/
theorem serve_sanctioned (host : Host) (req : Request) :
    (serve host req).Obeys (Query.Allowed host req) (fun _ _ => True) [] :=
  Handler.respond_obeys (handler_sanctioning req)

end Wuflow

/-
**Sensitive updates of a user are confirmed, and end its sessions.**

`UpdateCommitted` says what an update that is answered with 200 has done: whether it had to be confirmed with
the password of the admin, which sessions it has deleted, and that nothing else is different.

* `handleUpdateUser_ensures` — the handler alone, where statements may fail.
* `needsConfirmation_iff` — the handler's test in terms of the rows before and after.
* `user_updates_confirmed` — the updates of any request, and the form that asks for the password.
-/

import Wuflow.Frontend.SystemSettings
import Wuflow.Model.Sanitize
import Wuflow.Requests.Alone

namespace Wuflow

open Interleave (Prog Run)
open Interleave.Stopping (Asks Ensures)
open Relational (Table)

/-! ### The steps of the account handlers -/

section Steps

variable {β : Type} {may : Query → Prop} {sem : (query : Query) → Store → query.Answer → Store → Prop}
  {s : Store} {post : β → Store → Prop} {stop : Response → Store → Prop}

/-- The account that the acting admin's access token names, `caller.email`, has the password. -/
def ConfirmedBy (host : Host) (caller : Caller) (adminPassword : String) (s : Store) : Prop :=
  ∃ adminID admin, s.users.get? adminID = some admin ∧ admin.email = caller.email ∧
    adminPassword ≠ "" ∧ host.checkPassword admin.passwordHash adminPassword = true

theorem hash_reading (password : String) : (Query.hashPassword password).Reading := trivial

theorem withResource_ensures {caller : Caller} {action : Action} {id : Option Int}
    {h : Int → Handler Response} {post : Response → Store → Prop}
    (fails : ∀ response, response.Refused → stop response s)
    (next : ∀ found, can caller.role action = true → id = some found →
      Ensures sem post stop (h found) s) :
    Ensures sem post stop (withResource caller action id h) s := by
  refine Ensured.ensure (fails _ (by decide)) fun permitted => ?_
  refine Ensured.orRespond (fails _ (by decide)) fun found here => ?_
  exact next found permitted (Option.filter_eq_some_iff.mp here).1

theorem loadUser_ensures (tame : Tame may sem) {id : Int} {f : User → Handler β}
    (fails : ∀ response, response.Refused → stop response s)
    (next : ∀ row, s.users.get? id = some row → Ensures sem post stop (f (scanUserRow id row)) s) :
    Ensures sem post stop (loadUser id >>= f) s := by
  refine Ensures.bind (Ensured.orFail (Ensured.select_end tame (fun _ _ => fails _ (by decide)) ?_))
  cases here : Select.eval (.userByID id) s with
  | none => exact fails _ (by decide)
  | some user =>
      obtain ⟨row, found, rfl⟩ := Option.map_eq_some_iff.mp here
      exact next row found

/-- The admin's password is verified. -/
theorem verifyAdmin_ensures (tame : Tame may sem) {host : Host} {caller : Caller} {password : String}
    {f : Unit → Handler β} (fails : ∀ response, response.Refused → stop response s)
    (next : ConfirmedBy host caller password s → Ensures sem post stop (f ()) s) :
    Ensures sem post stop (verifyAdminPasswordOrRespond host caller password >>= f) s := by
  have verified : Prog.Ensures sem
      (fun result s' => s' = s ∧ (result = .ok () → ConfirmedBy host caller password s))
      (verifyAdminPassword host caller.email password) s := by
    refine Prog.Ensures.bind fun answer s' here => ?_
    rcases tame _ _ _ _ here with performed | ⟨_, rfl, rfl⟩
    · obtain ⟨rfl, rfl⟩ := perform_read performed
      cases here : Select.eval (.userByEmail caller.email) s' with
      | none => exact ⟨rfl, nofun⟩
      | some admin =>
          obtain ⟨⟨adminID, row⟩, found, rfl⟩ := Option.map_eq_some_iff.mp here
          show Prog.Ensures sem _ (if password = "" ∨ host.checkPassword row.passwordHash password = false
            then (pure (Except.error AdminErr.required) : Backend _) else pure (Except.ok ())) s'
          split
          · exact ⟨rfl, nofun⟩
          · next accepted =>
              obtain ⟨given, correct⟩ := not_or.mp accepted
              refine ⟨rfl, fun _ => ⟨adminID, row, ?_, ?_, given, (Bool.not_eq_false _).mp correct⟩⟩
              · exact Table.mem_entries_iff.mp (List.mem_of_find?_eq_some found)
              · simpa using List.find?_some found
    · exact ⟨rfl, nofun⟩
  refine Ensures.bind (Ensures.bind (Ensures.lift (Prog.Ensures.mono (fun result s' holds => ?_) verified)))
  obtain ⟨rfl, confirmed⟩ := holds
  cases result with
  | ok _ => exact next (confirmed rfl)
  | error err =>
      cases err with
      | checkDB => exact fails _ (by decide)
      | required => exact fails _ (by decide)

/-- A new password, if there is one, is the only change that `updateUserPassword` makes. -/
theorem setPassword_ensures (tame : Tame may sem) {host : Host} {user : User} {newPassword : String}
    {f : User → Handler β} (fails : ∀ response, response.Refused → stop response s)
    (next : ∀ hash, (newPassword = "" → hash = user.passwordHash) →
      Ensures sem post stop (f { user with passwordHash := hash }) s) :
    Ensures sem post stop (setPassword host user newPassword >>= f) s := by
  have hashed : Prog.Ensures sem
      (fun result s' => s' = s ∧ ∀ updated, result = .ok updated →
        ∃ hash, (newPassword = "" → hash = user.passwordHash) ∧
          updated = { user with passwordHash := hash })
      (updateUserPassword host user newPassword) s := by
    unfold updateUserPassword
    by_cases empty : newPassword = ""
    · rw [if_pos empty]
      refine ⟨rfl, fun updated same => ?_⟩
      cases same
      exact ⟨user.passwordHash, fun _ => rfl, rfl⟩
    · rw [if_neg empty]
      cases validatePassword host newPassword user.email with
      | error message => exact ⟨rfl, nofun⟩
      | ok _ =>
          refine Prog.Ensures.bind fun answer s' here => ?_
          obtain rfl : s' = s := reading_same tame (hash_reading newPassword) here
          cases answer with
          | none => exact ⟨rfl, nofun⟩
          | some hash =>
              refine ⟨rfl, fun updated same => ?_⟩
              cases same
              exact ⟨hash, fun same => absurd same empty, rfl⟩
  refine Ensures.bind (Ensures.bind (Ensures.lift (Prog.Ensures.mono (fun result s' holds => ?_) hashed)))
  obtain ⟨rfl, made⟩ := holds
  cases result with
  | ok updated =>
      obtain ⟨hash, kept, rfl⟩ := made updated rfl
      exact next hash kept
  | error err =>
      cases err with
      | policy message => exact fails _ (badRequest_refused _)
      | hash => exact fails _ (by decide)

/-- The columns of a user are written, and nothing else. -/
structure UserWritten (user : User) (s : Store) (row : UserRow) (s' : Store) : Prop where
  stored : s.users.get? user.id = some row
  written : s'.users.get? user.id = some (UserRow.setFrom user row)
  others : ∀ key, key ≠ user.id → s'.users.get? key = s.users.get? key
  rest : { s' with users := s.users } = s

/-- An `UpdateUser` changes the row of its user, or nothing. -/
theorem updateUser_written {user : User} {removes : Bool} {rows : Int} {s' : Store}
    (applied : (Write.updateUser user removes).apply s = .ok (rows, s')) :
    (rows = 0 ∧ s' = s) ∨ (rows ≠ 0 ∧ ∃ row, UserWritten user s row s') := by
  by_cases none : rows = 0
  · obtain ⟨_, rest⟩ := require_bind_ok.mp applied
    cases rest
    have same : s.users.update _ (UserRow.setFrom user) = s.users :=
      Table.update_of_none (Table.count_eq_zero_iff.mp none)
    exact .inl ⟨none, by rw [same]⟩
  · obtain ⟨row, stored, written⟩ := updateUser_sets applied none
    obtain ⟨_, rest⟩ := require_bind_ok.mp applied
    cases rest
    refine .inr ⟨none, row, stored, written, fun key other => ?_, rfl⟩
    show (s.users.update _ _).get? key = _
    rw [Table.get?_update]
    have differ : (key == user.id) = false := beq_false_of_ne other
    simp only [differ, Bool.false_and, Bool.false_eq_true, if_false]
    exact Option.map_id' ..

theorem updateUser_ensures (tame : Tame may sem) {user : User} {f : User → Handler β}
    (fails : ∀ response, response.Refused → stop response s)
    (next : ∀ now row s', UserWritten { user with updatedAt := now } s row s' →
      Ensures sem post stop (f { user with updatedAt := now }) s') :
    Ensures sem post stop (orFail (updateUser user) userWriteError >>= f) s := by
  have refused : ∀ err, (userWriteError err).Refused := by
    intro err
    cases err <;> decide
  refine Ensured.orFail (Ensured.ask tame now_reading fun now => Ensures.bind ?_)
  refine Ensures.adapt (Ensured.exec_end tame (fun err _ => fails _ (refused _)) fun rows s' applied => ?_)
  rcases updateUser_written applied with ⟨rfl, rfl⟩ | ⟨changed, row, written⟩
  · -- a write that changed no row is looked into, and refused
    refine Ensures.bind (Ensured.select tame (fun _ _ => fails _ (refused _)) ?_)
    exact fails _ (refused _)
  · unfold userWriteErr
    rw [if_neg changed]
    exact next now row s' written

end Steps

/-! ### Updates -/

/-- The update sets a password, changes the email, toggles the active flag or raises the role. -/
def Sensitive (sent : UserRequest) (row row' : UserRow) : Prop :=
  sent.password ≠ "" ∨ row'.email ≠ row.email ∨ row'.active ≠ row.active ∨
    roleRank row.role < roleRank row'.role

/-- The update sets a password, changes the email or the role, or leaves the user inactive. -/
def EndsSessions (sent : UserRequest) (row row' : UserRow) : Prop :=
  sent.password ≠ "" ∨ row'.email ≠ row.email ∨ row'.role ≠ row.role ∨ row'.active = false

/-- **The update of the user `id` with `sent` is committed**: `row` has become `row'`. -/
structure UpdateCommitted (may : Query → Prop) (host : Host) (caller : Caller) (id : Int)
    (sent : UserRequest) (row row' : UserRow) (before after : Store) : Prop where
  stored : before.users.get? id = some row
  written : after.users.get? id = some row'
  /-- A new hash is that of a new password. -/
  password : row'.passwordHash ≠ row.passwordHash → sent.password ≠ ""
  names : row'.firstName = sanitizeString (trimSpace sent.firstName) ∧
    row'.lastName = sanitizeString (trimSpace sent.lastName)
  confirmed : Sensitive sent row row' → ConfirmedBy host caller sent.adminPassword before
  /-- All sessions of the user are deleted, unless the statement fails. -/
  ended : EndsSessions sent row row' →
    after.sessions = before.sessions.delete (fun _ session => session.userID == id) ∨
      may (.write (.deleteSessionsByUserID id)) ∧ after.sessions = before.sessions
  kept : ¬ EndsSessions sent row row' → after.sessions = before.sessions
  others : ∀ key, key ≠ id → after.users.get? key = before.users.get? key
  rest : { after with users := before.users, sessions := before.sessions } = before

/-- The two tests of the handler, on the user it has loaded and the user it writes. -/
theorem needsConfirmation_iff {id : Int} {row : UserRow} {req : UserRequest} {user : User} {hash : String}
    {now : Calendar.Instant} (role : user.role = req.role) (active : user.active = req.active) :
    needsConfirmation (scanUserRow id row) req user = true ↔
      Sensitive req row (UserRow.setFrom { user with passwordHash := hash, updatedAt := now } row) := by
  unfold needsConfirmation Sensitive
  rw [Bool.or_eq_true, Bool.or_eq_true, Bool.or_eq_true, bne_iff_ne, bne_iff_ne, bne_iff_ne,
    decide_eq_true_iff]
  simp only [scanUserRow, UserRow.setFrom, role, active]
  tauto

theorem endsSessions_iff {id : Int} {row : UserRow} {req : UserRequest} {user : User} {hash : String}
    {now : Calendar.Instant} (role : user.role = req.role) (active : user.active = req.active) :
    endsSessions (scanUserRow id row) req user = true ↔
      EndsSessions req row (UserRow.setFrom { user with passwordHash := hash, updatedAt := now } row) := by
  unfold endsSessions EndsSessions
  rw [Bool.or_eq_true, Bool.or_eq_true, Bool.or_eq_true, bne_iff_ne, bne_iff_ne, bne_iff_ne,
    Bool.not_eq_true']
  simp only [scanUserRow, UserRow.setFrom, role, active, ne_comm]
  tauto

/-- A validated user has the id, the role, the active flag and the hash it had. -/
theorem validateUser_kept {sent user : User} (valid : validateUser sent = .ok user) :
    user.id = sent.id ∧ user.role = sent.role ∧ user.active = sent.active ∧
      user.passwordHash = sent.passwordHash := by
  unfold validateUser at valid
  obtain ⟨_, _, rest⟩ := bind_ok.mp valid
  cases rest
  exact ⟨rfl, rfl, rfl, rfl⟩

/-- The email is trimmed, the names are sanitised. -/
theorem validateUser_texts {sent user : User} (valid : validateUser sent = .ok user) :
    user.email = trimSpace sent.email ∧ user.firstName = sanitizeString sent.firstName ∧
      user.lastName = sanitizeString sent.lastName := by
  unfold validateUser at valid
  obtain ⟨_, _, rest⟩ := bind_ok.mp valid
  cases rest
  exact ⟨rfl, rfl, rfl⟩

/-- The texts of a request are only trimmed. -/
theorem validateUserRequest_texts {sent req : UserRequest} (valid : validateUserRequest sent = .ok req) :
    req.email = trimSpace sent.email ∧ req.firstName = trimSpace sent.firstName ∧
      req.lastName = trimSpace sent.lastName := by
  unfold validateUserRequest at valid
  obtain ⟨_, _, rest⟩ := bind_ok.mp valid
  cases rest
  exact ⟨rfl, rfl, rfl⟩

/-- Validating a request leaves the passwords, the role and the active flag as they were sent. -/
theorem validateUserRequest_kept {sent req : UserRequest} (valid : validateUserRequest sent = .ok req) :
    req.password = sent.password ∧ req.adminPassword = sent.adminPassword ∧ req.role = sent.role ∧
      req.active = sent.active := by
  unfold validateUserRequest at valid
  obtain ⟨_, _, rest⟩ := bind_ok.mp valid
  cases rest
  exact ⟨rfl, rfl, rfl, rfl⟩

section Handler

variable {may : Query → Prop} {sem : (query : Query) → Store → query.Answer → Store → Prop} {s : Store}
  {host : Host} {caller : Caller}

/-- The sessions of the user are deleted, or the statement fails. -/
theorem revoke_ensures (tame : Tame may sem) {id : Int} {response : Response}
    {post : Response → Store → Prop}
    (deleted : post response
      { s with sessions := s.sessions.delete fun _ session => session.userID == id })
    (failed : may (.write (.deleteSessionsByUserID id)) → post response s) :
    Ensures sem post post
      (do
        let _ ← ((revokeUserSessions id).run : Backend _)
        return response : Handler Response) s := by
  refine Ensures.bind (Ensures.lift ?_)
  have ended : Ensures sem (fun _ s' => post response s') (fun _ s' => post response s')
      (revokeUserSessions id) s := by
    refine Ensures.bind (Ensured.exec_end tame (fun err cause => ?_) fun rows s' applied => ?_)
    · rcases cause with faulty | never
      · exact failed faulty
      · exact nomatch never
    · cases applied
      exact deleted
  refine Prog.Ensures.mono (fun result s' holds => ?_) ended
  cases result with
  | ok _ => exact holds
  | error err => exact holds

/-- The user to write is valid, and a confirmation that is needed has been given. -/
theorem prepareUpdate_ensures {β : Type} {post : β → Store → Prop} {stop : Response → Store → Prop}
    (tame : Tame may sem) {existing : User} {req : UserRequest} {f : User × Bool → Handler β}
    (fails : ∀ response, response.Refused → stop response s)
    (next : ∀ user hash, validateUser { existing with
        email := trimSpace req.email, firstName := trimSpace req.firstName,
        lastName := trimSpace req.lastName, role := req.role, active := req.active } = .ok user →
      (needsConfirmation existing req user = true → ConfirmedBy host caller req.adminPassword s) →
      (req.password = "" → hash = user.passwordHash) →
      Ensures sem post stop (f ({ user with passwordHash := hash }, endsSessions existing req user)) s) :
    Ensures sem post stop (validateAndPrepareUserUpdate host caller existing req >>= f) s := by
  unfold validateAndPrepareUserUpdate
  cases prepared : validateUser { existing with
      email := trimSpace req.email, firstName := trimSpace req.firstName,
      lastName := trimSpace req.lastName, role := req.role, active := req.active } with
  | error message => exact fails _ (badRequest_refused _)
  | ok user =>
      refine Ensures.bind ?_
      by_cases needs : needsConfirmation existing req user = true
      · simp only [needs, if_true]
        refine verifyAdmin_ensures tame fails fun confirmed => ?_
        exact setPassword_ensures tame fails fun hash kept => next user hash prepared (fun _ => confirmed) kept
      · simp only [needs]
        exact setPassword_ensures tame fails fun hash kept =>
          next user hash prepared (fun needed => absurd needed needs) kept

/-- The row after the update, and what follows for its sessions. -/
theorem updateCommitted_of_written {id : Int} {row : UserRow} {sent req : UserRequest} {user : User}
    {hash : String} {now : Calendar.Instant} {written after : Store}
    (valid : validateUserRequest sent = .ok req)
    (prepared : validateUser { scanUserRow id row with
        email := trimSpace req.email, firstName := trimSpace req.firstName,
        lastName := trimSpace req.lastName, role := req.role, active := req.active } = .ok user)
    (stored : s.users.get? id = some row)
    (confirmed : needsConfirmation (scanUserRow id row) req user = true →
      ConfirmedBy host caller req.adminPassword s)
    (kept : req.password = "" → hash = user.passwordHash) {found : UserRow}
    (wrote : UserWritten { user with passwordHash := hash, updatedAt := now } s found written)
    (users : after.users = written.users)
    (rest : { after with sessions := written.sessions } = written)
    (sessions : if endsSessions (scanUserRow id row) req user = true then
        after.sessions = written.sessions.delete (fun _ session => session.userID == id) ∨
          may (.write (.deleteSessionsByUserID id)) ∧ after.sessions = written.sessions
      else after.sessions = written.sessions) :
    UpdateCommitted may host caller id sent row
      (UserRow.setFrom { user with passwordHash := hash, updatedAt := now } row) s after := by
  obtain ⟨password, adminPassword, _, _⟩ := validateUserRequest_kept valid
  obtain ⟨same, role, active, oldHash⟩ := validateUser_kept prepared
  obtain rfl : user.id = id := same
  obtain ⟨_, firstName, lastName⟩ := validateUser_texts prepared
  obtain ⟨_, sentFirst, sentLast⟩ := validateUserRequest_texts valid
  have confirms := @needsConfirmation_iff user.id row req user hash now role active
  have ending := @endsSessions_iff user.id row req user hash now role active
  have sensitive : ∀ row', Sensitive sent row row' ↔ Sensitive req row row' := fun row' => by
    unfold Sensitive
    rw [password]
  have revoking : ∀ row', EndsSessions sent row row' ↔ EndsSessions req row row' := fun row' => by
    unfold EndsSessions
    rw [password]
  obtain rfl : found = row := Option.some.inj (wrote.stored.symm.trans stored)
  have untouched : { written with users := s.users }.sessions = s.sessions :=
    congrArg Store.sessions wrote.rest
  dsimp only at untouched
  rw [untouched] at sessions
  refine
    { stored, written := users ▸ wrote.written
      password := fun changed empty => changed ?_
      names := ⟨?_, ?_⟩
      confirmed := fun changes => ?_
      ended := fun changes => ?_
      kept := fun changes => ?_
      others := fun key other => users ▸ wrote.others key other
      rest := ?_ }
  · exact (kept (password ▸ empty)).trans oldHash
  · rw [sentFirst, trimSpace_trimSpace] at firstName
    exact firstName
  · rw [sentLast, trimSpace_trimSpace] at lastName
    exact lastName
  · rw [← adminPassword]
    exact confirmed (confirms.mpr ((sensitive _).mp changes))
  · rwa [if_pos (ending.mpr ((revoking _).mp changes))] at sessions
  · rwa [if_neg fun ends => changes ((revoking _).mpr (ending.mp ends))] at sessions
  · have columns := congrArg (fun store : Store => { store with users := s.users }) rest
    rw [← untouched]
    exact columns.trans wrote.rest

/-- What a request to update a user has done, answered with `response`. -/
def UpdateOutcome (may : Query → Prop) (host : Host) (caller : Caller) (id : Int) (body : Body UserRequest)
    (before : Store) (response : Response) (after : Store) : Prop :=
  (response.status = 200 ∧ ∃ sent row row', body = .json sent ∧
    UpdateCommitted may host caller id sent row row' before after) ∨
  (response.Refused ∧ after = before)

-- the rules below are for the programs as they are written, not for what they evaluate to
attribute [local irreducible] validateAndPrepareUserUpdate

/-- **The handler**: it commits the update, or is refused and changes nothing. -/
theorem handleUpdateUser_ensures (tame : Tame may sem) (body : Body UserRequest) (id : Int) :
    Ensures sem (UpdateOutcome may host caller id body s) (UpdateOutcome may host caller id body s)
      (handleUpdateUser host caller body id) s := by
  have fails : ∀ response, response.Refused → UpdateOutcome may host caller id body s response s :=
    fun _ refused => .inr ⟨refused, rfl⟩
  refine loadUser_ensures tame fails fun row stored => ?_
  refine Ensured.decode (fun _ => fails _ (badRequest_refused _)) fun req decoded => ?_
  obtain ⟨sent, rfl, valid⟩ := decoded
  refine prepareUpdate_ensures tame fails fun user hash prepared confirmed kept => ?_
  refine updateUser_ensures tame fails fun now found written wrote => ?_
  have committed : ∀ after : Store, after.users = written.users →
      { after with sessions := written.sessions } = written →
      (if endsSessions (scanUserRow id row) req user = true then
        after.sessions = written.sessions.delete (fun _ session => session.userID == id) ∨
          may (.write (.deleteSessionsByUserID id)) ∧ after.sessions = written.sessions
      else after.sessions = written.sessions) →
      UpdateOutcome may host caller id (.json sent) s
        { status := 200, payload := .user { user with passwordHash := hash, updatedAt := now } } after :=
    fun after users rest sessions => .inl ⟨rfl, sent, row, _, rfl,
      updateCommitted_of_written valid prepared stored confirmed kept wrote users rest sessions⟩
  by_cases ends : endsSessions (scanUserRow id row) req user = true
  · simp only [ends, if_true] at committed ⊢
    refine revoke_ensures tame (committed _ rfl rfl (.inl rfl)) fun faulty => ?_
    exact committed _ rfl rfl (.inr ⟨faulty, rfl⟩)
  · simp only [ends] at committed ⊢
    exact committed _ rfl rfl rfl

/-- **The request**: its update is committed, or it is refused. -/
theorem updateUser_responds {pathID : Option Int} {body : Body UserRequest} {before after : Store}
    {response : Response} (responds : Responds may host before (.updateUser caller pathID body) response after) :
    (∃ id, pathID = some id ∧ UpdateOutcome may host caller id body before response after) ∨
      (response.Refused ∧ after = before) := by
  have outcome : Ensures (Query.tried may)
      (fun response after => (∃ id, pathID = some id ∧
        UpdateOutcome may host caller id body before response after) ∨ (response.Refused ∧ after = before))
      (fun response after => (∃ id, pathID = some id ∧
        UpdateOutcome may host caller id body before response after) ∨ (response.Refused ∧ after = before))
      (handler host (.updateUser caller pathID body)) before := by
    refine withResource_ensures (fun _ refused => .inr ⟨refused, rfl⟩) fun id _ path => ?_
    exact Ensures.mono (fun _ _ outcome => .inl ⟨id, path, outcome⟩)
      (fun _ _ outcome => .inl ⟨id, path, outcome⟩)
      (handleUpdateUser_ensures (tame_tried may) body id)
  exact responds.ends outcome

end Handler

/-! ### The form and the server -/

/-- The request body of the form, with the password that is typed in the dialog. -/
def SystemSettings.UserData.request (userData : SystemSettings.UserData) (adminPassword : String) :
    UserRequest :=
  { email := userData.email, firstName := userData.firstName, lastName := userData.lastName
    password := userData.password, adminPassword, role := userData.role, active := userData.active }

/-- The form's copy of a stored user. -/
def originalOf (row : UserRow) : SystemSettings.Original :=
  { role := row.role, active := row.active, email := row.email }

theorem rank_eq_roleRank (role : UserRole) : SystemSettings.rank role = roleRank role := by
  cases role <;> rfl

section Form

attribute [local irreducible] validateUser validateUserRequest

/-- **The form asks for the password exactly when the server requires it.** -/
theorem copy_iff_needsConfirmation {id : Int} {row : UserRow} {userData : SystemSettings.UserData}
    {adminPassword : String} {req : UserRequest} {user : User}
    (trimmed : trimSpace userData.email = userData.email)
    (valid : validateUserRequest (userData.request adminPassword) = .ok req)
    (prepared : validateUser { scanUserRow id row with
        email := trimSpace req.email, firstName := trimSpace req.firstName,
        lastName := trimSpace req.lastName, role := req.role, active := req.active } = .ok user) :
    (SystemSettings.getUserUpdateConfirmationCopy userData (originalOf row)).isSome =
      needsConfirmation (scanUserRow id row) req user := by
  obtain ⟨password, _, role, active⟩ := validateUserRequest_kept valid
  have email : user.email = userData.email := by
    rw [(validateUser_texts prepared).1, (validateUserRequest_texts valid).1]
    show trimSpace (trimSpace (trimSpace userData.email)) = _
    rw [trimmed, trimmed, trimmed]
  have ranks : SystemSettings.rank row.role < SystemSettings.rank userData.role ↔
      roleRank row.role < roleRank userData.role := by
    rw [rank_eq_roleRank, rank_eq_roleRank]
  rw [Bool.eq_iff_iff, SystemSettings.copy_isSome_iff]
  unfold needsConfirmation
  rw [Bool.or_eq_true, Bool.or_eq_true, Bool.or_eq_true, bne_iff_ne, bne_iff_ne, bne_iff_ne,
    decide_eq_true_iff, password, role, active, email]
  have order : ∀ p q r t : Prop, p ∨ q ∨ r ∨ t ↔ ((p ∨ t) ∨ r) ∨ q := by
    intro p q r t
    tauto
  exact (or_congr_right (or_congr_right (or_congr_right ranks))).trans (order _ _ _ _)

/-- **Sensitive updates of a user are confirmed and end its sessions**, whatever statements may fail; and
the form asks for the admin's password exactly for the updates that need it. -/
theorem user_updates_confirmed (host : Host) (caller : Caller) :
    (∀ (may : Query → Prop) (pathID : Option Int) (body : Body UserRequest) (before after : Store)
      (response : Response),
      Responds may host before (.updateUser caller pathID body) response after →
      (∃ id, pathID = some id ∧ UpdateOutcome may host caller id body before response after) ∨
        (response.Refused ∧ after = before)) ∧
    ∀ (id : Int) (row : UserRow) (userData : SystemSettings.UserData) (adminPassword : String)
      (req : UserRequest) (user : User), trimSpace userData.email = userData.email →
      validateUserRequest (userData.request adminPassword) = .ok req →
      validateUser { scanUserRow id row with
        email := trimSpace req.email, firstName := trimSpace req.firstName,
        lastName := trimSpace req.lastName, role := req.role, active := req.active } = .ok user →
      (SystemSettings.getUserUpdateConfirmationCopy userData (originalOf row)).isSome =
        needsConfirmation (scanUserRow id row) req user := by
  exact ⟨fun _ _ _ _ _ _ responds => updateUser_responds responds,
    fun _ _ _ _ _ _ trimmed valid prepared => copy_iff_needsConfirmation trimmed valid prepared⟩

end Form

/-- A new database with its first user. -/
def withAdmin : Store := executeAll sampleHost createTables
  [(bootstrap, stepsOf () 9 { instant := 1, text := some "bcrypt:correct horse 7!" })]

/-- The first user changes its email. -/
def newEmail : SystemSettings.UserData :=
  { email := "ada@example.com", firstName := "Ada", lastName := "Lovelace", role := .sysadmin, active := true }

/-- The row of the first user. -/
def rootRow : UserRow :=
  ⟨"root@example.com", "Admin", "User", "bcrypt:correct horse 7!", .sysadmin, true, 1, none⟩

/-- The change is confirmed, and the form has asked for the password. -/
theorem email_change_confirmed :
    (∃ after row row', UpdateCommitted Query.sound sampleHost sampleAdmin 1
      (newEmail.request "correct horse 7!") row row' withAdmin after) ∧
    ∃ req user, validateUserRequest (newEmail.request "") = .ok req ∧
      (SystemSettings.getUserUpdateConfirmationCopy newEmail (originalOf rootRow)).isSome =
        needsConfirmation (scanUserRow 1 rootRow) req user := by
  obtain ⟨updates, form⟩ := user_updates_confirmed sampleHost sampleAdmin
  constructor
  · have done : (answered sampleHost withAdmin (.updateUser sampleAdmin (some 1)
        (.json (newEmail.request "correct horse 7!"))) (stepsOf () 12 { instant := 2 })).map
        Response.status = some 200 := by decide +kernel
    obtain ⟨response, here, success⟩ := Option.map_eq_some_iff.mp done
    have refusal : ¬ response.Refused := by
      unfold Response.Refused
      omega
    rcases updates _ _ _ _ _ _ (Responds.of_moves Query.sound here) with ⟨id, path, outcome⟩ | ⟨refused, _⟩
    · cases path
      rcases outcome with ⟨_, sent, row, row', same, committed⟩ | ⟨refused, _⟩
      · cases same
        exact ⟨_, row, row', committed⟩
      · exact absurd refused refusal
    · exact absurd refused refusal
  · exact ⟨_, _, rfl, form 1 rootRow newEmail "" _ _ (by decide +kernel) rfl rfl⟩

end Wuflow

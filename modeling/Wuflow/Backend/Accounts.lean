/-
**Login, logout, refresh and the account handlers** (`handlers.go`).

`handleUpdateUser` and `handleUpdateSelf` load the user row, work on the copy and write every column
of it back; a change that affects the login is followed by the deletion of the user's sessions, in a
statement of its own.
-/

import Wuflow.Backend.Issues

namespace Wuflow

open Calendar (Instant)

/-! ### Login and logout -/

def invalidCredentials : Response := httpError "Invalid email or password" 401

def handleLogin (host : Host) (ip : String) (body : Body LoginRequest) : Handler Response := do
  let blocked ← (ask (.checkIP ip) : Backend _)
  ensure (!blocked) (httpError "Too many login attempts, please try again later" 429)
  let req ← decodeAndValidate body validateLoginRequest
  let blocked ← (ask (.checkIPAndEmail ip req.email) : Backend _)
  ensure (!blocked) invalidCredentials
  match ← orInternal (select (.userByEmail req.email)) with
  | none =>
      ask (.recordFailure ip req.email)
      throw invalidCredentials
  | some user =>
  if user.active = false ∨ host.checkPassword user.passwordHash req.password = false then
    ask (.recordFailure ip req.email)
    throw invalidCredentials
  else
  match ← (createUserSession host user : Backend _) with
  | none => throw internalServerError
  | some (_, accessToken, refreshToken) =>
  ask (.resetOnSuccess ip req.email)
  let _ ← ((updateUserLastLogin user.id).run : Backend _)
  return { status := 200, payload := .user user, cookies := .set accessToken refreshToken }

/-- Revoke the session of the refresh-token cookie, if there is one; errors are only logged. -/
def revokeSessionFromCookie (cookie : Option (List UInt8)) : Backend Unit := do
  match cookie.bind validateRefreshToken with
  | none => return
  | some (sessionToken, _) =>
      match ← (select (.sessionByToken sessionToken)).run with
      | .ok (some session) =>
          let _ ← (revokeSession session.id).run
      | _ => return

def handleLogout (cookie : Option (List UInt8)) : Handler Response := do
  revokeSessionFromCookie cookie
  return { status := 200, payload := .text "Logged out", cookies := .clear }

/-! ### Refresh -/

def unauthorized : Response := httpError "Unauthorized" 401

def handleRefresh (host : Host) (ip : String) (cookie : Option (List UInt8)) : Handler Response := do
  let allowed ← (ask (.refreshAllow ip) : Backend _)
  ensure allowed (httpError "Too many requests, please try again later" 429)
  let token ← orRespond cookie unauthorized
  match ← ((refreshSession host token).run : Backend _) with
  | .ok (user, accessToken, refreshToken) =>
      return { status := 200, payload := .user user, cookies := .set accessToken refreshToken }
  | .error _ => throw { unauthorized with cookies := .clear }

/-- A page load without a valid access token (`HandleStaticFiles`, `tryRefreshSession`): the app, with
new cookies, or a redirect to the login page. -/
def handlePageLoad (host : Host) (cookie : Option (List UInt8)) : Handler Response := do
  let redirect : Response := { status := 302 }
  let token ← orRespond (cookie.filter fun token => !token.isEmpty) redirect
  match ← ((refreshSession host token).run : Backend _) with
  | .ok (_, accessToken, refreshToken) =>
      return { status := 200, cookies := .set accessToken refreshToken }
  | .error _ => throw redirect

/-! ### The own account -/

/-- `writeUserUpdateError`. -/
def passwordError (err : PasswordErr) : Response :=
  match err with
  | .policy message => httpError message 400
  | .hash => internalServerError

/-- Run `updateUserPassword` and respond to its error. -/
def setPassword (host : Host) (user : User) (newPassword : String) : Handler User := do
  match ← (updateUserPassword host user newPassword : Backend _) with
  | .ok user => pure user
  | .error err => throw (passwordError err)

def userNotFound : Response := httpError "User not found" 404

/-- Load a user. -/
def loadUser (id : Int) : Handler User := do
  let user ← orInternal (select (.userByID id))
  orRespond user userNotFound

/-- The user a self update writes: only the password can change. -/
def prepareSelfUpdate (host : Host) (existing : User) (req : UserRequest) : Handler User :=
  if req.password = "" then pure existing
  else do
    ensure (req.currentPassword != "" && host.checkPassword existing.passwordHash req.currentPassword)
      (httpError "Current password is incorrect" 400)
    setPassword host existing req.password

def handleUpdateSelf (host : Host) (caller : Caller) (body : Body UserRequest) : Handler Response := do
  ensure (caller.userID != 0) unauthorized
  let existing ← loadUser caller.userID
  let req ← decodeAndValidate body .ok
  let user ← prepareSelfUpdate host existing req
  let user ← orInternal (updateUser user)
  if req.password ≠ "" then
    let _ ← ((revokeUserSessions caller.userID).run : Backend _)
  return { status := 200, payload := .user user }

/-! ### User management -/

def handleCreateUser (host : Host) (body : Body UserRequest) : Handler Response := do
  let req ← decodeAndValidate body validateUserRequest
  let user : User :=
    { email := req.email, firstName := req.firstName, lastName := req.lastName, role := req.role,
      active := req.active }
  ensure (req.password != "") (httpError "Password is required" 400)
  let user ← setPassword host user req.password
  let user ← orFail (createUser user) fun err =>
    if err = .duplicateEmail then httpError "Email already exists" 409 else internalServerError
  return { status := 201, payload := .user user }

def handleGetUser (id : Int) : Handler Response := do
  let user ← loadUser id
  return { status := 200, payload := .user user }

/-- Whether an update changes how the user logs in, and so needs the admin's password. -/
def needsConfirmation (existing : User) (req : UserRequest) (user : User) : Bool :=
  req.password != "" || roleRank existing.role < roleRank req.role || req.active != existing.active ||
    user.email != existing.email

/-- Whether an update ends the user's sessions. -/
def endsSessions (existing : User) (req : UserRequest) (user : User) : Bool :=
  !req.active || req.password != "" || existing.role != req.role || user.email != existing.email

/-- `validateAndPrepareUserUpdate`: the user to write, and whether to revoke its sessions. -/
def validateAndPrepareUserUpdate (host : Host) (caller : Caller) (existing : User)
    (req : UserRequest) : Handler (User × Bool) :=
  match validateUser { existing with
      email := trimSpace req.email, firstName := trimSpace req.firstName,
      lastName := trimSpace req.lastName, role := req.role, active := req.active } with
  | .error message => throw (httpError message 400)
  | .ok user => do
      if needsConfirmation existing req user then
        verifyAdminPasswordOrRespond host caller req.adminPassword
      let updated ← setPassword host user req.password
      return (updated, endsSessions existing req user)

/-- The response to a failed user write. -/
def userWriteError (err : Err) : Response :=
  match err with
  | .duplicateEmail => httpError "Email already exists" 409
  | .lastSysAdmin =>
      httpError "Cannot deactivate, demote or delete the last active system administrator" 400
  | _ => internalServerError

def handleUpdateUser (host : Host) (caller : Caller) (body : Body UserRequest) (id : Int) :
    Handler Response := do
  let existing ← loadUser id
  let req ← decodeAndValidate body validateUserRequest
  let (user, revokeSessions) ← validateAndPrepareUserUpdate host caller existing req
  let user ← orFail (updateUser user) userWriteError
  if revokeSessions then
    let _ ← ((revokeUserSessions id).run : Backend _)
  return { status := 200, payload := .user user }

/-- The response to a failed delete. -/
def userDeleteError (err : Err) : Response :=
  match err with
  | .userNotFound => userNotFound
  | .lastSysAdmin => userWriteError .lastSysAdmin
  | _ => internalServerError

def handleDeleteUser (host : Host) (caller : Caller) (body : Body AdminPasswordRequest) (id : Int) :
    Handler Response := do
  ensure (id != caller.userID) (httpError "You cannot delete your own account" 400)
  requireAdminPassword host caller body
  let target ← loadUser id
  let _ ← orFail (deleteUser id caller.userID (assigneeName { assignee := some target }))
    userDeleteError
  return { status := 200, payload := .text "User deleted" }

end Wuflow

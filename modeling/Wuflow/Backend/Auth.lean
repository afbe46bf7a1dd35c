/-
**Tokens and sessions** (`auth.go`).

A signed access token is its claims. A refresh token is `base64(sessionToken:base64(secret))`; the
store keeps the session token as a lookup key and the HMAC of the secret.
-/

import Wuflow.Backend.Db
import Wuflow.Codec.Base64

namespace Wuflow

open Calendar (Instant)

def accessTokenDuration : Int := 15 * 60 * Calendar.nanosPerSecond

def refreshTokenDuration : Int := 24 * 3600 * Calendar.nanosPerSecond

/-- The byte `:`. -/
def colon : UInt8 := 58

/-! ### Tokens -/

/-- An access token for an active user. -/
def generateAccessToken (user : User) : Backend (Option AccessToken) := do
  if !user.active then return none
  let expires ← ask .now
  let issuedAt ← ask .now
  return some ⟨user.id, user.email, user.role, expires + accessTokenDuration, issuedAt⟩

/-- The text of the refresh token with a given secret. -/
def encodeRefreshToken (sessionToken secret : List UInt8) : List UInt8 :=
  Base64.encode (sessionToken ++ colon :: Base64.encode secret)

/-- A refresh token with a new secret, and the hash the store keeps of it. -/
def generateRefreshToken (host : Host) (sessionToken : List UInt8) :
    Backend (List UInt8 × String) := do
  let secret ← ask .randomSecret
  return (encodeRefreshToken sessionToken secret, host.computeTokenMAC secret)

/-- The session token and the secret of a refresh token. -/
def validateRefreshToken (token : List UInt8) : Option (List UInt8 × List UInt8) := do
  if 512 < token.length then none
  let decoded ← Base64.decode token
  match decoded.dropWhile (· != colon) with
  | [] => none
  | _ :: secretStr =>
      let sessionToken := decoded.takeWhile (· != colon)
      if sessionToken.isEmpty then none
      let secret ← Base64.decode secretStr
      return (sessionToken, secret)

/-- Everything before the first colon is the session token, and the secret follows it. -/
theorem validateRefreshToken_encode {sessionToken secret : List UInt8} (some_ : sessionToken ≠ [])
    (plain : colon ∉ sessionToken) (short : (encodeRefreshToken sessionToken secret).length ≤ 512) :
    validateRefreshToken (encodeRefreshToken sessionToken secret) = some (sessionToken, secret) := by
  have inside : ∀ b ∈ sessionToken, (b != colon) = true := by
    intro b member
    rw [bne_iff_ne]
    rintro rfl
    exact plain member
  have front : (sessionToken ++ colon :: Base64.encode secret).takeWhile (· != colon) = sessionToken := by
    rw [List.takeWhile_append_of_pos inside]
    simp
  have back : (sessionToken ++ colon :: Base64.encode secret).dropWhile (· != colon) =
      colon :: Base64.encode secret := by
    rw [List.dropWhile_append_of_pos inside]
    simp
  have nonempty : sessionToken.isEmpty = false := List.isEmpty_eq_false_iff.mpr some_
  unfold validateRefreshToken
  rw [if_neg (Nat.not_lt.mpr short)]
  unfold encodeRefreshToken
  simp only [Base64.decode_encode, Option.bind_eq_bind, Option.bind_some, back, front, nonempty,
    Bool.false_eq_true, if_false]
  rfl

/-- **A refresh token reads back as its session token and its secret.** -/
theorem validate_encodeRefreshToken {sessionToken secret : List UInt8}
    (text : isRandomText sessionToken = true) (size : secret.length = 32) :
    validateRefreshToken (encodeRefreshToken sessionToken secret) = some (sessionToken, secret) := by
  unfold isRandomText at text
  rw [Bool.and_eq_true, beq_iff_eq, List.all_eq_true] at text
  refine validateRefreshToken_encode ?_ (fun member => absurd (text.2 colon member) (by decide)) ?_
  · rintro rfl
    exact absurd text.1 (by decide)
  · unfold encodeRefreshToken
    rw [Base64.length_encode, List.length_append, List.length_cons, Base64.length_encode, text.1, size]
    decide

/-- What is accepted has a session token, and the split is at the first colon. -/
theorem validateRefreshToken_accepts {token sessionToken secret : List UInt8}
    (accepted : validateRefreshToken token = some (sessionToken, secret)) :
    sessionToken ≠ [] ∧ colon ∉ sessionToken := by
  unfold validateRefreshToken at accepted
  split at accepted
  · exact nomatch accepted
  · obtain ⟨decoded, _, accepted⟩ := Option.bind_eq_some_iff.mp accepted
    split at accepted
    · exact nomatch accepted
    · dsimp only at accepted
      split at accepted
      · exact nomatch accepted
      · rename_i nonempty
        obtain ⟨raw, _, same⟩ := Option.bind_eq_some_iff.mp accepted
        cases same
        refine ⟨fun empty => nonempty (List.isEmpty_iff.mpr empty), fun member => ?_⟩
        exact absurd (List.mem_takeWhile_imp member) (by decide)

/-- **Refresh tokens round trip**: whatever secret is drawn, the token that is generated with it reads back
as the session token and the secret whose hash is stored; and no text is accepted that has no session token
or one with a colon. -/
theorem refresh_token_round_trip (host : Host) :
    (∀ sessionToken secret : List UInt8, sessionToken ≠ [] → colon ∉ sessionToken → secret.length = 32 →
      (encodeRefreshToken sessionToken secret).length ≤ 512 →
      ∃ token hash, (∃ build, generateRefreshToken host sessionToken = .ask .randomSecret build ∧
          build secret = .done (token, hash)) ∧
        validateRefreshToken token = some (sessionToken, secret) ∧ hash = host.computeTokenMAC secret) ∧
    ∀ token sessionToken secret, validateRefreshToken token = some (sessionToken, secret) →
      sessionToken ≠ [] ∧ colon ∉ sessionToken := by
  refine ⟨fun sessionToken secret some_ plain _ short => ?_, fun _ _ _ => validateRefreshToken_accepts⟩
  exact ⟨encodeRefreshToken sessionToken secret, host.computeTokenMAC secret, ⟨_, rfl, rfl⟩,
    validateRefreshToken_encode some_ plain short, rfl⟩

/-- The session token `ab` with a secret of zeros, on a host that hashes nothing. -/
theorem refresh_token_round_trip_ab :
    let host : Host := ⟨id, fun s t => s == t, fun hash password => hash == password, fun _ => ""⟩
    let secret : List UInt8 := List.replicate 32 0
    (∃ token hash, (∃ build, generateRefreshToken host [97, 98] = .ask .randomSecret build ∧
          build secret = .done (token, hash)) ∧
        validateRefreshToken token = some ([97, 98], secret) ∧ hash = host.computeTokenMAC secret) ∧
      ([97, 98] : List UInt8) ≠ [] ∧ colon ∉ [97, 98] := by
  intro host secret
  have reads := (refresh_token_round_trip host).1 [97, 98] secret (by decide) (by decide) rfl (by decide)
  obtain ⟨token, hash, built, accepted, same⟩ := reads
  exact ⟨⟨token, hash, built, accepted, same⟩, (refresh_token_round_trip host).2 token _ _ accepted⟩

/-! ### Sessions -/

/-- A new session with its tokens; `none` if a step fails. -/
def createUserSession (host : Host) (user : User) :
    Backend (Option (Session × AccessToken × List UInt8)) := do
  let some accessToken ← generateAccessToken user | return none
  let sessionToken ← ask .randomText
  let (refreshToken, tokenHash) ← generateRefreshToken host sessionToken
  let now ← ask .now
  let session : Session :=
    { userID := user.id, sessionToken, tokenHash, expiresAt := now + refreshTokenDuration }
  match ← (createSession session).run with
  | .ok session => return some (session, accessToken, refreshToken)
  | .error _ => return none

def revokeSession (sessionID : Int) : Db Unit := deleteSession sessionID

def revokeUserSessions (userID : Int) : Db Unit := deleteSessionsByUserID userID

/-- Errors are only logged. -/
def deleteSessionSafe (sessionID : Int) : Backend Unit := do
  let _ ← (deleteSession sessionID).run

/-- Why a refresh fails. -/
inductive RefreshErr
  | invalidToken | lookupFailed | sessionNotFound | expired | macMismatch | userLookupFailed
  | userInactive | accessTokenFailed | updateFailed
  deriving DecidableEq

/-- A step of a refresh: its database error ends the refresh. -/
def orRefreshErr {α : Type} (p : Db α) (err : RefreshErr) : ExceptT RefreshErr Backend α :=
  p.adapt fun _ => err

/-- A hash mismatch is taken for reuse: revoke all sessions of the user, with one retry. -/
def revokeOnReuse (userID : Int) : Backend Unit := do
  match ← (revokeUserSessions userID).run with
  | .ok _ => return
  | .error _ =>
      let _ ← (revokeUserSessions userID).run

/-- Steps 5 to 8 of a refresh: fetch the user, make new tokens, rotate the secret. -/
def rotateSession (host : Host) (session : Session) :
    ExceptT RefreshErr Backend (User × AccessToken × List UInt8) := do
  -- 5. fetch the user
  match ← orRefreshErr (select (.userByID session.userID)) .userLookupFailed with
  | none =>
      deleteSessionSafe session.id
      throw .userInactive
  | some user =>
  if !user.active then
    deleteSessionSafe session.id
    throw .userInactive
  else
  -- 6. generate the access token
  match ← (generateAccessToken user : Backend _) with
  | none => throw .accessTokenFailed
  | some accessToken =>
  -- 7. rotate the secret; the session token stays
  let (refreshToken, tokenHash) ← generateRefreshToken host session.sessionToken
  -- 8. update the session
  let now ← ask .now
  orRefreshErr (updateSession { session with tokenHash, expiresAt := now + refreshTokenDuration })
    .updateFailed
  return (user, accessToken, refreshToken)

/-- **Validate a refresh token, rotate it and return new tokens.** -/
def refreshSession (host : Host) (token : List UInt8) :
    ExceptT RefreshErr Backend (User × AccessToken × List UInt8) := do
  -- 1. parse the opaque token
  match validateRefreshToken token with
  | none => throw .invalidToken
  | some (sessionToken, secret) =>
  -- 2. fetch the session
  match ← orRefreshErr (select (.sessionByToken sessionToken)) .lookupFailed with
  | none => throw .sessionNotFound
  | some session =>
  -- 3. check expiry
  let now ← ask .now
  if session.expiresAt < now then
    deleteSessionSafe session.id
    throw .expired
  else
  -- 4. verify the hash
  if host.computeTokenMAC secret ≠ session.tokenHash then
    revokeOnReuse session.userID
    throw .macMismatch
  else rotateSession host session

/-! ### Passwords -/

/-- What `updateUserPassword` may report: a policy violation, or bcrypt's failure. -/
inductive PasswordErr
  | policy (message : String)
  | hash

/-- Set a new password, if there is one. -/
def updateUserPassword (host : Host) (user : User) (newPassword : String) :
    Backend (Except PasswordErr User) := do
  if newPassword = "" then return .ok user
  match validatePassword host newPassword user.email with
  | .error message => return .error (.policy message)
  | .ok _ =>
      match ← ask (.hashPassword newPassword) with
      | some passwordHash => return .ok { user with passwordHash }
      | none => return .error .hash

/-- What `verifyAdminPassword` may report. -/
inductive AdminErr
  | checkDB
  | required

/-- Re-authenticate the account of `adminEmail`. -/
def verifyAdminPassword (host : Host) (adminEmail providedPassword : String) :
    Backend (Except AdminErr Unit) := do
  match ← (select (.userByEmail adminEmail)).run with
  | .ok (some admin) =>
      if providedPassword = "" ∨ host.checkPassword admin.passwordHash providedPassword = false then
        return .error .required
      else return .ok ()
  | _ => return .error .checkDB

/-- The initial admin user, if there are no users; `false` if the server has to stop. -/
def ensureInitialAdmin (host : Host) (email password : String) : Backend Bool := do
  match ← (select .countUsers).run with
  | .error _ => return false
  | .ok count =>
  if 0 < count then return true
  if password = "" then return false
  match validateUser
    { email, firstName := "Admin", lastName := "User", role := .sysadmin, active := true } with
  | .error _ => return false
  | .ok admin =>
  match validatePassword host password admin.email with
  | .error _ => return false
  | .ok _ =>
  match ← ask (.hashPassword password) with
  | none => return false
  | some passwordHash =>
  match ← (createUser { admin with passwordHash }).run with
  | .ok _ => return true
  | .error _ => return false

end Wuflow

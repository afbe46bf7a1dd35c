/-
**From an HTTP request to its handler** (the middlewares of `server.go`, `AuthMiddleware`).

`receive` is the way of a request through the mux and the middlewares of its route: it is answered at once, or its
handler is run with the caller of its access token, the path variables and the body. Logging, the security headers
and the timeout change nothing here.
-/

import Wuflow.Backend.RateLimit
import Wuflow.Backend.Routes
import Wuflow.Backend.Server

namespace Wuflow

open Calendar (Instant)
open Routing (EscapedPath segments)

/-! ### Requests -/

/-- The body as the handler can read it; `cut` if reading on fails at its end. -/
structure Sent where
  bytes : List UInt8
  cut : Bool

/-- What the handlers see of a request. -/
structure HttpRequest where
  method : Method
  /-- `EscapedPath()`. -/
  path : EscapedPath
  rawQuery : String := ""
  contentType : String := ""
  ifMatch : String := ""
  accessToken : Option String := none
  refreshToken : Option (List UInt8) := none
  ip : String := ""
  body : Sent := ⟨[], false⟩

/-- What `encoding/json` makes of a body, for each type that is decoded. -/
structure Wire where
  issue : Sent → Body Issue
  positions : Sent → Body (List PositionUpdate)
  move : Sent → Body MoveIssueRequest
  adminPassword : Sent → Body AdminPasswordRequest
  task : Sent → Body Task
  comment : Sent → Body Comment
  label : Sent → Body Label
  statusConfig : Sent → Body StatusConfig
  project : Sent → Body Project
  release : Sent → Body Release
  trigger : Sent → Body TriggerRequest
  user : Sent → Body UserRequest
  login : Sent → Body LoginRequest

/-- What the server is started with. `verify` gives the claims of a token whose signature is right, with times
of whole seconds. -/
structure Env where
  wire : Wire
  verify : String → Option AccessToken
  apiRateLimitEnabled : Bool
  version : String

/-- What becomes of a request. -/
inductive Outcome
  | respond (response : Response)
  /-- A handler that may write. -/
  | serve (req : Request)
  /-- A handler that only reads, for a caller. -/
  | read (caller : Caller) (endpoint : Endpoint) (vars : String → Option Int)
  /-- A file of the frontend. -/
  | file (endpoint : Endpoint)
  /-- The mux sends the client to another path. -/
  | redirect

/-! ### Path variables -/

def decimal (digits : List Char) : Option Int :=
  if digits ≠ [] ∧ digits.all Char.isDigit then some (Nat.ofDigitChars 10 digits 0) else none

def signedDecimal : List Char → Option Int
  | '-' :: digits => (decimal digits).map fun n => -n
  | '+' :: digits => decimal digits
  | digits => decimal digits

/-- `strconv.Atoi`. -/
def atoi (s : String) : Option Int := (signedDecimal s.toList).filter fun n => -(2 ^ 63) ≤ n && n < 2 ^ 63

/-! ### Handlers -/

section Handlers

variable (env : Env) (http : HttpRequest)

/-- The handlers behind `commonAPI`. -/
def Endpoint.handlePublic : Endpoint → Outcome
  | .login => .serve (.login http.ip (env.wire.login http.body))
  | .logout => .serve (.logout http.refreshToken)
  | .refresh => .serve (.refresh http.ip http.refreshToken)
  | _ => .respond { status := 200, payload := .text "ok" }

/-- The handlers behind `authAPI`. -/
def Endpoint.handle (caller : Caller) (vars : String → Option Int) : Endpoint → Outcome
  | .updateSelf => .serve (.updateSelf caller (env.wire.user http.body))
  | .createUser => .serve (.createUser caller (env.wire.user http.body))
  | .getUser => .serve (.getUser caller (vars "id"))
  | .updateUser => .serve (.updateUser caller (vars "id") (env.wire.user http.body))
  | .deleteUser => .serve (.deleteUser caller (vars "id") (env.wire.adminPassword http.body))
  | .createProject => .serve (.createProject caller (env.wire.project http.body))
  | .updateProject => .serve (.updateProject caller (vars "pId") (env.wire.project http.body))
  | .deleteProject => .serve (.deleteProject caller (vars "pId") (env.wire.adminPassword http.body))
  | .createIssue => .serve (.createIssue caller (vars "pId") (env.wire.issue http.body))
  | .putIssuePositions => .serve (.putIssuePositions caller (vars "pId") (env.wire.positions http.body))
  | .getIssue => .serve (.getIssue caller (vars "pId") (vars "id"))
  | .putIssue => .serve (.putIssue caller (vars "pId") (vars "id") http.ifMatch (env.wire.issue http.body))
  | .deleteIssue => .serve (.deleteIssue caller (vars "pId") (vars "id") (env.wire.adminPassword http.body))
  | .archiveIssue => .serve (.archiveIssue caller (vars "pId") (vars "id"))
  | .unarchiveIssue => .serve (.unarchiveIssue caller (vars "pId") (vars "id"))
  | .moveIssue => .serve (.moveIssue caller (vars "pId") (vars "id") (env.wire.move http.body))
  | .createLabel => .serve (.createLabel caller (vars "pId") (env.wire.label http.body))
  | .deleteLabel => .serve (.deleteLabel caller (vars "pId") (vars "id") (env.wire.adminPassword http.body))
  | .getStatusConfig => .serve (.getStatusConfig caller (vars "pId"))
  | .updateStatusConfig => .serve (.updateStatusConfig caller (vars "pId") (env.wire.statusConfig http.body))
  | .createRelease => .serve (.createRelease caller (vars "pId") (env.wire.release http.body))
  | .getRelease => .serve (.getRelease caller (vars "pId") (vars "id"))
  | .putRelease => .serve (.putRelease caller (vars "pId") (vars "id") (env.wire.release http.body))
  | .deleteRelease => .serve (.deleteRelease caller (vars "pId") (vars "id") (env.wire.adminPassword http.body))
  | .triggerRelease => .serve (.triggerRelease caller (vars "pId") (vars "id") (env.wire.trigger http.body))
  | .reopenRelease => .serve (.reopenRelease caller (vars "pId") (vars "id"))
  | .createTask => .serve (.createTask caller (vars "pId") (vars "iId") (env.wire.task http.body))
  | .putTaskPositions => .serve (.putTaskPositions caller (vars "pId") (vars "iId") (env.wire.positions http.body))
  | .putTask => .serve (.putTask caller (vars "pId") (vars "iId") (vars "id") (env.wire.task http.body))
  | .deleteTask => .serve (.deleteTask caller (vars "pId") (vars "iId") (vars "id"))
  | .createComment => .serve (.createComment caller (vars "pId") (vars "iId") (env.wire.comment http.body))
  | .putComment => .serve (.putComment caller (vars "pId") (vars "iId") (vars "id") (env.wire.comment http.body))
  | .deleteComment => .serve (.deleteComment caller (vars "pId") (vars "iId") (vars "id"))
  | .getVersion => .respond { status := 200, payload := .text env.version }
  | endpoint => .read caller endpoint vars

end Handlers

/-! ### Middlewares -/

/-- A handler with what the middlewares before it have found out: the caller, if there is one. The state is that
of `apiLimiter`. -/
abbrev Serving := HttpRequest → Option Caller → KeyedLimiter Int → Outcome × KeyedLimiter Int

def reject (message : String) (status : Nat) : Outcome := .respond (httpError message status)

def validatePathMiddleware (next : Serving) : Serving := fun http caller limiter =>
  if http.rawQuery ≠ "" then (reject "Query parameters are not allowed on this endpoint" 400, limiter)
  else next http caller limiter

def bodyLimit : Nat := 32 * 1024

/-- `MaxBytesReader`: reading on fails at the limit. -/
def Sent.limited (sent : Sent) : Sent :=
  ⟨sent.bytes.take bodyLimit, sent.cut || decide (bodyLimit < sent.bytes.length)⟩

def limitBodyMiddleware (next : Serving) : Serving := fun http => next { http with body := http.body.limited }

def requireJSONMiddleware (next : Serving) : Serving := fun http caller limiter =>
  if (http.method = .post ∨ http.method = .put) ∧ ¬ "application/json".isPrefixOf http.contentType then
    (reject "Content-Type must be application/json" 415, limiter)
  else next http caller limiter

def maxAccessTokenLength : Nat := 4096

/-- `ValidateToken`: a token is valid until it expires. -/
def validateToken (env : Env) (now : Instant) (token : String) : Option AccessToken :=
  if maxAccessTokenLength < token.utf8ByteSize then none
  else (env.verify token).filter fun claims => now < claims.expiresAt

def AccessToken.caller (claims : AccessToken) : Caller := ⟨claims.userID, claims.email, claims.role⟩

def authMiddleware (env : Env) (now : Instant) (next : Serving) : Serving := fun http _ limiter =>
  match http.accessToken.bind (validateToken env now) with
  | none => (.respond unauthorized, limiter)
  | some claims => next http (some claims.caller) limiter

def Method.writes : Method → Bool
  | .post | .put | .delete => true
  | _ => false

/-- A limiter that panics (`none`) ends the request without an answer. -/
def userRateLimitMiddleware (env : Env) (clock : Clock) (next : Serving) : Serving := fun http caller limiter =>
  match caller with
  | none => next http caller limiter
  | some { userID, .. } =>
      if env.apiRateLimitEnabled = false ∨ http.method.writes = false ∨ userID = 0 then next http caller limiter
      else
        match limiter.allow userID clock with
        | (some true, limiter) => next http caller limiter
        | (some false, limiter) => (reject "Too many requests, please try again later" 429, limiter)
        | (none, limiter) => (.respond { status := 0 }, limiter)

def commonAPI (h : Serving) : Serving := validatePathMiddleware (limitBodyMiddleware (requireJSONMiddleware h))

def authAPI (env : Env) (now : Instant) (clock : Clock) (h : Serving) : Serving :=
  validatePathMiddleware (limitBodyMiddleware (requireJSONMiddleware
    (authMiddleware env now (userRateLimitMiddleware env clock h))))

/-! ### The whole way -/

/-- `HandleStaticFiles`: without a valid access token the session is refreshed. -/
def handleStaticFiles (env : Env) (now : Instant) : Serving := fun http _ limiter =>
  match (http.accessToken.filter (· ≠ "")).bind (validateToken env now) with
  | some _ => (.file .app, limiter)
  | none => (.serve (.pageLoad http.refreshToken), limiter)

/-- The handler of a route behind its middlewares. -/
def Route.serving (env : Env) (now : Instant) (clock : Clock) (r : Route) : Serving :=
  match r.chain with
  | .commonAPI => commonAPI fun http _ limiter => (r.endpoint.handlePublic env http, limiter)
  | .authAPI => authAPI env now clock fun http caller limiter =>
      match caller with
      | some caller =>
          (r.endpoint.handle env http caller fun name => atoi (r.pattern.pathValue (segments http.path) name), limiter)
      | none => (.respond unauthorized, limiter)
  | .files =>
      if r.endpoint = .app then handleStaticFiles env now else fun _ _ limiter => (.file r.endpoint, limiter)

/-- **What becomes of a request**, at a time, and the state it leaves the limiter of the API in. -/
def receive (env : Env) (now : Instant) (clock : Clock) (http : HttpRequest) (limiter : KeyedLimiter Int) :
    Outcome × KeyedLimiter Int :=
  match dispatch http.method http.path with
  | .route r => r.serving env now clock http none limiter
  | .redirect => (.redirect, limiter)
  | .methodNotAllowed => (reject "Method Not Allowed" 405, limiter)
  | .notFound => (reject "404 page not found" 404, limiter)

end Wuflow

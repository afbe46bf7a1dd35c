/-
**What a request has seen before each of its loud writes.**

`Discipline host req past query` says what the local history `past` of a request must contain when it
asks `query`:

* an issue is inserted or updated with a label and a release that an earlier answer vouches for
  (`Vouched`), and with a clock reading that the request has not yet stamped an issue with;
* a session is inserted for an active user whose password was checked, with a fresh secret;
* a session is rotated after it was read, not expired, with the hash of the presented secret, for an
  active user, with a fresh secret (`Rotates`);
* a user row is written back with the columns the request does not change taken from the row it has
  loaded (`WritesBack`).

**`serve_disciplined`** — every request obeys it. The quiet requests do so trivially.
-/

import Wuflow.Interleave.Fresh
import Wuflow.Requests.Quiet

namespace Wuflow

open Calendar (Instant)
open Interleave (Prog Entry Fresh)
open Interleave.Stopping (Asks Obeys)

/-! ### Local histories -/

/-- The local history of a request, newest entry first. -/
abbrev Past := List (Entry Query.Answer)

/-- The time a query read from the clock. -/
def clockReading : Entry Query.Answer → Option Instant
  | ⟨.now, t⟩ => some t
  | _ => none

/-- The refresh-token secret a query drew. -/
def drawnSecret : Entry Query.Answer → Option (List UInt8)
  | ⟨.randomSecret, secret⟩ => some secret
  | _ => none

/-- The write stamps issues with a new version. -/
def Query.Stamps : Query → Prop
  | .write (.insertIssue _) | .write (.updateIssue _ _) | .write (.archiveDone _ _)
  | .write (.deleteUser _ _ _ _ _) => True
  | _ => False

/-- The write stores the hash of a secret. -/
def Query.StoresSecret : Query → Prop
  | .write (.insertSession _) | .write (.updateSession _ _ _) => True
  | _ => False

theorem drawnSecret_unmarked (entry : Entry Query.Answer) (drew : (drawnSecret entry).isSome) :
    ¬ entry.1.StoresSecret := by
  intro marked
  obtain ⟨query, answer⟩ := entry
  cases query with
  | randomSecret => exact marked
  | write w => cases drew
  | read q => cases drew
  | _ => exact marked

/-! ### Vouched references -/

/-- The entry says that a label is in a project: a positive check, or an issue that carries it. -/
def VouchesLabel (entry : Entry Query.Answer) (label projectID : Int) : Prop :=
  match entry with
  | ⟨.read (.labelExistsInProject l p), answer⟩ => l = label ∧ p = projectID ∧ answer = .ok true
  | ⟨.read (.issueByIDInProject _ _), answer⟩ =>
      ∃ issue : Issue, answer = .ok (some issue) ∧ issue.label.map (·.id) = some label ∧
        issue.projectID = projectID
  | _ => False

/-- The entry says that a release is in a project. -/
def VouchesRelease (entry : Entry Query.Answer) (release projectID : Int) : Prop :=
  match entry with
  | ⟨.read (.releaseExistsInProject r p), answer⟩ => r = release ∧ p = projectID ∧ answer = .ok true
  | ⟨.read (.issueByIDInProject _ _), answer⟩ =>
      ∃ issue : Issue, answer = .ok (some issue) ∧ issue.releaseID = some release ∧
        issue.projectID = projectID
  | _ => False

def VouchedLabel (past : Past) (label : Option Int) (projectID : Int) : Prop :=
  ∀ l, label = some l → ∃ entry ∈ past, VouchesLabel entry l projectID

def VouchedRelease (past : Past) (release : Option Int) (projectID : Int) : Prop :=
  ∀ r, release = some r → ∃ entry ∈ past, VouchesRelease entry r projectID

/-- The label and the release of the written columns are vouched for. -/
structure Vouched (past : Past) (cols : IssueColumns) : Prop where
  label : VouchedLabel past cols.labelID cols.projectID
  release : VouchedRelease past cols.releaseID cols.projectID

theorem VouchedLabel.mono {past later : Past} (extends_ : past <:+ later) {label : Option Int}
    {projectID : Int} (vouched : VouchedLabel past label projectID) :
    VouchedLabel later label projectID := by
  intro l same
  obtain ⟨entry, member, vouches⟩ := vouched l same
  exact ⟨entry, extends_.subset member, vouches⟩

theorem VouchedRelease.mono {past later : Past} (extends_ : past <:+ later) {release : Option Int}
    {projectID : Int} (vouched : VouchedRelease past release projectID) :
    VouchedRelease later release projectID := by
  intro r same
  obtain ⟨entry, member, vouches⟩ := vouched r same
  exact ⟨entry, extends_.subset member, vouches⟩

theorem Vouched.mono {past later : Past} (extends_ : past <:+ later) {cols : IssueColumns}
    (vouched : Vouched past cols) : Vouched later cols :=
  ⟨vouched.label.mono extends_, vouched.release.mono extends_⟩

/-! ### Sessions and users -/

/-- The refresh token a request presents. -/
def Request.presents : Request → Option (List UInt8)
  | .refresh _ cookie => cookie
  | .pageLoad cookie => cookie
  | _ => none

/-- A session is inserted for a user that was read by email, was active and passed the password
check. -/
def LogsIn (host : Host) (past : Past) (row : SessionRow) : Prop :=
  ∃ email password user secret,
    (⟨.read (.userByEmail email), .ok (some user)⟩ : Entry Query.Answer) ∈ past ∧
      user.id = row.userID ∧ user.active = true ∧
      host.checkPassword user.passwordHash password = true ∧
      Fresh Query.StoresSecret drawnSecret past secret ∧
      row.tokenHash = host.computeTokenMAC secret

def Query.LoadsUser : Query → Prop
  | .read (.userByID _) => True
  | _ => False

/-- A session is rotated after the checks of `RefreshSession`, once. -/
structure Rotates (host : Host) (past : Past) (token : List UInt8) (session : Session)
    (secret new : List UInt8) (checked : Instant) (user : User) : Prop where
  session_read : ∃ sessionToken, validateRefreshToken token = some (sessionToken, secret) ∧
    (⟨.read (.sessionByToken sessionToken), .ok (some session)⟩ : Entry Query.Answer) ∈ past
  clock : (⟨.now, checked⟩ : Entry Query.Answer) ∈ past
  alive : ¬ session.expiresAt < checked
  hash_matches : host.computeTokenMAC secret = session.tokenHash
  user_read : (⟨.read (.userByID session.userID), .ok (some user)⟩ : Entry Query.Answer) ∈ past
  user_once : ∀ entry ∈ past, entry.1.LoadsUser →
    entry = ⟨.read (.userByID session.userID), .ok (some user)⟩
  active : user.active = true
  fresh : Fresh Query.StoresSecret drawnSecret past new
  unspent : ∀ entry ∈ past, ¬ entry.1.StoresSecret

/-- The columns of a user that a self update keeps. -/
structure SameProfile (u v : User) : Prop where
  email : u.email = v.email
  firstName : u.firstName = v.firstName
  lastName : u.lastName = v.lastName
  role : u.role = v.role
  active : u.active = v.active

/-- The request has loaded one user, with its first query. -/
def LoadedOnce (past : Past) (id : Int) (existing : User) : Prop :=
  ∃ more, past = more ++ [⟨.read (.userByID id), .ok (some existing)⟩] ∧
    ∀ entry ∈ more, ¬ entry.1.LoadsUser

/-- A user row is written back from the copy the request has loaded. -/
structure WritesBack (req : Request) (past : Past) (u : User) : Prop where
  loaded : ∃ id existing, LoadedOnce past id existing ∧ existing.id = u.id ∧
    (∀ caller body, req = .updateSelf caller body → id = caller.userID ∧ SameProfile u existing) ∧
    (∀ caller id' body, req = .updateUser caller id' (.json body) →
      id' = some id ∧ (body.password = "" → u.passwordHash = existing.passwordHash))

/-! ### The discipline -/

/-- **What a request has seen before it asks a query.** -/
def Discipline (host : Host) (req : Request) (past : Past) : Query → Prop
  | .write (.insertIssue row) =>
      Vouched past row.toIssueColumns ∧ Fresh Query.Stamps clockReading past row.updatedAt
  | .write (.updateIssue _ cols) =>
      Vouched past cols ∧ Fresh Query.Stamps clockReading past cols.updatedAt
  | .write (.archiveDone _ now) => Fresh Query.Stamps clockReading past now
  | .write (.deleteUser _ _ _ now _) => Fresh Query.Stamps clockReading past now
  | .write (.insertSession row) => LogsIn host past row
  | .write (.updateSession id hash _) =>
      ∃ token session secret new checked user, req.presents = some token ∧ session.id = id ∧
        hash = host.computeTokenMAC new ∧ Rotates host past token session secret new checked user
  | .write (.updateUser u removesSysAdmin) =>
      removesSysAdmin = (u.role != .sysadmin || !u.active) ∧ WritesBack req past u
  | _ => True

theorem quiet_disciplined {host : Host} {req : Request} {past : Past} {query : Query}
    (quiet : query.Quiet) : Discipline host req past query := by
  unfold Discipline
  split <;> trivial

/-- A program, possibly stopping early, that obeys the discipline of a request. -/
abbrev Disciplined {ε α : Type} (host : Host) (req : Request) (past : Past)
    (post : Past → α → Prop) (p : ExceptT ε Backend α) : Prop :=
  Obeys (Discipline host req) post (fun _ _ => True) past p

section Rules

variable {host : Host} {req : Request} {past : Past} {ε α β : Type}

theorem Disciplined.of_quiet {p : ExceptT ε Backend α} (quiet : Asks Query.Quiet p) :
    Disciplined host req past (fun later _ => past <:+ later) p :=
  Obeys.of_asks quiet (fun _ _ => quiet_disciplined) (fun _ _ suffix => suffix)
    (fun _ _ _ => trivial)

/-- A part whose new entries are all of one quiet kind. -/
theorem Disciplined.of_kind {allowed : Query → Prop} {p : ExceptT ε Backend α} (asks : Asks allowed p)
    (quiet : ∀ query, allowed query → query.Quiet) :
    Disciplined host req past
      (fun later _ => ∃ new, later = new ++ past ∧ ∀ entry ∈ new, allowed entry.1) p :=
  Prog.Obeys.mono (fun _ _ here => quiet_disciplined (quiet _ here))
    (fun later result new => by
      cases result with
      | ok value => exact new
      | error err => exact trivial)
    (Prog.Obeys.entries_of_asks asks past)

/-- A quiet end. -/
theorem Disciplined.quiet {p : ExceptT ε Backend α} (quiet : Asks Query.Quiet p) :
    Disciplined host req past (fun _ _ => True) p :=
  (of_quiet quiet).mono (fun _ _ _ => trivial) (fun _ _ _ => trivial)

/-- A quiet first part. -/
theorem Disciplined.after {p : ExceptT ε Backend α} (quiet : Asks Query.Quiet p)
    {post : Past → β → Prop} {f : α → ExceptT ε Backend β}
    (rest : ∀ later value, past <:+ later → Disciplined host req later post (f value)) :
    Disciplined host req past post (p >>= f) :=
  Obeys.bind (of_quiet quiet) rest

theorem ensure_obeys {rule : Past → Query → Prop} {stop : Past → Response → Prop} {holds : Bool}
    {otherwise : Response} (stops : holds = false → stop past otherwise) :
    Obeys rule (fun later _ => later = past ∧ holds = true) stop past (ensure holds otherwise) := by
  cases holds with
  | true => exact Obeys.pure ⟨rfl, rfl⟩
  | false => exact Obeys.throw (stops rfl)

theorem orRespond_obeys {rule : Past → Query → Prop} {stop : Past → Response → Prop}
    {value : Option α} {otherwise : Response} (stops : value = none → stop past otherwise) :
    Obeys rule (fun later found => later = past ∧ value = some found) stop past
      (orRespond value otherwise) := by
  cases value with
  | none => exact Obeys.throw (stops rfl)
  | some value => exact Obeys.pure ⟨rfl, rfl⟩

theorem orFail_obeys {rule : Past → Query → Prop} {post : Past → α → Prop}
    {stop : Past → Err → Prop} {stop' : Past → Response → Prop} {p : Db α} {respond : Err → Response}
    (obeys : Obeys rule post stop past p) (stops : ∀ later err, stop later err → stop' later (respond err)) :
    Obeys rule post stop' past (orFail p respond) := by
  refine Obeys.bind (Obeys.lift obeys) fun later result holds => ?_
  cases result with
  | ok value => exact Obeys.pure holds
  | error err => exact Obeys.throw (stops later err holds)

theorem decodeAndValidate_obeys {rule : Past → Query → Prop} {stop : Past → Response → Prop}
    {body : Body β} {validate : β → Except String β}
    (stops : ∀ message, stop past (httpError message 400)) :
    Obeys rule (fun later value => later = past ∧ ∃ sent, body = .json sent ∧ validate sent = .ok value)
      stop past (decodeAndValidate body validate) := by
  unfold decodeAndValidate
  split
  · split
    · exact Obeys.pure ⟨rfl, _, rfl, ‹_›⟩
    · exact Obeys.throw (stops _)
  · exact Obeys.throw (stops _)

/-- A read, with its answer in the history. -/
theorem select_obeys {rule : Past → Query → Prop} {stop : Past → Err → Prop} {q : Select}
    (here : rule past (.read q)) (stops : ∀ err, stop (⟨.read q, .error err⟩ :: past) err) :
    Obeys rule (fun later row => later = ⟨.read q, .ok row⟩ :: past) stop past (select q) :=
  ⟨here, fun answer => by
    cases answer with
    | ok row => exact rfl
    | error err => exact stops err⟩

/-- A read with nothing to show for its error. -/
theorem select_told {rule : Past → Query → Prop} {q : Select} (here : rule past (.read q)) :
    Obeys rule (fun later row => later = ⟨.read q, .ok row⟩ :: past) (fun _ _ => True) past (select q) :=
  select_obeys here fun _ => trivial

/-- A write, with its answer in the history. -/
theorem exec_obeys {rule : Past → Query → Prop} {stop : Past → Err → Prop} {w : Write}
    (here : rule past (.write w)) (stops : ∀ err, stop (⟨.write w, .error err⟩ :: past) err) :
    Obeys rule (fun later rows => later = ⟨.write w, .ok rows⟩ :: past) stop past (exec w) :=
  ⟨here, fun answer => by
    cases answer with
    | ok rows => exact rfl
    | error err => exact stops err⟩

/-- Any other query. -/
theorem ask_obeys {rule : Past → Query → Prop} {stop : Past → ε → Prop} {query : Query}
    (here : rule past query) :
    Obeys rule (fun later answer => later = ⟨query, answer⟩ :: past) stop past
      (liftM (ask query) : ExceptT ε Backend _) :=
  Obeys.lift ⟨here, fun _ => rfl⟩

/-! ### The same with nothing to show for an early stop -/

namespace Disciplined

theorem bind {mid : Past → α → Prop} {post : Past → β → Prop} {p : ExceptT ε Backend α}
    (first : Disciplined host req past mid p) {f : α → ExceptT ε Backend β}
    (rest : ∀ later value, mid later value → Disciplined host req later post (f value)) :
    Disciplined host req past post (p >>= f) := Obeys.bind first rest

theorem weaken {post post' : Past → α → Prop} {p : ExceptT ε Backend α}
    (obeys : Disciplined host req past post p)
    (posts : ∀ later value, post later value → post' later value) :
    Disciplined host req past post' p := Obeys.mono obeys posts fun _ _ _ => trivial

theorem select (q : Select) :
    Disciplined host req past (fun later row => later = ⟨.read q, .ok row⟩ :: past) (select q) :=
  select_obeys trivial fun _ => trivial

theorem exec {w : Write} (here : Discipline host req past (.write w)) :
    Disciplined host req past (fun later rows => later = ⟨.write w, .ok rows⟩ :: past) (exec w) :=
  exec_obeys here fun _ => trivial

theorem ask {query : Query} (here : Discipline host req past query) :
    Disciplined host req past (fun later answer => later = ⟨query, answer⟩ :: past)
      (liftM (ask query) : ExceptT ε Backend _) := ask_obeys here

theorem ensure (holds : Bool) (otherwise : Response) :
    Disciplined host req past (fun later _ => later = past ∧ holds = true) (ensure holds otherwise) :=
  ensure_obeys fun _ => trivial

theorem orRespond (value : Option α) (otherwise : Response) :
    Disciplined host req past (fun later found => later = past ∧ value = some found)
      (orRespond value otherwise) := orRespond_obeys fun _ => trivial

theorem orFail {post : Past → α → Prop} {p : Db α} (obeys : Disciplined host req past post p)
    (respond : Err → Response) : Disciplined host req past post (orFail p respond) :=
  orFail_obeys obeys fun _ _ _ => trivial

theorem onDuplicate {post : Past → α → Prop} {p : Db α} (obeys : Disciplined host req past post p)
    (duplicate : Err) : Disciplined host req past post (onDuplicate p duplicate) :=
  Obeys.adapt obeys fun _ _ _ => trivial

end Disciplined

end Rules

end Wuflow

/-
**The data model.**

The structs of `models.go`, with Go's zero values as defaults, and the errors of `db.go`. A `*T` field
is an `Option`; `created_at` columns that only the JSON responses show are left out. Times that come
from `time.Now().UTC()` are instants; times that come from a request keep the offset they were sent
with (`DateTime`).
-/

import Wuflow.Calendar.Rfc3339

namespace Wuflow

open Calendar (Instant)

/-! ### Enumerations -/

/-- The status of an issue. Request bodies are decoded before they are validated, so a status may be
any text. -/
inductive IssueStatus
  | open | todo | stage1 | stage2 | stage3 | stage4 | done | archive
  | other (text : String)
  deriving DecidableEq

/-- The priority of an issue; `unset` is the empty text. -/
inductive IssuePriority
  | unset | normal | high
  | other (text : String)
  deriving DecidableEq

inductive ReleaseStatus
  | open | closed
  deriving DecidableEq

inductive UserRole
  | sysadmin | admin | user
  | other (text : String)
  deriving DecidableEq

/-- The text of a status, as stored and sent. -/
def IssueStatus.text : IssueStatus → String
  | .open => "Open" | .todo => "Todo" | .stage1 => "Stage1" | .stage2 => "Stage2"
  | .stage3 => "Stage3" | .stage4 => "Stage4" | .done => "Done" | .archive => "Archive"
  | .other text => text

/-- The text of a priority, as stored and sent. -/
def IssuePriority.text : IssuePriority → String
  | .unset => "" | .normal => "Normal" | .high => "High"
  | .other text => text

/-- A numeric rank for a role, so promotions can be detected by comparing ranks. -/
def roleRank : UserRole → Int
  | .user => 0
  | .admin => 1
  | .sysadmin => 2
  | .other _ => -1

/-! ### Times -/

/-- A time with the UTC offset (in minutes) it was given with. -/
structure DateTime where
  instant : Instant
  offset : Int := 0
  deriving DecidableEq

/-- The date at the time's own offset. -/
def DateTime.date (t : DateTime) : Calendar.Date :=
  (Calendar.Fields.ofInstant (t.instant + t.offset * 60 * Calendar.nanosPerSecond)).date

def DateTime.year (t : DateTime) : Int := t.date.year

/-! ### Records -/

structure Label where
  id : Int := 0
  name : String := ""
  color : String := ""
  projectID : Int := 0
  deriving DecidableEq

structure Project where
  id : Int := 0
  name : String := ""
  description : String := ""
  deriving DecidableEq

structure User where
  id : Int := 0
  email : String := ""
  firstName : String := ""
  lastName : String := ""
  passwordHash : String := ""
  role : UserRole := .other ""
  active : Bool := false
  updatedAt : Instant := 0
  lastLogin : Option Instant := none
  deriving DecidableEq

structure Release where
  id : Int := 0
  projectID : Int := 0
  name : String := ""
  description : String := ""
  startDate : Option DateTime := none
  releaseDate : Option DateTime := none
  closedAt : Option Instant := none
  status : ReleaseStatus := .open
  ownerID : Option Int := none
  owner : Option User := none
  createdAt : Instant := 0
  updatedAt : Instant := 0
  deriving DecidableEq

structure Task where
  id : Int := 0
  issueID : Int := 0
  title : String := ""
  done : Bool := false
  position : Int := 0
  deadline : Option DateTime := none
  updatedAt : Instant := 0
  deriving DecidableEq

structure Issue where
  id : Int := 0
  title : String := ""
  description : String := ""
  status : IssueStatus := .other ""
  position : Int := 0
  deadline : Option DateTime := none
  plannedDates : Option (List String) := none
  priority : IssuePriority := .unset
  creatorID : Int := 0
  assigneeID : Option Int := none
  updaterID : Option Int := none
  projectID : Int := 0
  releaseID : Option Int := none
  assignee : Option User := none
  label : Option Label := none
  release : Option Release := none
  project : Option Project := none
  tasks : List Task := []
  updatedAt : Instant := 0
  deriving DecidableEq

/-- One entry of a reorder request. -/
structure PositionUpdate where
  id : Int := 0
  position : Int := 0
  deriving DecidableEq

/-- The kinds of history entries. -/
inductive HistoryEvent
  | created | updated | archived | unarchived | moved | task
  deriving DecidableEq

/-- The payload of a history entry. -/
structure ChangeData where
  field : String := ""
  from_ : String := ""
  to_ : String := ""
  detail : String := ""
  deriving DecidableEq

structure HistoryEntry where
  id : Int := 0
  issueID : Int := 0
  userID : Option Int := none
  event : HistoryEvent
  data : ChangeData
  deriving DecidableEq

structure Comment where
  id : Int := 0
  issueID : Int := 0
  userID : Option Int := none
  user : Option User := none
  body : String := ""
  edited : Bool := false
  createdAt : Instant := 0
  updatedAt : Instant := 0
  deriving DecidableEq

/-- The display names of the four configurable board stages of a project. -/
structure StatusConfig where
  projectID : Int := 0
  stage1Name : String := ""
  stage2Name : String := ""
  stage3Name : String := ""
  stage4Name : String := ""
  deriving DecidableEq

structure Session where
  id : Int := 0
  userID : Int := 0
  sessionToken : List UInt8 := []
  tokenHash : String := ""
  expiresAt : Instant := 0
  deriving DecidableEq

/-! ### Errors -/

/-- The errors of the database functions. `uniqueConstraint` and `foreignKey` are SQLite's own errors,
`fault` is any other failure of a statement. -/
inductive Err
  | issueNotFound | taskNotFound | commentNotFound | labelNotFound | userNotFound | lastSysAdmin
  | sessionNotFound | duplicateEmail | projectNotFound | releaseNotFound | duplicateProjectName
  | duplicateReleaseName
  | uniqueConstraint | foreignKey | fault
  deriving DecidableEq

/-! ### ETags -/

/-- The ETag header value for a timestamp: quoted RFC 3339 with nanoseconds. -/
def formatETag (t : Instant) : String :=
  "\"" ++ String.ofList (Calendar.rfc3339Nano t) ++ "\""

/-- **An ETag determines its timestamp.** -/
theorem formatETag_injective {t u : Instant} (same : formatETag t = formatETag u) : t = u := by
  have texts := congrArg String.toList same
  unfold formatETag at texts
  simp only [String.toList_append, String.toList_ofList] at texts
  exact Calendar.rfc3339Nano_injective (List.append_cancel_left (List.append_cancel_right texts))

end Wuflow

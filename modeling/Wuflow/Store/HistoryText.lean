/-
**Change data as it is stored.**

`issue_history.data` is a text: the JSON of a `ChangeData`, written by `json.Marshal` or, for the issues
of a deleted user, by `json_object` of SQLite, and read by `json.Unmarshal`. A `Database` is the store with
these texts; `Database.decode` is the store that the rest of the development works with.

* `unmarshalChangeData_marshal` — what was written by Go is read back.
* `unmarshalChangeData_jsonObject` — what was written by SQLite is read as the change it describes.
-/

import Wuflow.Codec.Json
import Wuflow.Relational.Bulk
import Wuflow.Store.Schema

namespace Wuflow

open Calendar (Instant)
open Relational (Table)

/-! ### Encoding and decoding -/

/-- The members of a `ChangeData`; empty ones are omitted. -/
def ChangeData.members (d : ChangeData) : List (String × String) :=
  [("field", d.field), ("from", d.from_), ("to", d.to_), ("detail", d.detail)].filter (·.2 != "")

/-- A name without regard to case. -/
def foldName (name : String) : String := String.ofList (name.toList.map Char.toLower)

/-- Set the field that a member names; any other name is ignored. -/
def ChangeData.set (d : ChangeData) (entry : String × String) : ChangeData :=
  if foldName entry.1 = "field" then { d with field := entry.2 }
  else if foldName entry.1 = "from" then { d with from_ := entry.2 }
  else if foldName entry.1 = "to" then { d with to_ := entry.2 }
  else if foldName entry.1 = "detail" then { d with detail := entry.2 }
  else d

/-- `json.Marshal` of a `ChangeData`. -/
def marshalChangeData (d : ChangeData) : String := Json.goEncoder.object d.members

/-- `json.Unmarshal` into a `ChangeData`, of an object whose members are strings. -/
def unmarshalChangeData (data : String) : Option ChangeData :=
  (Json.decodeObject data).map fun members => members.foldl ChangeData.set {}

/-- `json_object` of SQLite, of text arguments. -/
def jsonObject (members : List (String × String)) : String := Json.sqliteEncoder.object members

theorem foldName_names : foldName "field" = "field" ∧ foldName "from" = "from" ∧
    foldName "to" = "to" ∧ foldName "detail" = "detail" := by decide

section Set

variable (d : ChangeData) (value : String)

@[simp] theorem ChangeData.set_field : d.set ("field", value) = { d with field := value } := by
  simp [ChangeData.set, foldName_names.1]

@[simp] theorem ChangeData.set_from : d.set ("from", value) = { d with from_ := value } := by
  simp [ChangeData.set, foldName_names.2.1]

@[simp] theorem ChangeData.set_to : d.set ("to", value) = { d with to_ := value } := by
  simp [ChangeData.set, foldName_names.2.2.1]

@[simp] theorem ChangeData.set_detail : d.set ("detail", value) = { d with detail := value } := by
  simp [ChangeData.set, foldName_names.2.2.2]

end Set

/-- Setting the members of a change, the omitted ones too, makes the change. -/
theorem ChangeData.foldl_members (d : ChangeData) : d.members.foldl ChangeData.set {} = d := by
  obtain ⟨field, from_, to_, detail⟩ := d
  unfold ChangeData.members
  by_cases f : field = "" <;> by_cases g : from_ = "" <;> by_cases t : to_ = "" <;>
    by_cases h : detail = "" <;> simp [f, g, t, h]

/-- **What Go has written is read back.** -/
theorem unmarshalChangeData_marshal (d : ChangeData) :
    unmarshalChangeData (marshalChangeData d) = some d := by
  unfold unmarshalChangeData marshalChangeData
  rw [Json.Encoder.decodeObject_object, Option.map_some, d.foldl_members]

/-- **What SQLite has written is read back.** -/
theorem unmarshalChangeData_jsonObject (field from_ : String) :
    unmarshalChangeData (jsonObject [("field", field), ("from", from_)]) = some { field, from_ } := by
  unfold unmarshalChangeData jsonObject
  rw [Json.Encoder.decodeObject_object, Option.map_some]
  simp

/-! ### The tables as they are stored -/

structure StoredHistory where
  issueID : Int
  userID : Option Int
  event : HistoryEvent
  data : String
  createdAt : Instant
  deriving DecidableEq

/-- The row with its data read; a text that is no such object, which nothing stores, shows nothing. -/
def StoredHistory.decode (row : StoredHistory) : HistoryRow :=
  ⟨row.issueID, row.userID, row.event, (unmarshalChangeData row.data).getD {}, row.createdAt⟩

/-- The database, with change data as texts. -/
structure Database where
  projects : Table ProjectRow := .empty
  releases : Table ReleaseRow := .empty
  issues : Table IssueRow := .empty
  tasks : Table TaskRow := .empty
  labels : Table LabelRow := .empty
  statusConfig : List StatusConfig := []
  users : Table UserRow := .empty
  sessions : Table SessionRow := .empty
  history : Table StoredHistory := .empty
  comments : Table CommentRow := .empty

/-- **The store a database stands for.** -/
def Database.decode (db : Database) : Store :=
  { projects := db.projects, releases := db.releases, issues := db.issues, tasks := db.tasks
    labels := db.labels, statusConfig := db.statusConfig, users := db.users, sessions := db.sessions
    history := db.history.map StoredHistory.decode, comments := db.comments }

end Wuflow

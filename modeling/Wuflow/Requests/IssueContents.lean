/-
**What a request keeps of the content of issues.**

`KeptContent req fact` — the bodies that `req` would store have a fact, and the fact survives other positions
and statuses. Then every write that `req` may make keeps it (`KeptContent.write`): what a handler writes
back, it has read from the database.
-/

import Wuflow.Requests.Sequential
import Wuflow.Store.Contents

namespace Wuflow

open Calendar (Instant)

/-- A fact about the content of issues that a request keeps. -/
structure KeptContent (req : Request) (fact : IssueContent → Prop) : Prop where
  created : ∀ caller pId sent i position, req = .createIssue caller pId (.json sent) →
    validateIssue sent = .ok i →
    fact ⟨i.title, i.description, i.status, position, i.plannedDates,
      if i.priority = .unset then .normal else i.priority⟩
  put : ∀ caller pId id ifMatch sent i, req = .putIssue caller pId id ifMatch (.json sent) →
    validateIssue sent = .ok i →
    fact ⟨i.title, i.description, i.status, i.position, i.plannedDates, i.priority⟩
  position : ∀ content position, fact content → fact { content with position }
  status : ∀ content status, isValidStatus status = true → fact content → fact { content with status }

section Writes

variable {host : Host} {req : Request} {past : Past} {s : Store} {w : Write} {fact : IssueContent → Prop}

/-- Writes on the sessions show nothing about issues and tasks. -/
theorem Write.OnSessions.keeps (sessions : w.OnSessions) (fact : IssueContent → Prop)
    (taskFact : TaskContent → Prop) : w.KeepsIssues fact ∧ w.KeepsTasks taskFact := by
  cases w with
  | insertSession | updateSession | deleteSession | deleteSessionsByUserID
  | deleteExpiredSessions => exact ⟨trivial, trivial⟩
  | _ => exact sessions.elim

/-- The copy of an issue that a handler works on has the fact. -/
theorem Witnessed.issue_content {kept : Store → Prop} (witnessed : Witnessed kept past s)
    (all : ∀ t, kept t → t.IssuesAll fact) {id projectID : Int} {issue : Issue}
    (loaded : LoadedIssue past id projectID issue) : fact issue.columns.content := by
  obtain ⟨t, row, tasks, holds, _, found, _, rfl⟩ := witnessed.issue loaded
  exact all t holds id row found

/-- **Every write of the request keeps the fact.** -/
theorem KeptContent.write (content : KeptContent req fact) {kept : Store → Prop}
    (sanctioned : Sanctioned host req past w) (witnessed : Witnessed kept past s)
    (all : ∀ t, kept t → t.IssuesAll fact) : w.KeepsIssues fact := by
  cases sanctioned with
  | createIssue unwritten entered decoded =>
      obtain ⟨sent, rfl, valid⟩ := decoded
      exact content.created _ _ sent _ _ rfl valid
  | putIssue unwritten entered accepted =>
      obtain ⟨i, ⟨sent, rfl, valid⟩, rfl⟩ := accepted.sent
      exact content.put _ _ _ _ sent i rfl valid
  | putIssuePosition => exact fun other => content.position other _
  | putIssuePositions => exact fun u _ other => content.position other u.position
  | archiveIssue unwritten entered loaded | unarchiveIssue unwritten entered loaded
  | moveIssue unwritten entered loaded =>
      exact content.status _ _ rfl (witnessed.issue_content all loaded)
  | archiveDone => exact fun other => content.status other .archive rfl
  | session sessions => exact (sessions.keeps fact fun _ => True).1
  | _ => trivial

end Writes

end Wuflow

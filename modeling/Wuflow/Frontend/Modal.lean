/-
**The version that a save of the issue modal names** (`modal.js`).

A save is sent with the ETag of the version its body is built from, so that the server can tell whether
somebody else has written in between. The modal keeps that ETag, the open issue, its pending revalidation
and the chain of queued writes in separate variables, and each of them changes when an answer arrives.
`revalidateIssue` drops an answer that arrives after the modal has moved on; the answer to a save does not
look.

* `getIssue_answered` — the server of the modal answers a GET as the backend does.
* `modal_etags` — over every run in which no answer arrives after the modal has moved on (`Timely`), each
  save carries the ETag of the version it was built from or the one that never matches; and where moreover
  nobody else writes (`Undisturbed`), none is answered 409.
* `foreign_etag` — the answer to a save of one issue arrives while another is open: the next save of that
  one carries the first one's ETag, and the server finds a conflict that nobody has caused.
-/

import Wuflow.Frontend.Revalidation
import Wuflow.Interleave.EventLoop
import Wuflow.Invariants.References
import Wuflow.Requests.Alone

namespace Wuflow.IssueModal

open EventLoop (Machine Move Step Run mem_pending)
open Interleave.Stopping (Ensures)

/-! ### The server -/

/-- The issues of the server, as GET returns them. -/
structure Server where
  issues : Int → Option Issue
  ids : ∀ id issue, issues id = some issue → issue.id = id

/-- GET, with the ETag of its answer. -/
def Server.get (server : Server) (projectID id : Int) : Option (Issue × String) :=
  ((server.issues id).filter (·.projectID == projectID)).map fun issue =>
    (issue, formatETag issue.updatedAt)

/-- A write to one issue. -/
def Server.set (server : Server) (id : Int) (issue : Option Issue) : Server where
  issues key := if key = id then issue.map ({ · with id }) else server.issues key
  ids key found same := by
    split at same
    · obtain ⟨issue, _, rfl⟩ := Option.map_eq_some_iff.mp same
      exact ‹key = id›.symm
    · exact server.ids key found same

/-- The issues in the tables. -/
def Server.ofStore (s : Store) : Server where
  issues id := (s.issues.get? id).map fun row =>
    { s.scanIssueRow id row with tasks := (Select.tasksByIssueID id).eval s }
  ids id issue found := by
    obtain ⟨row, _, rfl⟩ := Option.map_eq_some_iff.mp found
    rfl

/-- They are what `GET /projects/{pId}/issues/{id}` returns, where every issue has its project. -/
theorem ofStore_get {s : Store} {id : Int} (projectID : Int)
    (placed : ∀ row, s.issues.get? id = some row → (s.projects.get? row.projectID).isSome = true) :
    (Server.ofStore s).get projectID id = fetchIssueById s projectID id := by
  have project : ∀ row, s.issues.get? id = some row →
      (s.scanIssueRow id row).projectID = row.projectID := by
    intro row found
    obtain ⟨p, here⟩ := Option.isSome_iff_exists.mp (placed row found)
    simp only [Store.scanIssueRow, here, Option.map_some, Option.getD_some]
  refine congrArg (Option.map fun issue : Issue => (issue, formatETag issue.updatedAt)) ?_
  refine Option.ext fun issue => ?_
  show ((s.issues.get? id).map _).filter _ = some issue ↔ s.issueView projectID id = some issue
  rw [issueView_eq_some, Option.filter_eq_some_iff, Option.map_eq_some_iff]
  constructor
  · rintro ⟨⟨row, found, rfl⟩, inside⟩
    exact ⟨row, found, (project row found).symm.trans (beq_iff_eq.mp inside), rfl⟩
  · rintro ⟨row, found, inside, rfl⟩
    exact ⟨⟨row, found, rfl⟩, beq_iff_eq.mpr ((project row found).trans inside)⟩

/-- The answer to a GET. -/
def getAnswer : Option (Issue × String) → Response
  | some (issue, etag) => { status := 200, payload := .issue (some issue), etag := some etag }
  | none => issueNotFound

/-- The database is left alone and this is answered. -/
def Answers (s : Store) (answer response : Response) (s' : Store) : Prop := s' = s ∧ response = answer

theorem handleGetIssue_answers (projectID id : Int) (s : Store) :
    Ensures (Query.tried Query.sound) (Answers s (getAnswer (fetchIssueById s projectID id)))
      (Answers s (getAnswer (fetchIssueById s projectID id))) (handleGetIssue projectID id) s := by
  have tame := tame_tried Query.sound
  unfold fetchIssueById Store.issueView
  refine Ensures.bind (Ensured.orFail (Ensured.select tame (fun impossible _ => impossible.elim) ?_))
  cases Select.eval (.issueByIDInProject id projectID) s with
  | none => exact ⟨rfl, rfl⟩
  | some issue =>
      refine Ensured.select tame (fun impossible _ => impossible.elim) ?_
      exact ⟨rfl, rfl⟩

/-- **The server of the modal is the backend**: in every database that is reached, a GET is answered from
`Server.ofStore`. -/
theorem getIssue_answered {ι : Type} [DecidableEq ι] {host : Host} {reqs : ι → Request} {trace : List (Wuflow.Step ι)}
    {current : ι → Backend Response} {s s' : Store} {caller : Caller} {projectID id : Int} {response : Response}
    (run : Serves host reqs trace s current) (permitted : can caller.role .getIssue = true)
    (known : s.projects.holds projectID (fun _ => true) = true) (positive : 0 < projectID ∧ 0 < id)
    (responds : Responds Query.sound host s (.getIssue caller (some projectID) (some id)) response s') :
    s' = s ∧ response = getAnswer ((Server.ofStore s).get projectID id) := by
  have tame := tame_tried Query.sound
  have placed : ∀ row, s.issues.get? id = some row → (s.projects.get? row.projectID).isSome = true :=
    fun row found => Option.isSome_iff_exists.mpr (run.references.consistent.project id row found)
  rw [ofStore_get projectID placed]
  have answers : Ensures (Query.tried Query.sound) (Answers s (getAnswer (fetchIssueById s projectID id)))
      (Answers s (getAnswer (fetchIssueById s projectID id)))
      (handler host (.getIssue caller (some projectID) (some id))) s :=
    Ensured.permitted tame permitted known positive (handleGetIssue_answers projectID id s)
  exact responds.ends answers

/-- The labelled issue is asked for. -/
def askedFor : Store := (execute sampleHost labelledIssue labelledIssueMoves).store

def asked : Request := .getIssue sampleAdmin (some 1) (some 1)

theorem getIssue_answered_labelled : ∃ response s', Responds Query.sound sampleHost askedFor asked response s' ∧
    response.status = 200 ∧ response.etag = some (formatETag 3) ∧ s' = askedFor ∧
      response = getAnswer ((Server.ofStore askedFor).get 1 1) := by
  have done : (answered sampleHost askedFor asked (stepsOf () 9 {})).map (fun r => (r.status, r.etag)) =
      some (200, some (formatETag 3)) := by decide +kernel
  obtain ⟨response, ended, same⟩ := Option.map_eq_some_iff.mp done
  have responds := Responds.of_moves Query.sound ended
  obtain ⟨kept, answer⟩ := getIssue_answered (Serves.of_moves sampleHost labelledIssue labelledIssueMoves)
    (by decide) (by decide +kernel) ⟨by decide, by decide⟩ responds
  exact ⟨response, _, responds, congrArg Prod.fst same, congrArg Prod.snd same, kept, answer⟩

/-! ### The modal -/

/-- An object of the script: the same fields in another object are another issue to `===`. -/
abbrev Ref := Nat

/-- What `getChanges` returns for a save: other fields of the same issue. -/
structure Changes where
  apply : Issue → Issue
  id : ∀ issue, (apply issue).id = issue.id

/-- A save: the object it saves, the version that its body is built from, and its changes. -/
structure Save where
  issue : Ref
  base : Issue
  changes : Changes

def Save.body (save : Save) : Issue := save.changes.apply save.base

/-- What waits in `issueSaveChain`. -/
inductive Write
  | saveIssueChanges (issueId : Option Int) (changes : Changes)
  | moveIssueToProject (projectId : Int)

inductive SaveResult
  | ok (issue : Issue) (etag : String)
  | conflict
  | failed

/-- The write that is running, by what it waits for: the revalidation (`etagForSave`), the server, the
answer of the server, or the user. -/
inductive Chain
  | idle
  | waiting (load : Nat) (save : Save)
  | put (save : Save) (ifMatch : Option String)
  | saved (save : Save) (result : SaveResult)
  | conflict (save : Save)
  | reload (save : Save)
  | reloaded (result : Option (Issue × String))
  | confirm (projectId : Int)
  | move (currentProjectId issueId projectId : Int)
  | moved (projectId : Int) (result : Option (Issue × String))

/-- A PUT that was sent. -/
structure Put where
  save : Save
  ifMatch : Option String

/-- The variables of the modal, the server, and what was sent and refused with 409. -/
structure World where
  server : Server
  objects : Ref → Issue := fun _ => {}
  nextRef : Ref := 0
  currentIssue : Option Ref := none
  currentEtag : Option String := none
  issueLoad : Option Nat := none
  issueLoadSeq : Nat := 0
  queue : List Write := []
  chain : Chain := .idle
  puts : List Put := []
  conflicts : List Save := []

/-- How far the fetch of a revalidation has come. -/
inductive Stage
  | sent (projectID id : Int)
  | answered (result : Option (Issue × String))

/-- A `revalidateIssue` that waits. -/
structure Revalidation where
  seq : Nat
  issue : Ref
  stage : Stage

/-- What happens to a request of a revalidation. -/
inductive Fetched
  | served
  | refused
  | arrives (isEditing : Bool)
  | lost

/-- What happens to the request or the dialog of the running write; a write that is served leaves
`stored` on the server. -/
inductive Reply
  | served (stored : Issue)
  | refused
  | arrives
  | lost
  | yes
  | no

inductive Call
  | openModal (issue : Option Issue)
  | closeModal
  | saveIssueChanges (changes : Changes)
  | changeProject (projectId : Int)
  | nextWrite
  | goOn (reply : Reply)
  | otherClient (id : Int) (issue : Option Issue)

/-- `setCurrentIssue` with a new object. -/
def World.setCurrentIssue (w : World) (issue : Issue) : World :=
  { w with
    objects := Function.update w.objects w.nextRef issue
    nextRef := w.nextRef + 1
    currentIssue := some w.nextRef }

def World.openModal (w : World) : Option Issue → World × List Revalidation
  | some issue =>
      let seq := w.issueLoadSeq + 1
      ({ w with issueLoadSeq := seq, currentEtag := none, issueLoad := some seq }.setCurrentIssue issue,
        [⟨seq, w.nextRef, .sent issue.projectID issue.id⟩])
  | none =>
      ({ w with
          issueLoadSeq := w.issueLoadSeq + 1
          currentEtag := none
          issueLoad := none
          currentIssue := none }, [])

def World.closeModal (w : World) : World :=
  { w with
    currentIssue := none
    currentEtag := none
    issueLoad := none
    issueLoadSeq := w.issueLoadSeq + 1 }

/-- `revalidateIssue`, from the answer on. -/
def World.revalidateIssue (w : World) (seq : Nat) (issue : Ref) (fetched : Option (Issue × String))
    (isEditing : Bool) : World :=
  -- modal closed or another issue opened meanwhile
  if seq ≠ w.issueLoadSeq then w
  else
    let w := { w with issueLoad := none }
    match revalidation (w.objects issue) fetched isEditing with
    | .notFound => w.closeModal
    | .unchanged etag => { w with currentEtag := some etag }
    | .outdated => { w with currentEtag := some staleETag }
    | .replaced freshIssue etag => { w with currentEtag := some etag }.setCurrentIssue freshIssue

/-- `updateIssue`: an empty ETag sends no `If-Match`. -/
def World.updateIssue (w : World) (save : Save) (etag : Option String) : World :=
  let ifMatch := etag.filter (· != "")
  { w with chain := .put save ifMatch, puts := ⟨save, ifMatch⟩ :: w.puts }

/-- `etagForSave`, once the revalidation it has waited for is over. -/
def World.etagForSave (w : World) (save : Save) : Option String :=
  if w.currentIssue = some save.issue then w.currentEtag else some staleETag

/-- A save that waits for this revalidation is sent. -/
def World.settle (w : World) (seq : Nat) : World :=
  match w.chain with
  | .waiting load save => if load = seq then w.updateIssue save (w.etagForSave save) else w
  | _ => w

/-- A queued write begins. -/
def World.begin (w : World) : Write → World
  | .saveIssueChanges issueId changes =>
      match w.currentIssue with
      | none => w
      | some ref =>
          let issue := w.objects ref
          -- modal closed or another issue opened meanwhile
          if some issue.id ≠ issueId then w
          else
            let save : Save := ⟨ref, issue, changes⟩
            match w.issueLoad with
            | none => w.updateIssue save w.currentEtag
            | some load => { w with chain := .waiting load save }
  | .moveIssueToProject projectId =>
      match w.currentIssue with
      | none => w
      | some _ => { w with chain := .confirm projectId }

/-- The next write begins when the one before is done. -/
def World.nextWrite (w : World) : Option World :=
  match w.chain, w.queue with
  | .idle, write :: rest => some ({ w with queue := rest }.begin write)
  | _, _ => none

/-- The server on a PUT: 404, 409, or the issue as stored. -/
def World.servePut (w : World) (save : Save) (ifMatch : Option String) (stored : Issue) : World :=
  match w.server.get save.body.projectID save.body.id with
  | none => { w with chain := .saved save .failed }
  | some (current, _) =>
      let ifMatch := ifMatch.getD ""
      if ifMatch == "" || !ifMatchConflict current ifMatch then
        { w with
          server := w.server.set save.body.id (some stored)
          chain := .saved save (.ok { stored with id := save.body.id } (formatETag stored.updatedAt)) }
      else { w with chain := .saved save .conflict, conflicts := save :: w.conflicts }

/-- The server on a move. -/
def World.serveMove (w : World) (currentProjectId issueId projectId : Int) (stored : Issue) : World :=
  match w.server.get currentProjectId issueId with
  | none => { w with chain := .moved projectId none }
  | some _ =>
      let stored := { stored with projectID := projectId }
      { w with
        server := w.server.set issueId (some stored)
        chain := .moved projectId (some ({ stored with id := issueId }, formatETag stored.updatedAt)) }

/-- `Object.assign(issue, changes, { ...saved, tasks: issue.tasks })`: an assignee or a project that the
server leaves out stays. -/
def assign (issue : Issue) (changes : Changes) (saved : Issue) : Issue :=
  { saved with
    tasks := issue.tasks
    assignee := saved.assignee <|> (changes.apply issue).assignee
    project := saved.project <|> (changes.apply issue).project }

/-- The end of a successful save: whatever is open now, its ETag is the one of the saved issue. -/
def World.finishSave (w : World) (save : Save) (saved : Issue) (etag : String) : World :=
  { w with
    currentEtag := some etag
    objects := Function.update w.objects save.issue
      (assign (w.objects save.issue) save.changes saved)
    chain := .idle }

/-- The end of a reload or a move: the modal shows the server's copy. -/
def World.takeOver (w : World) : Option (Issue × String) → World
  | none => { w with chain := .idle }
  | some (issue, etag) => { w with currentEtag := some etag, chain := .idle }.setCurrentIssue issue

/-- The running write goes on. -/
def World.goOn (w : World) (reply : Reply) : Option World :=
  match w.chain, reply with
  | .put save ifMatch, .served stored => some (w.servePut save ifMatch stored)
  | .put save _, .refused => some { w with chain := .saved save .failed }
  | .saved save (.ok issue etag), .arrives => some (w.finishSave save issue etag)
  | .saved save .conflict, .arrives => some { w with chain := .conflict save }
  | .saved _ .failed, .arrives => some { w with chain := .idle }
  | .saved _ _, .lost => some { w with chain := .idle }
  | .conflict save, .yes => some { w with chain := .reload save }
  | .conflict _, .no => some { w with chain := .idle }
  | .reload save, .served _ =>
      some { w with chain := .reloaded (w.server.get save.body.projectID save.body.id) }
  | .reload _, .refused => some { w with chain := .reloaded none }
  | .reloaded result, .arrives => some (w.takeOver result)
  | .reloaded _, .lost => some (w.takeOver none)
  | .confirm projectId, .yes =>
      -- without an open issue the request throws, and the dialog stays
      some (match w.currentIssue with
        | none => w
        | some ref =>
            { w with chain := .move (w.objects ref).projectID (w.objects ref).id projectId })
  | .confirm _, .no => some { w with chain := .idle }
  | .move currentProjectId issueId projectId, .served stored =>
      some (w.serveMove currentProjectId issueId projectId stored)
  | .move _ _ projectId, .refused => some { w with chain := .moved projectId none }
  | .moved _ (some result), .arrives => some (w.takeOver (some result))
  | .moved projectId none, .arrives => some { w with chain := .confirm projectId }
  | .moved projectId _, .lost => some { w with chain := .confirm projectId }
  | _, _ => none

def World.call (w : World) : Call → Option (World × List Revalidation)
  | .openModal issue => some (w.openModal issue)
  | .closeModal => some (w.closeModal, [])
  | .saveIssueChanges changes =>
      let issueId := w.currentIssue.map fun ref => (w.objects ref).id
      some ({ w with queue := w.queue ++ [.saveIssueChanges issueId changes] }, [])
  | .changeProject projectId =>
      match w.currentIssue with
      | none => some (w, [])
      | some _ => some ({ w with queue := w.queue ++ [.moveIssueToProject projectId] }, [])
  | .nextWrite => w.nextWrite.map (·, [])
  | .goOn reply => (w.goOn reply).map (·, [])
  | .otherClient id issue => some ({ w with server := w.server.set id issue }, [])

def World.resume (w : World) (t : Revalidation) (reply : Fetched) :
    Option (World × List Revalidation) :=
  match t.stage, reply with
  | .sent projectID id, .served =>
      some (w, [{ t with stage := .answered (w.server.get projectID id) }])
  | .sent _ _, .refused => some (w, [{ t with stage := .answered none }])
  | .answered result, .arrives isEditing =>
      some ((w.revalidateIssue t.seq t.issue result isEditing).settle t.seq, [])
  | .answered _, .lost => some ((w.revalidateIssue t.seq t.issue none false).settle t.seq, [])
  | _, _ => none

/-- **The modal on the event loop**, with the server and the other clients. -/
def modal : Machine World Call Revalidation Fetched where
  call c w := w.call c
  resume t reply w := w.resume t reply

/-! ### The version that a save names -/

/-- **The ETag is that of the version, or the one that never matches.** -/
def Names (version : Issue) (etag : Option String) : Prop :=
  etag = some staleETag ∨ etag = some (formatETag version.updatedAt)

theorem formatETag_ne_empty (t : Calendar.Instant) : formatETag t ≠ "" := by
  intro empty
  have texts := congrArg String.toList empty
  unfold formatETag at texts
  rw [String.toList_append, String.toList_append] at texts
  exact nomatch texts

/-- It is sent as `If-Match`. -/
theorem Names.ifMatch {version : Issue} {etag : Option String} (names : Names version etag) :
    etag.filter (· != "") = etag := by
  rcases names with rfl | rfl
  · decide
  · exact Option.filter_eq_some_iff.mpr ⟨rfl, bne_iff_ne.mpr (formatETag_ne_empty _)⟩

/-- The save that has not come to its end. -/
def Chain.save : Chain → Option Save
  | .waiting _ save | .put save _ | .saved save _ => some save
  | _ => none

/-- The issue in an answer of the server. -/
def Chain.answer : Chain → Option (Issue × String)
  | .saved _ (.ok issue etag) => some (issue, etag)
  | .reloaded result | .moved _ result => result
  | _ => none

def Chain.waits : Chain → Bool
  | .waiting _ _ => true
  | _ => false

/-- **No answer arrives after the modal has moved on**: that of a save finds the issue it has saved, no
issue, or one whose revalidation is pending, and that of a reload or a move finds no pending
revalidation. -/
def Timely (w : World) (_ : List Revalidation) : Move Call Revalidation Fetched → Prop
  | .call (.goOn .arrives) =>
      match w.chain with
      | .saved save (.ok _ _) =>
          w.currentIssue = some save.issue ∨ w.currentIssue = none ∨ w.issueLoad ≠ none
      | .reloaded (some _) | .moved _ (some _) => w.issueLoad = none
      | _ => True
  | _ => True

/-- A revalidation that is not over belongs to the open issue, or to one that was. -/
structure Revalidation.Tracked (w : World) (t : Revalidation) : Prop where
  seq : t.seq ≤ w.issueLoadSeq
  issue : t.issue < w.nextRef
  current : t.seq = w.issueLoadSeq → w.issueLoad = some t.seq ∧ w.currentIssue = some t.issue
  answered : ∀ issue etag, t.stage = .answered (some (issue, etag)) → etag = formatETag issue.updatedAt

/-- Its answer, unless that is lost, carries the ETag of its issue. -/
theorem Revalidation.Tracked.etag {w : World} {t : Revalidation} (tracked : t.Tracked w)
    {fetched : Option (Issue × String)} (here : fetched = none ∨ t.stage = .answered fetched) :
    ∀ issue etag, fetched = some (issue, etag) → etag = formatETag issue.updatedAt := by
  intro issue etag same
  rcases here with missing | here
  · exact nomatch missing.symm.trans same
  · exact tracked.answered issue etag (here.trans (congrArg Stage.answered same))

/-- **The variables of the modal fit together.** -/
structure Tracks (w : World) (pending : List Revalidation) : Prop where
  current : ∀ ref, w.currentIssue = some ref → ref < w.nextRef
  etag : ∀ ref, w.currentIssue = some ref → w.issueLoad = none → Names (w.objects ref) w.currentEtag
  load : ∀ load, w.issueLoad = some load → load = w.issueLoadSeq
  save : ∀ save, w.chain.save = some save → save.issue < w.nextRef ∧ w.objects save.issue = save.base
  answer : ∀ issue etag, w.chain.answer = some (issue, etag) → etag = formatETag issue.updatedAt
  puts : ∀ put ∈ w.puts, Names put.save.base put.ifMatch
  revalidations : ∀ t ∈ pending, t.Tracked w
  apart : (pending.map Revalidation.seq).Nodup

/-- A save waits for the revalidation of the open issue, or its issue is no longer open. -/
def Waits (w : World) : Prop :=
  ∀ load save, w.chain = .waiting load save → w.currentIssue = some save.issue → w.issueLoad = some load

section Tracks

variable {w : World} {pending before after : List Revalidation} {t : Revalidation}

theorem Waits.of_not (still : w.chain.waits = false) : Waits w := by
  intro load save waiting
  rw [waiting] at still
  exact nomatch still

theorem server_get {server : Server} {projectID id : Int} {issue : Issue} {etag : String}
    (got : server.get projectID id = some (issue, etag)) :
    server.issues id = some issue ∧ etag = formatETag issue.updatedAt := by
  obtain ⟨found, here, same⟩ := Option.map_eq_some_iff.mp got
  cases same
  exact ⟨(Option.filter_eq_some_iff.mp here).1, rfl⟩

/-- The running write goes on. -/
theorem Tracks.goes (tracks : Tracks w pending) (c : Chain) (server : Server) (conflicts : List Save)
    (save : ∀ save, c.save = some save → w.chain.save = some save)
    (answer : ∀ issue etag, c.answer = some (issue, etag) → etag = formatETag issue.updatedAt) :
    Tracks { w with server, chain := c, conflicts } pending where
  current := tracks.current
  etag := tracks.etag
  load := tracks.load
  save held same := tracks.save held (save held same)
  answer := answer
  puts := tracks.puts
  revalidations t member := by
    have tracked := tracks.revalidations t member
    exact ⟨tracked.seq, tracked.issue, tracked.current, tracked.answered⟩
  apart := tracks.apart

/-- A save is sent. -/
theorem Tracks.updateIssue (tracks : Tracks w pending) {save : Save} {etag : Option String}
    (held : save.issue < w.nextRef ∧ w.objects save.issue = save.base)
    (names : Names save.base etag) : Tracks (w.updateIssue save etag) pending where
  current := tracks.current
  etag := tracks.etag
  load := tracks.load
  save _ same := by
    cases same
    exact held
  answer _ _ same := nomatch same
  puts put member := by
    rcases List.mem_cons.mp member with rfl | old
    · show Names save.base (etag.filter (· != ""))
      rw [names.ifMatch]
      exact names
    · exact tracks.puts put old
  revalidations t member := by
    have tracked := tracks.revalidations t member
    exact ⟨tracked.seq, tracked.issue, tracked.current, tracked.answered⟩
  apart := tracks.apart

/-- No revalidation is pending for the open issue. -/
theorem Tracks.not_current (tracks : Tracks w pending) (idle : w.issueLoad = none)
    (member : t ∈ pending) : t.seq ≠ w.issueLoadSeq := by
  intro same
  exact nomatch idle.symm.trans ((tracks.revalidations t member).current same).1

/-- The one that is resumed is the only one for the open issue. -/
theorem Tracks.rest_not_current (tracks : Tracks w (before ++ t :: after))
    (current : t.seq = w.issueLoadSeq) {u : Revalidation} (member : u ∈ before ++ after) :
    u.seq ≠ w.issueLoadSeq := by
  intro same
  have apart := tracks.apart
  rw [List.map_append, List.map_cons] at apart
  refine (List.nodup_cons.mp (List.nodup_middle.mp apart)).1 ?_
  rw [current, ← same, ← List.map_append]
  exact List.mem_map_of_mem member

/-- One revalidation less. -/
theorem Tracks.rest (tracks : Tracks w (before ++ t :: after)) : Tracks w (before ++ after) where
  current := tracks.current
  etag := tracks.etag
  load := tracks.load
  save := tracks.save
  answer := tracks.answer
  puts := tracks.puts
  revalidations u member := tracks.revalidations u (mem_pending.mpr (.inr member))
  apart := by
    have apart := tracks.apart
    rw [List.map_append, List.map_cons] at apart
    rw [List.map_append]
    exact (List.nodup_cons.mp (List.nodup_middle.mp apart)).2

/-- A revalidation comes further. -/
theorem Tracks.fetched (tracks : Tracks w (before ++ t :: after)) {stage : Stage}
    (answered : ∀ issue etag, stage = .answered (some (issue, etag)) → etag = formatETag issue.updatedAt) :
    Tracks w (before ++ after ++ [{ t with stage }]) where
  current := tracks.current
  etag := tracks.etag
  load := tracks.load
  save := tracks.save
  answer := tracks.answer
  puts := tracks.puts
  revalidations u member := by
    rcases List.mem_append.mp member with old | new
    · exact tracks.revalidations u (mem_pending.mpr (.inr old))
    · cases List.mem_singleton.mp new
      have tracked := tracks.revalidations t (mem_pending.mpr (.inl rfl))
      exact ⟨tracked.seq, tracked.issue, tracked.current, answered⟩
  apart := by
    have apart := tracks.apart
    rw [List.map_append, List.map_cons] at apart
    rw [List.map_append, List.map_append]
    exact (List.perm_append_singleton _ _).nodup_iff.mpr (List.nodup_middle.mp apart)

theorem Tracks.enqueue (tracks : Tracks w pending) (queue : List Write) :
    Tracks { w with queue } pending :=
  ⟨tracks.current, tracks.etag, tracks.load, tracks.save, tracks.answer, tracks.puts,
    fun t member =>
      let tracked := tracks.revalidations t member
      ⟨tracked.seq, tracked.issue, tracked.current, tracked.answered⟩, tracks.apart⟩

/-- A server's copy is shown. -/
theorem Tracks.setCurrentIssue (tracks : Tracks w pending) (idle : w.issueLoad = none) (issue : Issue) :
    Tracks ({ w with currentEtag := some (formatETag issue.updatedAt) }.setCurrentIssue issue) pending where
  current ref same := by
    cases same
    exact Nat.lt_succ_self _
  etag ref same _ := by
    cases same
    show Names (Function.update w.objects w.nextRef issue w.nextRef) _
    rw [Function.update_self]
    exact .inr rfl
  load := tracks.load
  save held same := by
    obtain ⟨old, base⟩ := tracks.save held same
    refine ⟨Nat.lt_succ_of_lt old, ?_⟩
    show Function.update w.objects w.nextRef issue held.issue = _
    rw [Function.update_of_ne (Nat.ne_of_lt old)]
    exact base
  answer := tracks.answer
  puts := tracks.puts
  revalidations t member := by
    have tracked := tracks.revalidations t member
    exact ⟨tracked.seq, Nat.lt_succ_of_lt tracked.issue,
      fun same => absurd same (tracks.not_current idle member), tracked.answered⟩
  apart := tracks.apart

/-- A revalidation of what was open before. -/
theorem Revalidation.Tracked.openModal (tracked : t.Tracked w) (issue : Option Issue) :
    t.Tracked (w.openModal issue).1 := by
  have older : t.seq ≠ w.issueLoadSeq + 1 := Nat.ne_of_lt (Nat.lt_succ_of_le tracked.seq)
  cases issue with
  | none =>
      exact ⟨Nat.le_succ_of_le tracked.seq, tracked.issue, fun same => absurd same older, tracked.answered⟩
  | some issue =>
      exact ⟨Nat.le_succ_of_le tracked.seq, Nat.lt_succ_of_lt tracked.issue,
        fun same => absurd same older, tracked.answered⟩

/-- An issue is opened. -/
theorem Tracks.openModal (tracks : Tracks w pending) (issue : Option Issue) :
    Tracks (w.openModal issue).1 (pending ++ (w.openModal issue).2) := by
  cases issue with
  | none =>
      show Tracks _ (pending ++ [])
      rw [List.append_nil]
      exact ⟨nofun, nofun, nofun, tracks.save, tracks.answer, tracks.puts,
        fun t member => (tracks.revalidations t member).openModal none, tracks.apart⟩
  | some issue =>
      refine ⟨?_, ?_, ?_, fun held same => ?_, tracks.answer, tracks.puts, fun t member => ?_, ?_⟩
      · rintro ref ⟨⟩
        exact Nat.lt_succ_self _
      · exact fun _ _ idle => nomatch idle
      · rintro load ⟨⟩
        rfl
      · obtain ⟨old, base⟩ := tracks.save held same
        refine ⟨Nat.lt_succ_of_lt old, ?_⟩
        show Function.update w.objects w.nextRef issue held.issue = _
        rw [Function.update_of_ne (Nat.ne_of_lt old)]
        exact base
      · rcases List.mem_append.mp member with old | new
        · exact (tracks.revalidations t old).openModal (some issue)
        · cases List.mem_singleton.mp new
          refine ⟨Nat.le_refl _, Nat.lt_succ_self _, fun _ => ⟨rfl, rfl⟩, fun _ _ same => ?_⟩
          exact nomatch (same : Stage.sent issue.projectID issue.id = _)
      · rw [List.map_append]
        refine List.nodup_append.mpr ⟨tracks.apart, List.nodup_singleton _, ?_⟩
        rintro seq old _ new rfl
        obtain ⟨t, member, rfl⟩ := List.mem_map.mp old
        have bound := (tracks.revalidations t member).seq
        rw [List.mem_singleton.mp new] at bound
        exact absurd bound (Nat.not_succ_le_self _)

theorem Tracks.closeModal (tracks : Tracks w pending) : Tracks w.closeModal pending := by
  have opened := tracks.openModal none
  rw [show (w.openModal none).2 = [] from rfl, List.append_nil] at opened
  exact opened

theorem Waits.openModal (tracks : Tracks w pending) (issue : Option Issue) :
    Waits (w.openModal issue).1 := by
  intro load save waiting same
  cases issue with
  | none => exact nomatch same
  | some issue =>
      have chain : w.chain = .waiting load save := waiting
      have old := (tracks.save save (by rw [chain]; rfl)).1
      have shown : some w.nextRef = some save.issue := same
      rw [← Option.some.inj shown] at old
      exact absurd old (Nat.lt_irrefl _)

/-! ### One move -/

/-- The state after a revalidation of the open issue that has not closed the modal. -/
theorem Tracks.revalidated (tracks : Tracks w (before ++ t :: after))
    (current : t.seq = w.issueLoadSeq) {etag : String} (names : Names (w.objects t.issue) (some etag)) :
    Tracks { w with issueLoad := none, currentEtag := some etag } (before ++ after) where
  current := tracks.current
  etag ref same _ := by
    have shown := ((tracks.revalidations t (mem_pending.mpr (.inl rfl))).current current).2
    cases shown.symm.trans same
    exact names
  load := nofun
  save := tracks.save
  answer := tracks.answer
  puts := tracks.puts
  revalidations u member := by
    have tracked := tracks.rest.revalidations u member
    exact ⟨tracked.seq, tracked.issue, fun same => absurd same (tracks.rest_not_current current member),
      tracked.answered⟩
  apart := tracks.rest.apart

/-- What a revalidation of the open issue finds. -/
inductive Finds (issue : Issue) (fetched : Option (Issue × String)) (isEditing : Bool) :
    Revalidated → Prop
  | notFound (missing : fetched = none) : Finds issue fetched isEditing .notFound
  | unchanged {fresh : Issue} (found : fetched = some (fresh, formatETag fresh.updatedAt))
      (same : fresh.updatedAt = issue.updatedAt) :
      Finds issue fetched isEditing (.unchanged (formatETag fresh.updatedAt))
  | outdated (editing : isEditing = true) : Finds issue fetched isEditing .outdated
  | replaced {fresh : Issue} (found : fetched = some (fresh, formatETag fresh.updatedAt)) :
      Finds issue fetched isEditing (.replaced fresh (formatETag fresh.updatedAt))

theorem revalidation_finds {fetched : Option (Issue × String)}
    (answered : ∀ issue etag, fetched = some (issue, etag) → etag = formatETag issue.updatedAt)
    (issue : Issue) (isEditing : Bool) :
    Finds issue fetched isEditing (revalidation issue fetched isEditing) := by
  unfold revalidation
  cases fetched with
  | none => exact .notFound rfl
  | some fetched =>
      obtain ⟨freshIssue, etag⟩ := fetched
      obtain rfl := answered freshIssue etag rfl
      dsimp only
      split
      · exact .unchanged rfl (Calendar.rfc3339Nano_injective ‹_›)
      · split
        · exact .outdated ‹_›
        · exact .replaced rfl

/-- An answered revalidation. -/
theorem Tracks.revalidateIssue (tracks : Tracks w (before ++ t :: after))
    {fetched : Option (Issue × String)}
    (answered : ∀ issue etag, fetched = some (issue, etag) → etag = formatETag issue.updatedAt)
    (isEditing : Bool) :
    Tracks (w.revalidateIssue t.seq t.issue fetched isEditing) (before ++ after) := by
  unfold World.revalidateIssue
  split
  · exact tracks.rest
  · have current : t.seq = w.issueLoadSeq := Classical.not_not.mp ‹¬ t.seq ≠ w.issueLoadSeq›
    have stale : Names (w.objects t.issue) (some staleETag) := .inl rfl
    have finds := revalidation_finds answered (w.objects t.issue) isEditing
    dsimp only
    generalize revalidation (w.objects t.issue) fetched isEditing = found at finds
    cases finds with
    | notFound _ => exact (tracks.revalidated current stale).closeModal
    | unchanged _ same =>
        refine tracks.revalidated current (.inr ?_)
        rw [same]
    | outdated _ => exact tracks.revalidated current stale
    | @replaced fresh _ => exact (tracks.revalidated current stale).setCurrentIssue rfl fresh

/-- It leaves the running write alone. -/
theorem revalidateIssue_chain (seq : Nat) (issue : Ref) (fetched : Option (Issue × String))
    (isEditing : Bool) : (w.revalidateIssue seq issue fetched isEditing).chain = w.chain := by
  unfold World.revalidateIssue
  split
  · rfl
  · dsimp only
    generalize revalidation (w.objects issue) fetched isEditing = found
    cases found <;> rfl

/-- The issue of the running save is open afterwards only if it was before. -/
theorem revalidateIssue_open {seq : Nat} {issue : Ref} {fetched : Option (Issue × String)}
    {isEditing : Bool} {save : Save} (old : save.issue < w.nextRef)
    (shown : (w.revalidateIssue seq issue fetched isEditing).currentIssue = some save.issue) :
    w.currentIssue = some save.issue ∧
      (w.revalidateIssue seq issue fetched isEditing).issueLoad =
        if seq = w.issueLoadSeq then none else w.issueLoad := by
  revert shown
  unfold World.revalidateIssue
  by_cases current : seq = w.issueLoadSeq
  · rw [if_neg fun late => late current, if_pos current]
    dsimp only
    generalize revalidation (w.objects issue) fetched isEditing = found
    cases found with
    | notFound => exact fun shown => nomatch (shown : none = some save.issue)
    | unchanged etag => exact fun shown => ⟨shown, rfl⟩
    | outdated => exact fun shown => ⟨shown, rfl⟩
    | replaced fresh etag =>
        intro shown
        have same : w.nextRef = save.issue := Option.some.inj shown
        exact absurd old (same ▸ Nat.lt_irrefl _)
  · rw [if_pos current, if_neg current]
    exact fun shown => ⟨shown, rfl⟩

/-- A save that has waited for the revalidation names the version it was built from. -/
theorem Tracks.settle {w' : World} (tracks : Tracks w' pending) {seq : Nat}
    (waits : ∀ load save, w'.chain = .waiting load save → w'.currentIssue = some save.issue →
      w'.issueLoad = if load = seq then none else some load) :
    Tracks (w'.settle seq) pending ∧ Waits (w'.settle seq) := by
  unfold World.settle
  split
  · rename_i load save waiting
    have held := tracks.save save (by rw [waiting]; rfl)
    split
    · rename_i same
      refine ⟨tracks.updateIssue held ?_, Waits.of_not rfl⟩
      unfold World.etagForSave
      split
      · rename_i shown
        have idle := waits load save waiting shown
        rw [if_pos same] at idle
        have names := tracks.etag _ shown idle
        rw [held.2] at names
        exact names
      · exact .inl rfl
    · rename_i other
      refine ⟨tracks, fun load' save' waiting' shown => ?_⟩
      cases waiting.symm.trans waiting'
      exact (waits load save waiting shown).trans (if_neg other)
  · rename_i still
    exact ⟨tracks, fun load save waiting => absurd waiting (still load save)⟩

/-- **A revalidation is over.** -/
theorem Tracks.resume_answered (tracks : Tracks w (before ++ t :: after)) (waits : Waits w)
    {fetched : Option (Issue × String)}
    (answered : ∀ issue etag, fetched = some (issue, etag) → etag = formatETag issue.updatedAt)
    (isEditing : Bool) :
    Tracks ((w.revalidateIssue t.seq t.issue fetched isEditing).settle t.seq) (before ++ after) ∧
      Waits ((w.revalidateIssue t.seq t.issue fetched isEditing).settle t.seq) := by
  refine (tracks.revalidateIssue answered isEditing).settle fun load save waiting shown => ?_
  rw [revalidateIssue_chain] at waiting
  have old := (tracks.save save (by rw [waiting]; rfl)).1
  obtain ⟨shownBefore, load'⟩ := revalidateIssue_open old shown
  have pending := waits load save waiting shownBefore
  rw [load', pending, tracks.load load pending]
  by_cases current : t.seq = w.issueLoadSeq
  · rw [if_pos current, if_pos current.symm]
  · rw [if_neg current, if_neg fun same => current same.symm]

/-- A queued write begins. -/
theorem Tracks.begin (tracks : Tracks w pending) (idle : w.chain = .idle) (write : Write) :
    Tracks (w.begin write) pending ∧ Waits (w.begin write) := by
  have still : Waits w := Waits.of_not (by rw [idle]; rfl)
  cases write with
  | saveIssueChanges issueId changes =>
      simp only [World.begin]
      split
      · exact ⟨tracks, still⟩
      · rename_i ref shown
        split
        · exact ⟨tracks, still⟩
        · split
          · rename_i loaded
            exact ⟨tracks.updateIssue ⟨tracks.current ref shown, rfl⟩ (tracks.etag ref shown loaded),
              Waits.of_not rfl⟩
          · rename_i load loading
            refine ⟨⟨tracks.current, tracks.etag, tracks.load, fun save same => ?_,
              (fun _ _ same => nomatch same), tracks.puts, fun t member => ?_, tracks.apart⟩, ?_⟩
            · cases same
              exact ⟨tracks.current ref shown, rfl⟩
            · have tracked := tracks.revalidations t member
              exact ⟨tracked.seq, tracked.issue, tracked.current, tracked.answered⟩
            · rintro load' save ⟨⟩ _
              exact loading
  | moveIssueToProject projectId =>
      simp only [World.begin]
      split
      · exact ⟨tracks, still⟩
      · exact ⟨tracks.goes _ _ _ (fun _ same => nomatch same) (fun _ _ same => nomatch same),
          Waits.of_not rfl⟩

end Tracks

/-- Nothing is known to the server that the modal does not know. -/
def Chain.quiet : Chain → Bool
  | .idle | .saved _ .failed | .confirm _ | .move _ _ _ | .moved _ none => true
  | _ => false

theorem Chain.quiet_spec {c : Chain} (quiet : c.quiet = true) : c.answer = none ∧ c.waits = false := by
  unfold Chain.quiet at quiet
  split at quiet
  case h_6 => exact nomatch quiet
  all_goals exact ⟨rfl, rfl⟩

/-- The save was answered 409. -/
def Chain.disputed : Chain → Bool
  | .saved _ .conflict | .conflict _ | .reload _ | .reloaded _ => true
  | _ => false

/-- **What the running write can do.** -/
inductive Goes (w : World) : Reply → World → Prop
  | quietly {reply : Reply} {c : Chain} (quiet : c.quiet = true)
      (save : ∀ save, c.save = some save → w.chain.save = some save)
      (known : w.chain.answer = none ∨ reply = .lost) : Goes w reply { w with chain := c }
  | disputed {reply : Reply} {c : Chain} (disputed : w.chain.disputed = true)
      (save : ∀ save, c.save = some save → w.chain.save = some save) (waits : c.waits = false)
      (answer : ∀ issue etag, c.answer = some (issue, etag) → etag = formatETag issue.updatedAt) :
      Goes w reply { w with chain := c }
  | servePut {save : Save} {ifMatch : Option String} {stored : Issue}
      (here : w.chain = .put save ifMatch) : Goes w (.served stored) (w.servePut save ifMatch stored)
  | serveMove {currentProjectId issueId projectId : Int} {stored : Issue}
      (here : w.chain = .move currentProjectId issueId projectId) :
      Goes w (.served stored) (w.serveMove currentProjectId issueId projectId stored)
  | finishSave {save : Save} {issue : Issue} {etag : String}
      (here : w.chain = .saved save (.ok issue etag)) : Goes w .arrives (w.finishSave save issue etag)
  | takeOver {issue : Issue} {etag : String}
      (here : w.chain = .reloaded (some (issue, etag)) ∨
        ∃ projectId, w.chain = .moved projectId (some (issue, etag))) :
      Goes w .arrives (w.takeOver (some (issue, etag)))

section Goes

variable {w w' : World} {reply : Reply} {pending : List Revalidation}

theorem Goes.rests {c : Chain} (quiet : c.quiet = true) (save : c.save = none)
    (known : w.chain.answer = none ∨ reply = .lost) : Goes w reply { w with chain := c } :=
  .quietly quiet (fun _ same => nomatch save.symm.trans same) known

theorem goOn_goes (acts : w.goOn reply = some w') : Goes w reply w' := by
  unfold World.goOn at acts
  split at acts <;> cases acts
  case h_1 here => exact .servePut here
  case h_2 save _ here =>
    have known : w.chain.answer = none := by rw [here]; rfl
    exact .quietly (c := .saved save .failed) rfl (by rw [here]; exact fun _ same => same) (.inl known)
  case h_3 here => exact .finishSave here
  case h_4 save here =>
    exact .disputed (by rw [here]; rfl) (fun _ same => nomatch same) rfl (fun _ _ same => nomatch same)
  case h_5 here => exact .rests rfl rfl (.inl (by rw [here]; rfl))
  case h_6 => exact .rests rfl rfl (.inr rfl)
  case h_7 save here =>
    exact .disputed (by rw [here]; rfl) (fun _ same => nomatch same) rfl (fun _ _ same => nomatch same)
  case h_8 here => exact .rests rfl rfl (.inl (by rw [here]; rfl))
  case h_9 save _ here =>
    refine .disputed (by rw [here]; rfl) (fun _ same => nomatch same) rfl fun issue etag same => ?_
    exact (server_get same).2
  case h_10 here =>
    exact .disputed (by rw [here]; rfl) (fun _ same => nomatch same) rfl (fun _ _ same => nomatch same)
  case h_11 result here =>
    cases result with
    | none => exact .rests rfl rfl (.inl (by rw [here]; rfl))
    | some result => exact .takeOver (.inl here)
  case h_12 => exact .rests rfl rfl (.inr rfl)
  case h_13 here =>
    have known : w.chain.answer = none := by rw [here]; rfl
    split
    · exact .rests (c := w.chain) (by rw [here]; rfl) (by rw [here]; rfl) (.inl known)
    · exact .rests rfl rfl (.inl known)
  case h_14 here => exact .rests rfl rfl (.inl (by rw [here]; rfl))
  case h_15 here => exact .serveMove here
  case h_16 here => exact .rests rfl rfl (.inl (by rw [here]; rfl))
  case h_17 result here => exact .takeOver (.inr ⟨_, here⟩)
  case h_18 here => exact .rests rfl rfl (.inl (by rw [here]; rfl))
  case h_19 => exact .rests rfl rfl (.inr rfl)

/-- The server on a PUT: it fails, is refused with 409, or stores the issue. -/
theorem servePut_cases (w : World) (save : Save) (ifMatch : Option String) (stored : Issue) :
    w.servePut save ifMatch stored = { w with chain := .saved save .failed } ∨
      (∃ current, w.server.issues save.body.id = some current ∧
        ifMatchConflict current (ifMatch.getD "") = true ∧ w.servePut save ifMatch stored =
          { w with chain := .saved save .conflict, conflicts := save :: w.conflicts }) ∨
      w.servePut save ifMatch stored = { w with
        server := w.server.set save.body.id (some stored)
        chain := .saved save (.ok { stored with id := save.body.id } (formatETag stored.updatedAt)) } := by
  unfold World.servePut
  split
  · exact .inl rfl
  · rename_i current etag got
    dsimp only
    split
    · exact .inr (.inr rfl)
    · rename_i refused
      rw [Bool.or_eq_true, not_or, Bool.not_eq_true, Bool.not_eq_true, Bool.not_eq_false'] at refused
      exact .inr (.inl ⟨current, (server_get got).1, refused.2, rfl⟩)

/-- The server on a move: it fails, or stores the issue. -/
theorem serveMove_cases (w : World) (currentProjectId issueId projectId : Int) (stored : Issue) :
    w.serveMove currentProjectId issueId projectId stored = { w with chain := .moved projectId none } ∨
      w.serveMove currentProjectId issueId projectId stored = { w with
        server := w.server.set issueId (some { stored with projectID := projectId })
        chain := .moved projectId (some ({ stored with projectID := projectId, id := issueId },
          formatETag stored.updatedAt)) } := by
  unfold World.serveMove
  split
  · exact .inl rfl
  · exact .inr rfl

/-- The answer to a save finds its issue still open, or nothing that could take its ETag. -/
theorem Tracks.finishSave (tracks : Tracks w pending) {save : Save} {issue : Issue} {etag : String}
    (here : w.chain = .saved save (.ok issue etag))
    (timely : w.currentIssue = some save.issue ∨ w.currentIssue = none ∨ w.issueLoad ≠ none) :
    Tracks (w.finishSave save issue etag) pending where
  current := tracks.current
  etag ref shown idle := by
    have open' : w.currentIssue = some ref := shown
    rcases timely with same | closed | loading
    · cases open'.symm.trans same
      refine .inr ?_
      show some etag = some (formatETag (Function.update w.objects save.issue _ save.issue).updatedAt)
      rw [Function.update_self, tracks.answer issue etag (by rw [here]; rfl)]
      rfl
    · exact nomatch closed.symm.trans open'
    · exact absurd idle loading
  load := tracks.load
  save _ same := nomatch same
  answer _ _ same := nomatch same
  puts := tracks.puts
  revalidations t member := by
    have tracked := tracks.revalidations t member
    exact ⟨tracked.seq, tracked.issue, tracked.current, tracked.answered⟩
  apart := tracks.apart

/-- A reload or a move shows the server's copy, and no revalidation is pending. -/
theorem Tracks.takeOver (tracks : Tracks w pending) {issue : Issue} {etag : String}
    (here : w.chain.answer = some (issue, etag)) (idle : w.issueLoad = none) :
    Tracks (w.takeOver (some (issue, etag))) pending := by
  obtain rfl := tracks.answer issue etag here
  have rests : Tracks { w with chain := .idle } pending :=
    tracks.goes .idle w.server w.conflicts (fun _ same => nomatch same) (fun _ _ same => nomatch same)
  exact rests.setCurrentIssue idle issue

/-- **The running write goes on in time.** -/
theorem Tracks.goOn (tracks : Tracks w pending) (timely : Timely w pending (.call (.goOn reply)))
    (goes : Goes w reply w') : Tracks w' pending ∧ Waits w' := by
  cases goes with
  | quietly quiet save _ =>
      obtain ⟨answer, waits⟩ := Chain.quiet_spec quiet
      exact ⟨tracks.goes _ w.server w.conflicts save (fun _ _ same => nomatch answer.symm.trans same),
        Waits.of_not waits⟩
  | disputed _ save waits answer =>
      exact ⟨tracks.goes _ w.server w.conflicts save answer, Waits.of_not waits⟩
  | @servePut save ifMatch stored here =>
      have held : ∀ result, ∀ other, (Chain.saved save result).save = some other →
          w.chain.save = some other := by
        rw [here]
        exact fun _ _ same => same
      rcases servePut_cases w save ifMatch stored with same | ⟨_, _, _, same⟩ | same
      · rw [same]
        exact ⟨tracks.goes _ w.server w.conflicts (held _) (fun _ _ same => nomatch same), Waits.of_not rfl⟩
      · rw [same]
        exact ⟨tracks.goes _ w.server _ (held _) (fun _ _ same => nomatch same), Waits.of_not rfl⟩
      · rw [same]
        refine ⟨tracks.goes _ _ w.conflicts (held _) fun issue etag answered => ?_, Waits.of_not rfl⟩
        cases answered
        rfl
  | @serveMove currentProjectId issueId projectId stored _ =>
      rcases serveMove_cases w currentProjectId issueId projectId stored with same | same
      · rw [same]
        exact ⟨tracks.goes _ w.server w.conflicts (fun _ same => nomatch same)
          (fun _ _ same => nomatch same), Waits.of_not rfl⟩
      · rw [same]
        refine ⟨tracks.goes _ _ w.conflicts (fun _ same => nomatch same) fun issue etag answered => ?_,
          Waits.of_not rfl⟩
        cases answered
        rfl
  | finishSave here =>
      simp only [Timely, here] at timely
      exact ⟨tracks.finishSave here timely, Waits.of_not rfl⟩
  | takeOver here =>
      rcases here with here | ⟨projectId, here⟩
      · simp only [Timely, here] at timely
        exact ⟨tracks.takeOver (by rw [here]; rfl) timely, Waits.of_not rfl⟩
      · simp only [Timely, here] at timely
        exact ⟨tracks.takeOver (by rw [here]; rfl) timely, Waits.of_not rfl⟩

end Goes

/-! ### Runs -/

/-- The page as it is loaded. -/
def World.load (server : Server) : World := { server }

/-- **A call in time.** -/
theorem Tracks.call {w w' : World} {pending new : List Revalidation} {c : Call} (tracks : Tracks w pending)
    (waits : Waits w) (timely : Timely w pending (.call c)) (acts : w.call c = some (w', new)) :
    Tracks w' (pending ++ new) ∧ Waits w' := by
  cases c with
  | openModal issue =>
      have opened : w.openModal issue = (w', new) := Option.some.inj acts
      have after := tracks.openModal issue
      have still := Waits.openModal tracks issue
      rw [opened] at after still
      exact ⟨after, still⟩
  | closeModal =>
      cases acts
      rw [List.append_nil]
      exact ⟨tracks.closeModal, .openModal tracks none⟩
  | saveIssueChanges changes =>
      cases acts
      rw [List.append_nil]
      exact ⟨tracks.enqueue _, waits⟩
  | changeProject projectId =>
      simp only [World.call] at acts
      split at acts
      · cases acts
        rw [List.append_nil]
        exact ⟨tracks, waits⟩
      · cases acts
        rw [List.append_nil]
        exact ⟨tracks.enqueue _, waits⟩
  | nextWrite =>
      obtain ⟨next, begins, same⟩ := Option.map_eq_some_iff.mp acts
      cases same
      rw [List.append_nil]
      unfold World.nextWrite at begins
      split at begins
      · cases begins
        exact (tracks.enqueue _).begin ‹_› _
      · exact nomatch begins
  | goOn reply =>
      obtain ⟨next, goes, same⟩ := Option.map_eq_some_iff.mp acts
      cases same
      rw [List.append_nil]
      exact tracks.goOn timely (goOn_goes goes)
  | otherClient id issue =>
      cases acts
      rw [List.append_nil]
      exact ⟨tracks.goes w.chain _ w.conflicts (fun _ same => same) tracks.answer, waits⟩

/-- **An answer to a revalidation.** -/
theorem Tracks.resume {w w' : World} {before after new : List Revalidation} {t : Revalidation}
    {reply : Fetched} (tracks : Tracks w (before ++ t :: after)) (waits : Waits w)
    (acts : w.resume t reply = some (w', new)) : Tracks w' (before ++ after ++ new) ∧ Waits w' := by
  have tracked := tracks.revalidations t (mem_pending.mpr (.inl rfl))
  unfold World.resume at acts
  split at acts <;> cases acts
  case h_1 =>
    refine ⟨tracks.fetched fun issue etag same => ?_, waits⟩
    exact (server_get (Stage.answered.inj same)).2
  case h_2 =>
    refine ⟨tracks.fetched fun issue etag same => ?_, waits⟩
    exact nomatch Stage.answered.inj same
  case h_3 result isEditing here =>
    rw [List.append_nil]
    exact tracks.resume_answered waits (tracked.etag (.inr here)) isEditing
  case h_4 =>
    rw [List.append_nil]
    exact tracks.resume_answered waits (tracked.etag (.inl rfl)) false

/-- **Over every run in time the variables fit together.** -/
theorem modal_tracks {server : Server} {past : List (Move Call Revalidation Fetched)} {w : World}
    {pending : List Revalidation} (run : Run modal Timely (.load server) past w pending) :
    Tracks w pending ∧ Waits w := by
  refine run.invariant (fun _ w pending => Tracks w pending ∧ Waits w) ?_
    fun _ w pending _ w' pending' _ timely here holds => ?_
  · refine ⟨⟨fun _ shown => ?_, fun _ shown => ?_, fun _ loading => ?_, fun _ held => ?_,
      fun _ _ answered => ?_, fun _ member => ?_, fun _ member => ?_, List.nodup_nil⟩,
      Waits.of_not rfl⟩
    · exact nomatch (shown : none = some _)
    · exact nomatch (shown : none = some _)
    · exact nomatch (loading : none = some _)
    · exact nomatch (held : none = some _)
    · exact nomatch (answered : none = some _)
    · exact absurd member List.not_mem_nil
    · exact absurd member List.not_mem_nil
  · obtain ⟨tracks, waits⟩ := holds
    cases here with
    | call acts => exact tracks.call waits timely acts
    | resume acts => exact tracks.resume waits acts

/-! ### Nobody else writes -/

/-- The server has no other version of the issue. -/
def InSync (server : Server) (version : Issue) : Prop :=
  ∀ stored, server.issues version.id = some stored → stored.updatedAt = version.updatedAt

theorem InSync.set {server : Server} {version : Issue} {id : Int} {stored : Option Issue}
    (sync : InSync server version) (other : id ≠ version.id) : InSync (server.set id stored) version := by
  intro found same
  refine sync found ?_
  have kept : (server.set id stored).issues version.id = server.issues version.id :=
    if_neg fun here => other here.symm
  exact kept.symm.trans same

theorem InSync.stored (server : Server) (id : Int) (stored : Issue) :
    InSync (server.set id (some stored)) { stored with id } := by
  intro found same
  have here : (server.set id (some stored)).issues id = some { stored with id } := if_pos rfl
  cases here.symm.trans same
  rfl

/-- The issue of the PUT that the server has not served yet. -/
def Chain.sends : Chain → Option Int
  | .put save _ => some save.body.id
  | _ => none

/-- The issue of the move that the server has served. -/
def Chain.moves : Chain → Option Int
  | .moved _ (some (issue, _)) => some issue.id
  | _ => none

/-- A revalidation finds the version that is shown, or neither the user nor a waiting save has to do with
it. -/
def Harmless (waits : Bool) : Revalidated → Prop
  | .unchanged _ => True
  | .outdated => False
  | _ => waits = false

/-- **Nobody disturbs the modal**: no other client writes; no answer of a write that was made is lost; the
modal is opened and closed, also by a failed revalidation, only while no save waits for the revalidation;
the fetch of a revalidation is served only while no PUT of its issue is on the way; and what it finds is
harmless. -/
def Undisturbed (w : World) (_ : List Revalidation) : Move Call Revalidation Fetched → Prop
  | .call (.openModal _) | .call .closeModal => w.chain.waits = false
  | .call (.otherClient _ _) => False
  | .call (.goOn .lost) => w.chain.answer = none
  | .resume ⟨seq, _, .sent _ id⟩ .served => seq = w.issueLoadSeq → w.chain.sends ≠ some id
  | .resume ⟨seq, issue, .answered fetched⟩ (.arrives isEditing) => seq = w.issueLoadSeq →
      Harmless w.chain.waits (revalidation (w.objects issue) fetched isEditing)
  | .resume ⟨seq, _, .answered _⟩ .lost => seq = w.issueLoadSeq → w.chain.waits = false
  | _ => True

/-- What a revalidation of the open issue fetches is what the server has, unless the running write has
moved the issue. -/
def Revalidation.Fetches (w : World) (t : Revalidation) : Prop :=
  match t.stage with
  | .sent _ id => id = (w.objects t.issue).id
  | .answered none => True
  | .answered (some (fresh, _)) => fresh.id = (w.objects t.issue).id ∧ w.chain.sends ≠ some fresh.id ∧
      (w.chain.moves ≠ some fresh.id → InSync w.server fresh)

/-- **The modal knows what the server has**, but for what the running write has just changed. -/
structure Synced (w : World) (pending : List Revalidation) : Prop where
  current : ∀ ref, w.currentIssue = some ref → w.issueLoad = none →
    w.currentEtag = some (formatETag (w.objects ref).updatedAt) ∧
      (w.chain.answer.map (·.1.id) ≠ some (w.objects ref).id → InSync w.server (w.objects ref))
  put : ∀ save ifMatch, w.chain = .put save ifMatch →
    ifMatch = some (formatETag save.base.updatedAt) ∧ InSync w.server save.base
  answer : ∀ issue etag, w.chain.answer = some (issue, etag) → InSync w.server issue
  saved : ∀ save issue etag, w.chain = .saved save (.ok issue etag) → issue.id = save.base.id
  disputed : w.chain.disputed = false
  fetched : ∀ t ∈ pending, t.seq = w.issueLoadSeq → t.Fetches w
  conflicts : w.conflicts = []

/-- A save waits for the revalidation of the issue that is open. -/
def Attends (w : World) : Prop :=
  ∀ load save, w.chain = .waiting load save → w.issueLoad = some load ∧ w.currentIssue = some save.issue

section Synced

variable {w w' : World} {pending before after : List Revalidation} {t : Revalidation} {reply : Reply}

theorem Attends.of_not (still : w.chain.waits = false) : Attends w := by
  intro load save waiting
  rw [waiting] at still
  exact nomatch still

theorem Chain.moves_of_answer {c : Chain} (known : c.answer = none) : c.moves = none := by
  unfold Chain.moves
  split
  · exact nomatch known
  · rfl

theorem Chain.quiet_none {c : Chain} (quiet : c.quiet = true) :
    c.sends = none ∧ c.disputed = false ∧ (∀ save ifMatch, c ≠ .put save ifMatch) := by
  unfold Chain.quiet at quiet
  split at quiet
  case h_6 => exact nomatch quiet
  all_goals exact ⟨rfl, rfl, fun _ _ same => nomatch same⟩

/-- A fetch is still right where its object keeps its id and the server the version. -/
theorem Revalidation.Fetches.mono (fetches : t.Fetches w)
    (object : (w'.objects t.issue).id = (w.objects t.issue).id)
    (kept : ∀ fresh : Issue, w.chain.sends ≠ some fresh.id →
      (w.chain.moves ≠ some fresh.id → InSync w.server fresh) →
      w'.chain.sends ≠ some fresh.id ∧ (w'.chain.moves ≠ some fresh.id → InSync w'.server fresh)) :
    t.Fetches w' := by
  obtain ⟨seq, issue, stage⟩ := t
  unfold Revalidation.Fetches at fetches ⊢
  cases stage with
  | sent projectID id => exact fetches.trans object.symm
  | answered result =>
      cases result with
      | none => trivial
      | some fresh => exact ⟨fetches.1.trans object.symm, kept _ fetches.2.1 fetches.2.2⟩

theorem Synced.enqueue (synced : Synced w pending) (queue : List Write) :
    Synced { w with queue } pending :=
  ⟨synced.current, synced.put, synced.answer, synced.saved, synced.disputed, synced.fetched,
    synced.conflicts⟩

/-- A revalidation comes further. -/
theorem Synced.fetches (synced : Synced w (before ++ t :: after)) {stage : Stage}
    (fetches : t.seq = w.issueLoadSeq → Revalidation.Fetches w { t with stage }) :
    Synced w (before ++ after ++ [{ t with stage }]) := by
  refine ⟨synced.current, synced.put, synced.answer, synced.saved, synced.disputed,
    fun u member current => ?_, synced.conflicts⟩
  rcases List.mem_append.mp member with old | new
  · exact synced.fetched u (mem_pending.mpr (.inr old)) current
  · cases List.mem_singleton.mp new
    exact fetches current

/-- The running write goes on, and the server has nothing new. -/
theorem Synced.rests (synced : Synced w pending) {c : Chain} (quiet : c.quiet = true)
    (known : w.chain.answer = none) : Synced { w with chain := c } pending := by
  obtain ⟨noAnswer, _⟩ := Chain.quiet_spec quiet
  obtain ⟨noSend, undisputed, noPut⟩ := Chain.quiet_none quiet
  refine ⟨fun ref shown idle => ?_, fun save ifMatch same => absurd same (noPut save ifMatch),
    (fun _ _ same => nomatch noAnswer.symm.trans same), fun save issue etag same => ?_, undisputed,
    fun t member current => ?_, synced.conflicts⟩
  · obtain ⟨etag, sync⟩ := synced.current ref shown idle
    rw [known] at sync
    exact ⟨etag, fun _ => sync nofun⟩
  · rw [show c = .saved save (.ok issue etag) from same] at noAnswer
    exact nomatch noAnswer
  · refine (synced.fetched t member current).mono rfl fun fresh _ sync => ?_
    rw [Chain.moves_of_answer known] at sync
    exact ⟨by rw [noSend]; nofun, fun _ => sync nofun⟩

/-- A save is sent. -/
theorem Synced.updateIssue (synced : Synced w pending) (tracks : Tracks w pending)
    (idle : w.issueLoad = none) {save : Save} {etag : Option String}
    (known : w.chain.answer = none) (exact' : etag = some (formatETag save.base.updatedAt))
    (sync : InSync w.server save.base) : Synced (w.updateIssue save etag) pending := by
  refine ⟨fun ref shown idle => ?_, fun save' ifMatch same => ?_,
    (fun _ _ same => nomatch same), (fun _ _ _ same => nomatch same), rfl, fun t member current => ?_,
    synced.conflicts⟩
  · obtain ⟨etag, sync⟩ := synced.current ref shown idle
    rw [known] at sync
    exact ⟨etag, fun _ => sync nofun⟩
  · cases same
    exact ⟨(Names.ifMatch (.inr exact')).trans exact', sync⟩
  · exact absurd current (tracks.not_current idle member)

/-- A queued write begins. -/
theorem Synced.begin (synced : Synced w pending) (tracks : Tracks w pending) (idle : w.chain = .idle)
    (write : Write) : Synced (w.begin write) pending ∧ Attends (w.begin write) := by
  have known : w.chain.answer = none := by rw [idle]; rfl
  have still : Attends w := Attends.of_not (by rw [idle]; rfl)
  cases write with
  | saveIssueChanges issueId changes =>
      simp only [World.begin]
      split
      · exact ⟨synced, still⟩
      · rename_i ref shown
        split
        · exact ⟨synced, still⟩
        · split
          · rename_i loaded
            obtain ⟨etag, sync⟩ := synced.current ref shown loaded
            rw [known] at sync
            exact ⟨synced.updateIssue tracks loaded known etag (sync nofun), Attends.of_not rfl⟩
          · rename_i load loading
            refine ⟨⟨(fun _ _ idle => nomatch loading.symm.trans idle), (fun _ _ same => nomatch same),
              (fun _ _ same => nomatch same), (fun _ _ _ same => nomatch same), rfl,
              fun t member current => ?_, synced.conflicts⟩, ?_⟩
            · refine (synced.fetched t member current).mono rfl fun fresh _ sync => ?_
              rw [Chain.moves_of_answer known] at sync
              exact ⟨nofun, fun _ => sync nofun⟩
            · rintro load' save ⟨⟩
              exact ⟨loading, shown⟩
  | moveIssueToProject projectId =>
      simp only [World.begin]
      split
      · exact ⟨synced, still⟩
      · exact ⟨synced.rests rfl known, Attends.of_not rfl⟩

/-- A write that the server has made: the version it leaves is known from its answer. -/
theorem Synced.served (synced : Synced w pending) {id : Int} {stored : Issue} {etag : String} {c : Chain}
    (known : w.chain.answer = none) (answer : c.answer = some ({ stored with id }, etag))
    (saved : ∀ save issue etag, c = .saved save (.ok issue etag) → issue.id = save.base.id)
    (undisputed : c.disputed = false) (noSend : c.sends = none)
    (fresh : ∀ fresh : Issue, w.chain.sends ≠ some fresh.id → c.moves ≠ some fresh.id → id ≠ fresh.id) :
    Synced { w with server := w.server.set id (some stored), chain := c } pending := by
  refine ⟨fun ref shown idle => ?_, fun save ifMatch same => ?_, fun issue etag same => ?_, saved,
    undisputed, fun t member current => ?_, synced.conflicts⟩
  · obtain ⟨etag, sync⟩ := synced.current ref shown idle
    rw [known] at sync
    refine ⟨etag, fun other => (sync nofun).set fun same => other ?_⟩
    show c.answer.map (·.1.id) = _
    rw [answer]
    exact congrArg some same
  · rw [show c = .put save ifMatch from same] at answer
    exact nomatch answer
  · cases answer.symm.trans same
    exact .stored w.server id stored
  · refine (synced.fetched t member current).mono rfl fun issue noPut sync => ?_
    rw [Chain.moves_of_answer known] at sync
    exact ⟨by rw [noSend]; nofun, fun other => (sync nofun).set (fresh issue noPut other)⟩

/-- A PUT in sync is not refused with 409. -/
theorem Synced.servePut (synced : Synced w pending) {save : Save} {ifMatch : Option String}
    (here : w.chain = .put save ifMatch) (stored : Issue) :
    Synced (w.servePut save ifMatch stored) pending := by
  have known : w.chain.answer = none := by rw [here]; rfl
  have id : save.body.id = save.base.id := save.changes.id save.base
  rcases servePut_cases w save ifMatch stored with same | ⟨current, found, refused, _⟩ | same
  · rw [same]
    exact synced.rests rfl known
  · obtain ⟨etag, sync⟩ := synced.put save ifMatch here
    rw [id] at found
    rw [etag, Option.getD_some, ifMatchConflict, sync current found, bne_self_eq_false] at refused
    exact absurd refused Bool.false_ne_true
  · rw [same]
    refine synced.served known rfl ?_ rfl rfl fun fresh noPut _ => ?_
    · rintro _ _ _ ⟨⟩
      exact id
    · rw [here] at noPut
      exact fun same => noPut (congrArg some same)

theorem Synced.serveMove (synced : Synced w pending) {currentProjectId issueId projectId : Int}
    (here : w.chain = .move currentProjectId issueId projectId) (stored : Issue) :
    Synced (w.serveMove currentProjectId issueId projectId stored) pending := by
  have known : w.chain.answer = none := by rw [here]; rfl
  rcases serveMove_cases w currentProjectId issueId projectId stored with same | same
  · rw [same]
    exact synced.rests rfl known
  · rw [same]
    exact synced.served known rfl
      (fun _ _ _ same => nomatch same) rfl rfl fun fresh _ other same => other (congrArg some same)

/-- The answer to a save that finds its issue still open. -/
theorem Synced.finishSave (synced : Synced w pending) (tracks : Tracks w pending) {save : Save}
    {issue : Issue} {etag : String} (here : w.chain = .saved save (.ok issue etag))
    (timely : w.currentIssue = some save.issue ∨ w.currentIssue = none ∨ w.issueLoad ≠ none) :
    Synced (w.finishSave save issue etag) pending := by
  have answer : w.chain.answer = some (issue, etag) := by rw [here]; rfl
  have base : w.objects save.issue = save.base := (tracks.save save (by rw [here]; rfl)).2
  refine ⟨fun ref shown idle => ?_, (fun _ _ same => nomatch same), (fun _ _ same => nomatch same),
    (fun _ _ _ same => nomatch same), rfl, fun t member current => ?_, synced.conflicts⟩
  · rcases timely with same | closed | loading
    · cases same.symm.trans shown
      have object : (w.finishSave save issue etag).objects save.issue =
          assign (w.objects save.issue) save.changes issue := Function.update_self _ _ _
      rw [object]
      exact ⟨congrArg some (tracks.answer issue etag answer), fun _ => synced.answer issue etag answer⟩
    · exact nomatch closed.symm.trans shown
    · exact absurd idle loading
  · refine (synced.fetched t member current).mono ?_ fun fresh _ sync => ?_
    · by_cases same : t.issue = save.issue
      · rw [same, base, ← synced.saved save issue etag here]
        have object : (w.finishSave save issue etag).objects save.issue =
            assign (w.objects save.issue) save.changes issue := Function.update_self _ _ _
        rw [object]
        rfl
      · exact congrArg Issue.id (Function.update_of_ne same _ _)
    · rw [here] at sync
      exact ⟨nofun, fun _ => sync nofun⟩

/-- The server's copy is shown, by a revalidation or at the end of a write. -/
theorem Synced.setCurrentIssue (synced : Synced w pending)
    (others : ∀ t ∈ before ++ after, t.seq ≠ w.issueLoadSeq) {issue : Issue} {c : Chain}
    (kept : c = w.chain ∨ c = .idle) (load : Option Nat)
    (sync : c.answer.map (·.1.id) ≠ some issue.id → InSync w.server issue) :
    Synced ({ w with
      issueLoad := load, currentEtag := some (formatETag issue.updatedAt), chain := c }.setCurrentIssue
        issue) (before ++ after) := by
  have current : ∀ ref, some w.nextRef = some ref →
      some (formatETag issue.updatedAt) =
          some (formatETag (Function.update w.objects w.nextRef issue ref).updatedAt) ∧
        (c.answer.map (·.1.id) ≠ some (Function.update w.objects w.nextRef issue ref).id →
          InSync w.server (Function.update w.objects w.nextRef issue ref)) := by
    rintro ref ⟨⟩
    rw [Function.update_self]
    exact ⟨rfl, sync⟩
  rcases kept with rfl | rfl
  · exact ⟨fun ref shown _ => current ref shown, synced.put, synced.answer, synced.saved, synced.disputed,
      fun t member same => absurd same (others t member), synced.conflicts⟩
  · exact ⟨fun ref shown _ => current ref shown, (fun _ _ same => nomatch same),
      (fun _ _ same => nomatch same), (fun _ _ _ same => nomatch same), rfl,
      fun t member same => absurd same (others t member), synced.conflicts⟩

/-- **The running write goes on**, in time and undisturbed. -/
theorem Synced.goOn (synced : Synced w pending) (tracks : Tracks w pending)
    (timely : Timely w pending (.call (.goOn reply)))
    (undisturbed : Undisturbed w pending (.call (.goOn reply))) (goes : Goes w reply w') :
    Synced w' pending ∧ Attends w' := by
  cases goes with
  | quietly quiet _ known =>
      refine ⟨synced.rests quiet ?_, Attends.of_not (Chain.quiet_spec quiet).2⟩
      rcases known with known | rfl
      · exact known
      · exact undisturbed
  | disputed disputed => exact absurd (synced.disputed.symm.trans disputed) Bool.false_ne_true
  | @servePut save ifMatch stored here =>
      refine ⟨synced.servePut here stored, Attends.of_not ?_⟩
      rcases servePut_cases w save ifMatch stored with same | ⟨_, _, _, same⟩ | same
      all_goals rw [same]; rfl
  | @serveMove currentProjectId issueId projectId stored here =>
      refine ⟨synced.serveMove here stored, Attends.of_not ?_⟩
      rcases serveMove_cases w currentProjectId issueId projectId stored with same | same
      all_goals rw [same]; rfl
  | finishSave here =>
      simp only [Timely, here] at timely
      exact ⟨synced.finishSave tracks here timely, Attends.of_not rfl⟩
  | @takeOver issue etag here =>
      rcases here with here | ⟨projectId, here⟩
      · have undisputed := synced.disputed
        rw [here] at undisputed
        exact nomatch undisputed
      · simp only [Timely, here] at timely
        have answer : w.chain.answer = some (issue, etag) := by rw [here]; rfl
        obtain rfl := tracks.answer issue etag answer
        have others : ∀ t ∈ pending ++ [], t.seq ≠ w.issueLoadSeq := by
          rw [List.append_nil]
          exact fun t member => tracks.not_current timely member
        have shown := synced.setCurrentIssue others (.inr rfl) w.issueLoad
          fun _ => synced.answer _ _ answer
        rw [List.append_nil] at shown
        exact ⟨shown, Attends.of_not rfl⟩

/-- An issue is opened while no save waits. -/
theorem Synced.openModal (synced : Synced w pending) (tracks : Tracks w pending) (issue : Option Issue) :
    Synced (w.openModal issue).1 (pending ++ (w.openModal issue).2) := by
  have older : ∀ t ∈ pending, t.seq ≠ w.issueLoadSeq + 1 :=
    fun t member => Nat.ne_of_lt (Nat.lt_succ_of_le (tracks.revalidations t member).seq)
  cases issue with
  | none =>
      show Synced _ (pending ++ [])
      rw [List.append_nil]
      exact ⟨(fun _ shown => nomatch (shown : none = some _)), synced.put, synced.answer, synced.saved,
        synced.disputed, fun t member same => absurd same (older t member), synced.conflicts⟩
  | some issue =>
      refine ⟨(fun _ _ idle => nomatch (idle : some _ = none)), synced.put, synced.answer, synced.saved,
        synced.disputed, fun t member same => ?_, synced.conflicts⟩
      rcases List.mem_append.mp member with old | new
      · exact absurd same (older t old)
      · cases List.mem_singleton.mp new
        show issue.id = (Function.update w.objects w.nextRef issue w.nextRef).id
        rw [Function.update_self]

theorem Synced.closeModal (synced : Synced w pending) (tracks : Tracks w pending) :
    Synced w.closeModal pending := by
  have opened := synced.openModal tracks none
  rw [show (w.openModal none).2 = [] from rfl, List.append_nil] at opened
  exact opened

theorem openModal_chain (w : World) (issue : Option Issue) : (w.openModal issue).1.chain = w.chain := by
  cases issue <;> rfl

/-- One revalidation less. -/
theorem Synced.rest (synced : Synced w (before ++ t :: after)) : Synced w (before ++ after) :=
  ⟨synced.current, synced.put, synced.answer, synced.saved, synced.disputed,
    fun u member => synced.fetched u (mem_pending.mpr (.inr member)), synced.conflicts⟩

theorem Chain.answer_of_moves {c : Chain} {id : Int} (moves : c.moves = some id) :
    c.answer.map (·.1.id) = some id := by
  unfold Chain.moves at moves
  split at moves
  · exact moves
  · exact nomatch moves

/-- A revalidation of the open issue while no save waits, or one that finds the version that is shown. -/
theorem Synced.revalidateIssue (synced : Synced w (before ++ t :: after))
    (tracks : Tracks w (before ++ t :: after)) (current : t.seq = w.issueLoadSeq)
    {fetched : Option (Issue × String)} (here : fetched = none ∨ t.stage = .answered fetched)
    {isEditing : Bool} (found : revalidation (w.objects t.issue) fetched isEditing ≠ .outdated) :
    Synced (w.revalidateIssue t.seq t.issue fetched isEditing) (before ++ after) := by
  have member : t ∈ before ++ t :: after := mem_pending.mpr (.inl rfl)
  have tracked := tracks.revalidations t member
  have others : ∀ u ∈ before ++ after, u.seq ≠ w.issueLoadSeq :=
    fun u member => tracks.rest_not_current current member
  have answered := tracked.etag here
  have fresh : ∀ fresh etag, fetched = some (fresh, etag) → fresh.id = (w.objects t.issue).id ∧
      (w.chain.answer.map (·.1.id) ≠ some fresh.id → InSync w.server fresh) := by
    rintro fresh etag rfl
    have stage := here.resolve_left nofun
    have fetches := synced.fetched t member current
    unfold Revalidation.Fetches at fetches
    rw [stage] at fetches
    exact ⟨fetches.1, fun other => fetches.2.2 fun moves => other (Chain.answer_of_moves moves)⟩
  unfold World.revalidateIssue
  rw [if_neg fun late => late current]
  have finds := revalidation_finds answered (w.objects t.issue) isEditing
  dsimp only
  generalize revalidation (w.objects t.issue) fetched isEditing = result at finds found
  cases finds with
  | notFound _ => exact synced.rest.closeModal tracks.rest
  | @unchanged issue got same =>
      obtain ⟨id, sync⟩ := fresh _ _ got
      refine ⟨fun ref shown _ => ?_, synced.put, synced.answer, synced.saved, synced.disputed,
        fun u member same => absurd same (others u member), synced.conflicts⟩
      cases (tracked.current current).2.symm.trans shown
      refine ⟨by rw [same], fun other => ?_⟩
      have version := sync (by rw [id]; exact other)
      intro stored found
      rw [← id] at found
      exact (version stored found).trans same
  | outdated _ => exact absurd rfl found
  | @replaced issue got => exact synced.setCurrentIssue others (.inl rfl) none (fresh _ _ got).2

/-- The save that has waited for the revalidation is in sync. -/
theorem Synced.settle (synced : Synced w pending) (tracks : Tracks w pending) {seq : Nat}
    (shown : ∀ load save, w.chain = .waiting load save →
      load = seq ∧ w.issueLoad = none ∧ w.currentIssue = some save.issue) :
    Synced (w.settle seq) pending ∧ Attends (w.settle seq) := by
  unfold World.settle
  split
  · rename_i load save waiting
    obtain ⟨same, idle, current⟩ := shown load save waiting
    have known : w.chain.answer = none := by rw [waiting]; rfl
    have base := (tracks.save save (by rw [waiting]; rfl)).2
    obtain ⟨etag, sync⟩ := synced.current _ current idle
    rw [known, base] at sync
    rw [base] at etag
    rw [if_pos same]
    have own : w.etagForSave save = w.currentEtag := if_pos current
    rw [own]
    exact ⟨synced.updateIssue tracks idle known etag (sync nofun), Attends.of_not rfl⟩
  · rename_i still
    exact ⟨synced, fun load save waiting => absurd waiting (still load save)⟩

/-- **A revalidation is over**, undisturbed. -/
theorem Synced.resume_answered (synced : Synced w (before ++ t :: after))
    (tracks : Tracks w (before ++ t :: after)) (attends : Attends w)
    {fetched : Option (Issue × String)} (here : fetched = none ∨ t.stage = .answered fetched)
    {isEditing : Bool} (undisturbed : t.seq = w.issueLoadSeq →
      Harmless w.chain.waits (revalidation (w.objects t.issue) fetched isEditing)) :
    Synced ((w.revalidateIssue t.seq t.issue fetched isEditing).settle t.seq) (before ++ after) ∧
      Attends ((w.revalidateIssue t.seq t.issue fetched isEditing).settle t.seq) := by
  have tracked := tracks.revalidations t (mem_pending.mpr (.inl rfl))
  by_cases current : t.seq = w.issueLoadSeq
  · have ok := undisturbed current
    have found : revalidation (w.objects t.issue) fetched isEditing ≠ .outdated := by
      intro outdated
      rw [outdated] at ok
      exact ok
    refine (synced.revalidateIssue tracks current here found).settle
      (tracks.revalidateIssue (tracked.etag here) isEditing) fun load save waiting => ?_
    rw [revalidateIssue_chain] at waiting
    obtain ⟨loading, shown⟩ := attends load save waiting
    refine ⟨Option.some.inj (loading.symm.trans (tracked.current current).1), ?_⟩
    -- a save is waiting, so the version that is shown was found
    rw [waiting] at ok
    unfold World.revalidateIssue
    rw [if_neg fun late => late current]
    dsimp only
    generalize revalidation (w.objects t.issue) fetched isEditing = result at ok
    cases result with
    | unchanged etag => exact ⟨rfl, shown⟩
    | outdated => exact ok.elim
    | notFound => exact absurd ok nofun
    | replaced freshIssue etag => exact absurd ok nofun
  · have late : w.revalidateIssue t.seq t.issue fetched isEditing = w := if_pos current
    rw [late]
    have still : w.settle t.seq = w := by
      unfold World.settle
      split
      · rename_i load save waiting
        refine if_neg fun same => current ?_
        rw [← same]
        exact tracks.load load (attends load save waiting).1
      · rfl
    rw [still]
    exact ⟨synced.rest, attends⟩

/-- **A call in time**, undisturbed. -/
theorem Synced.call {new : List Revalidation} {c : Call} (synced : Synced w pending)
    (tracks : Tracks w pending) (attends : Attends w) (timely : Timely w pending (.call c))
    (undisturbed : Undisturbed w pending (.call c)) (acts : w.call c = some (w', new)) :
    Synced w' (pending ++ new) ∧ Attends w' := by
  cases c with
  | openModal issue =>
      have opened : w.openModal issue = (w', new) := Option.some.inj acts
      have after := synced.openModal tracks issue
      have chain := openModal_chain w issue
      rw [opened] at after chain
      exact ⟨after, Attends.of_not (by rw [chain]; exact undisturbed)⟩
  | closeModal =>
      cases acts
      rw [List.append_nil]
      exact ⟨synced.closeModal tracks, Attends.of_not undisturbed⟩
  | saveIssueChanges changes =>
      cases acts
      rw [List.append_nil]
      exact ⟨synced.enqueue _, attends⟩
  | changeProject projectId =>
      simp only [World.call] at acts
      split at acts
      · cases acts
        rw [List.append_nil]
        exact ⟨synced, attends⟩
      · cases acts
        rw [List.append_nil]
        exact ⟨synced.enqueue _, attends⟩
  | nextWrite =>
      obtain ⟨next, begins, same⟩ := Option.map_eq_some_iff.mp acts
      cases same
      rw [List.append_nil]
      unfold World.nextWrite at begins
      split at begins
      · cases begins
        exact (synced.enqueue _).begin (tracks.enqueue _) ‹_› _
      · exact nomatch begins
  | goOn reply =>
      obtain ⟨next, goes, same⟩ := Option.map_eq_some_iff.mp acts
      cases same
      rw [List.append_nil]
      exact synced.goOn tracks timely undisturbed (goOn_goes goes)
  | otherClient id issue => exact undisturbed.elim

/-- **An answer to a revalidation**, undisturbed. -/
theorem Synced.resume {new : List Revalidation} {reply : Fetched}
    (synced : Synced w (before ++ t :: after)) (tracks : Tracks w (before ++ t :: after))
    (attends : Attends w) (undisturbed : Undisturbed w (before ++ t :: after) (.resume t reply))
    (acts : w.resume t reply = some (w', new)) : Synced w' (before ++ after ++ new) ∧ Attends w' := by
  obtain ⟨seq, issue, stage⟩ := t
  have member : (⟨seq, issue, stage⟩ : Revalidation) ∈ before ++ ⟨seq, issue, stage⟩ :: after :=
    mem_pending.mpr (.inl rfl)
  cases stage with
  | sent projectID id =>
      cases reply with
      | served =>
          cases acts
          refine ⟨synced.fetches fun current => ?_, attends⟩
          have own : id = (w.objects issue).id := synced.fetched _ member current
          unfold Revalidation.Fetches
          cases got : w.server.get projectID id with
          | none => trivial
          | some answer =>
              obtain ⟨fresh, etag⟩ := answer
              have found := (server_get got).1
              have same : fresh.id = id := w.server.ids id fresh found
              refine ⟨same.trans own, ?_, fun _ stored here => ?_⟩
              · rw [same]
                exact undisturbed current
              · rw [same] at here
                cases found.symm.trans here
                rfl
      | refused =>
          cases acts
          exact ⟨synced.fetches fun _ => trivial, attends⟩
      | arrives isEditing => exact nomatch acts
      | lost => exact nomatch acts
  | answered fetched =>
      cases reply with
      | arrives isEditing =>
          cases acts
          rw [List.append_nil]
          exact synced.resume_answered tracks attends (.inr rfl) undisturbed
      | lost =>
          cases acts
          rw [List.append_nil]
          exact synced.resume_answered tracks attends (.inl rfl) undisturbed
      | served => exact nomatch acts
      | refused => exact nomatch acts

end Synced

/-- **Over every run in time and undisturbed the modal knows what the server has.** -/
theorem modal_synced {server : Server} {past : List (Move Call Revalidation Fetched)} {w : World}
    {pending : List Revalidation} (run : Run modal
      (fun w pending move => Timely w pending move ∧ Undisturbed w pending move) (.load server) past w
      pending) : Synced w pending := by
  refine (run.invariant (fun _ w pending => Synced w pending ∧ Attends w) ?_
    fun past w pending _ w' pending' earlier ok here holds => ?_).1
  · refine ⟨⟨fun _ shown => ?_, (fun _ _ same => nomatch same), (fun _ _ same => nomatch same),
      (fun _ _ _ same => nomatch same), rfl, fun _ member => ?_, rfl⟩, Attends.of_not rfl⟩
    · exact nomatch (shown : none = some _)
    · exact absurd member List.not_mem_nil
  · obtain ⟨synced, attends⟩ := holds
    obtain ⟨timely, undisturbed⟩ := ok
    have tracks := (modal_tracks (earlier.mono fun _ _ _ ok => ok.1)).1
    cases here with
    | call acts => exact synced.call tracks attends timely undisturbed acts
    | resume acts => exact synced.resume tracks attends undisturbed acts

/-- **Each save names the version it was built from**, where no answer arrives after the modal has moved
on; and where nobody disturbs it, no save is answered 409. -/
theorem modal_etags (server : Server) :
    (∀ past w pending, Run modal Timely (.load server) past w pending →
      ∀ put ∈ w.puts, Names put.save.base put.ifMatch) ∧
    ∀ past w pending, Run modal
      (fun w pending move => Timely w pending move ∧ Undisturbed w pending move) (.load server) past w
      pending → w.conflicts = [] :=
  ⟨fun _ _ _ run => (modal_tracks run).1.puts, fun _ _ _ run => (modal_synced run).conflicts⟩

/-! ### Schedules -/

instance (w : World) (pending : List Revalidation) (move : Move Call Revalidation Fetched) :
    Decidable (Timely w pending move) := by
  unfold Timely
  split
  · split <;> infer_instance
  · infer_instance

instance (waits : Bool) (found : Revalidated) : Decidable (Harmless waits found) := by
  unfold Harmless
  split <;> infer_instance

instance (w : World) (pending : List Revalidation) (move : Move Call Revalidation Fetched) :
    Decidable (Undisturbed w pending move) := by
  unfold Undisturbed
  split <;> infer_instance

def outage : Issue :=
  { id := 2, title := "Outage", status := .todo, position := 2, priority := .high, creatorID := 1,
    updaterID := some 1, projectID := 1, updatedAt := 5 }

def emptyServer : Server := ⟨fun _ => none, fun _ _ found => nomatch found⟩

def sampleServer : Server := (emptyServer.set crash.id (some crash)).set outage.id (some outage)

def solve : Changes := ⟨fun issue => { issue with status := .done }, fun _ => rfl⟩

/-- Two saves of an issue, and the issue is closed. -/
def savedTwice : EventLoop.Config World Call Revalidation Fetched :=
  modal.play (fun w pending move => decide (Timely w pending move ∧ Undisturbed w pending move))
    (.load sampleServer)
    [.call (.openModal (some crash)), .resume 0 .served, .call (.saveIssueChanges solve), .call .nextWrite,
      .resume 0 (.arrives false), .call (.saveIssueChanges solve),
      .call (.goOn (.served { solve.apply crash with updatedAt := 3 })), .call (.goOn .arrives),
      .call .nextWrite, .call (.goOn (.served { solve.apply crash with updatedAt := 4 })),
      .call .closeModal, .call (.goOn .arrives)]

theorem savedTwice_etags :
    savedTwice.state.puts.length = 2 ∧ (∀ put ∈ savedTwice.state.puts, Names put.save.base put.ifMatch) ∧
      savedTwice.state.conflicts = [] := by
  have run : Run modal (fun w pending move => Timely w pending move ∧ Undisturbed w pending move)
      (.load sampleServer) savedTwice.past savedTwice.state savedTwice.pending :=
    Run.mono (Run.of_choices _ _) fun _ _ _ ok => of_decide_eq_true ok
  obtain ⟨names, accepted⟩ := modal_etags sampleServer
  exact ⟨by decide +kernel, names _ _ _ (run.mono fun _ _ _ ok => ok.1), accepted _ _ _ run⟩

/-- The answer to a save of the first issue arrives while the second one is open. -/
def savedLate : EventLoop.Config World Call Revalidation Fetched :=
  modal.play (fun w pending move => decide (Undisturbed w pending move)) (.load sampleServer)
    [.call (.openModal (some crash)), .resume 0 .served, .resume 0 (.arrives false),
      .call (.saveIssueChanges solve), .call .nextWrite, .call .closeModal,
      .call (.openModal (some outage)), .resume 0 .served, .resume 0 (.arrives false),
      .call (.goOn (.served { solve.apply crash with updatedAt := 3 })), .call (.goOn .arrives),
      .call (.saveIssueChanges solve), .call .nextWrite, .call (.goOn (.served outage))]

/-- **A save carries the ETag of another issue**, and the server refuses it although nobody else has
written. -/
theorem foreign_etag :
    (¬ ∀ server past w pending, Run modal (fun _ _ _ => True) (.load server) past w pending →
      ∀ put ∈ w.puts, Names put.save.base put.ifMatch) ∧
    ¬ ∀ server past w pending, Run modal Undisturbed (.load server) past w pending →
      w.conflicts = [] := by
  have run : Run modal Undisturbed (.load sampleServer) savedLate.past savedLate.state
      savedLate.pending := Run.mono (Run.of_choices _ _) fun _ _ _ ok => of_decide_eq_true ok
  have sent : savedLate.state.puts.head?.map (fun put => (put.save.base, put.ifMatch)) =
      some (outage, some (formatETag 3)) := by decide +kernel
  refine ⟨fun claim => ?_, fun claim => ?_⟩
  · obtain ⟨put, head, same⟩ := Option.map_eq_some_iff.mp sent
    obtain ⟨base, ifMatch⟩ := Prod.mk.inj same
    have names := claim _ _ _ _ (run.mono fun _ _ _ _ => trivial) put (List.mem_of_head? head)
    rw [base, ifMatch] at names
    rcases names with stale | own
    · exact absurd stale (by decide +kernel)
    · exact absurd (formatETag_injective (Option.some.inj own)) (by decide)
  · have refused := congrArg List.length (claim _ _ _ _ run)
    exact absurd refused (by decide +kernel)

end Wuflow.IssueModal

/-
**Rules for programs that write only what is sanctioned.**

`Sanctioning host req past post p` — along every path of `p` each write is `Sanctioned` at its history.
There is one rule for each kind of step of a handler; those for the parts that only read
(`Sanctioning.after`) carry along that nothing has been written.
-/

import Wuflow.Requests.Sanctioned

namespace Wuflow

open Calendar (Instant)
open Interleave (Prog Entry Run)
open Interleave.Stopping (Asks Obeys)

/-! ### Programs that only read -/

theorem Query.Reading.allowed {host : Host} {req : Request} {past : Past} {query : Query}
    (reading : query.Reading) : query.Allowed host req past := by
  cases query with
  | write w => exact reading.elim
  | _ => exact trivial

/-- The query reads, or records something in the history of an issue. -/
def Query.RecordsFor (id : Int) : Query → Prop
  | .write (.insertHistory row) => row.issueID = id
  | .write _ => False
  | _ => True

theorem recordHistory_records (issueID userID : Int) (event : HistoryEvent) (data : ChangeData) :
    (recordHistory issueID userID event data).Asks (Query.RecordsFor issueID) := by
  have entry : Asks (Query.RecordsFor issueID)
      (createHistoryEntry { issueID, userID := if 0 < userID then some userID else none, event, data }) :=
    Asks.bind (Asks.lift (ask_asks trivial)) fun _ =>
      Asks.bind (exec_asks (by exact rfl)) fun _ => Asks.pure _
  exact Prog.Asks.bind entry fun _ => trivial

/-! ### Rules -/

/-- The program writes only what is sanctioned. -/
abbrev Sanctioning {ε α : Type} (host : Host) (req : Request) (past : Past)
    (post : Past → α → Prop) (p : ExceptT ε Backend α) : Prop :=
  Obeys (Query.Allowed host req) post (fun _ _ => True) past p

namespace Sanctioning

variable {host : Host} {req : Request} {past : Past} {ε α β : Type}

theorem bind {mid : Past → α → Prop} {post : Past → β → Prop} {p : ExceptT ε Backend α}
    (first : Sanctioning host req past mid p) {f : α → ExceptT ε Backend β}
    (rest : ∀ later value, mid later value → Sanctioning host req later post (f value)) :
    Sanctioning host req past post (p >>= f) := Obeys.bind first rest

theorem weaken {post post' : Past → α → Prop} {p : ExceptT ε Backend α}
    (obeys : Sanctioning host req past post p)
    (posts : ∀ later value, post later value → post' later value) :
    Sanctioning host req past post' p := Obeys.mono obeys posts fun _ _ _ => trivial

/-- A part that only reads keeps the history unwritten. -/
theorem reading {p : ExceptT ε Backend α} (reads : Asks Query.Reading p)
    (unwritten : Unwritten past) :
    Sanctioning host req past (fun later _ => past <:+ later ∧ Unwritten later) p := by
  refine Prog.Obeys.mono (fun _ _ here => here.allowed) (fun later result holds => ?_)
    (Prog.Obeys.entries_of_asks reads past)
  obtain ⟨new, rfl, all⟩ := holds
  have both : past <:+ new ++ past ∧ Unwritten (new ++ past) := by
    refine ⟨List.suffix_append new past, fun entry member w => ?_⟩
    rcases List.mem_append.mp member with member | member
    · exact (all entry member).ne_write w
    · exact unwritten entry member w
  cases result with
  | ok value => exact both
  | error err => exact trivial

/-- A first part that only reads. -/
theorem after {p : ExceptT ε Backend α} (reads : Asks Query.Reading p) (unwritten : Unwritten past)
    {post : Past → β → Prop} {f : α → ExceptT ε Backend β}
    (rest : ∀ later value, past <:+ later → Unwritten later →
      Sanctioning host req later post (f value)) :
    Sanctioning host req past post (p >>= f) :=
  bind (reading reads unwritten) fun later value holds => rest later value holds.1 holds.2

/-- A part whose queries are allowed from here on. -/
theorem of_asks {allowed : Query → Prop} {p : ExceptT ε Backend α} (asks : Asks allowed p)
    (free : ∀ later query, past <:+ later → allowed query → query.Allowed host req later) :
    Sanctioning host req past (fun later _ => past <:+ later) p := by
  refine Prog.Obeys.mono (fun _ _ here => here) (fun later result holds => ?_)
    (Prog.Obeys.of_asks_from asks free)
  cases result with
  | ok value => exact holds
  | error err => exact trivial

/-- A part that only reads. -/
theorem looking {p : ExceptT ε Backend α} (reads : Asks Query.Reading p) :
    Sanctioning host req past (fun later _ => past <:+ later) p :=
  of_asks reads fun _ _ _ here => here.allowed

/-- An end that only reads. -/
theorem ending {p : ExceptT ε Backend α} (reads : Asks Query.Reading p) :
    Sanctioning host req past (fun _ _ => True) p := weaken (looking reads) fun _ _ _ => trivial

/-- An end that may also record the history of an issue. -/
theorem recording (id : Int) {p : ExceptT ε Backend α} (asks : Asks (Query.RecordsFor id) p)
    (sanctioned : ∀ later row, past <:+ later → row.issueID = id →
      Sanctioned host req later (.insertHistory row)) :
    Sanctioning host req past (fun _ _ => True) p := by
  refine weaken (of_asks asks fun later query suffix here => ?_) fun _ _ _ => trivial
  cases query with
  | write w =>
      cases w with
      | insertHistory row => exact sanctioned later row suffix here
      | _ => exact here.elim
  | _ => exact trivial

theorem select (q : Select) :
    Sanctioning host req past (fun later row => later = ⟨.read q, .ok row⟩ :: past) (select q) :=
  select_obeys trivial fun _ => trivial

theorem exec {w : Write} (sanctioned : Sanctioned host req past w) :
    Sanctioning host req past (fun later rows => later = ⟨.write w, .ok rows⟩ :: past) (exec w) :=
  exec_obeys sanctioned fun _ => trivial

theorem ask {query : Query} (here : query.Allowed host req past) :
    Sanctioning host req past (fun later answer => later = ⟨query, answer⟩ :: past)
      (liftM (ask query) : ExceptT ε Backend _) := ask_obeys here

theorem ensure (holds : Bool) (otherwise : Response) :
    Sanctioning host req past (fun later _ => later = past ∧ holds = true)
      (ensure holds otherwise) := ensure_obeys fun _ => trivial

theorem orRespond (value : Option α) (otherwise : Response) :
    Sanctioning host req past (fun later found => later = past ∧ value = some found)
      (orRespond value otherwise) := orRespond_obeys fun _ => trivial

theorem orFail {post : Past → α → Prop} {p : Db α} (obeys : Sanctioning host req past post p)
    (respond : Err → Response) : Sanctioning host req past post (orFail p respond) :=
  orFail_obeys obeys fun _ _ _ => trivial

theorem onDuplicate {post : Past → α → Prop} {p : Db α} (obeys : Sanctioning host req past post p)
    (duplicate : Err) : Sanctioning host req past post (onDuplicate p duplicate) :=
  Obeys.adapt obeys fun _ _ _ => trivial

theorem decode {body : Body β} {validate : β → Except String β} :
    Sanctioning host req past (fun later value => later = past ∧ Decoded body validate value)
      (decodeAndValidate body validate) := decodeAndValidate_obeys fun _ => trivial

end Sanctioning

section Steps

variable {host : Host} {req : Request} {past : Past}

theorem loadIssue_sanctioning (id projectID : Int) (unwritten : Unwritten past) :
    Sanctioning host req past (fun later issue => past <:+ later ∧ Unwritten later ∧
      LoadedIssue later id projectID issue) (loadIssue id projectID) := by
  have read : Sanctioning host req past
      (fun later found => ∀ issue, found = some issue → past <:+ later ∧ Unwritten later ∧
        LoadedIssue later id projectID issue)
      (getIssueByIDInProject id projectID) := by
    refine Sanctioning.bind (Sanctioning.select _) fun _ found here => ?_
    subst here
    cases found with
    | none => exact Obeys.pure fun issue same => nomatch same
    | some found =>
        refine Sanctioning.after (select_asks trivial)
          unwritten.read fun later tasks suffix unwritten => ?_
        refine Obeys.pure ?_
        rintro _ ⟨⟩
        exact ⟨(List.suffix_cons _ _).trans suffix, unwritten, found, tasks, rfl,
          suffix.subset List.mem_cons_self⟩
  refine Sanctioning.bind (Sanctioning.orFail read _) fun later found holds => ?_
  refine Sanctioning.weaken (Sanctioning.orRespond _ _) ?_
  rintro _ issue ⟨rfl, same⟩
  exact holds issue same

theorem loadRelease_sanctioning (id projectID : Int) (unwritten : Unwritten past) :
    Sanctioning host req past (fun later release => past <:+ later ∧ Unwritten later ∧
      LoadedRelease later id projectID release) (loadRelease id projectID) := by
  refine Sanctioning.bind (Sanctioning.orFail (Sanctioning.select _) _) fun _ found here => ?_
  subst here
  refine Sanctioning.weaken (Sanctioning.orRespond _ _) ?_
  rintro _ release ⟨rfl, rfl⟩
  exact ⟨List.suffix_cons _ _, unwritten.read, List.mem_cons_self⟩

/-- A clock reading followed by the sanctioned write of a whole issue. -/
theorem updateIssue_sanctioning {i : Issue}
    (sanctioned : ∀ updatedAt, Sanctioned host req (⟨.now, updatedAt⟩ :: past)
      (.updateIssue i.id { i with updatedAt }.columns)) :
    Sanctioning host req past (fun later _ => past <:+ later) (updateIssue i) := by
  refine Sanctioning.bind (Sanctioning.ask (by exact trivial)) fun _ updatedAt here => ?_
  subst here
  refine Sanctioning.bind (Sanctioning.exec (sanctioned updatedAt)) fun _ rows here => ?_
  subst here
  refine Sanctioning.weaken (Sanctioning.looking ?_) fun later _ suffix => ?_
  · exact Asks.bind (checkRowsAffected_asks _ _) fun _ => Asks.pure _
  · exact ((List.suffix_cons _ _).trans (List.suffix_cons _ _)).trans suffix

/-- A sanctioned write whose row count is checked. -/
theorem checkedWrite_sanctioning {w : Write} (sanctioned : Sanctioned host req past w)
    (notFound : Err) :
    Sanctioning host req past (fun later _ => past <:+ later) (do
      let rows ← exec w
      checkRowsAffected rows notFound) := by
  refine Sanctioning.bind (Sanctioning.exec sanctioned) fun _ rows here => ?_
  subst here
  refine Sanctioning.weaken (Sanctioning.looking (checkRowsAffected_asks _ _)) fun later _ suffix => ?_
  exact (List.suffix_cons _ _).trans suffix

/-- The same after a look at the clock. -/
theorem timedWrite_sanctioning {w : Instant → Write}
    (sanctioned : ∀ now, Sanctioned host req (⟨.now, now⟩ :: past) (w now)) (notFound : Err) :
    Sanctioning host req past (fun later _ => past <:+ later) (do
      let now ← ask .now
      let rows ← exec (w now)
      checkRowsAffected rows notFound : Db Unit) := by
  refine Sanctioning.bind (Sanctioning.ask (by exact trivial)) fun _ now here => ?_
  subst here
  refine Sanctioning.weaken (checkedWrite_sanctioning (sanctioned now) _) fun later _ suffix => ?_
  exact (List.suffix_cons _ _).trans suffix

end Steps

end Wuflow

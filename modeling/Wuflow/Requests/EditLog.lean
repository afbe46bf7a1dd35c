/-
**What one PUT does to its issue and to the history**, whatever runs in between.

A PUT reads the issue, writes it at most once, reads it again and then inserts an entry for each difference
between what it has read first and what it has read last. This is a property of its own local history,
newest entry first, and says nothing about the databases that its queries have met.

* `EditLog` — the local history of a PUT that has come to its end.
* `serve_putIssue_log` — every PUT has such a history, where the issue is there at every step (`Answered`).
-/

import Wuflow.Requests.Alone

namespace Wuflow

open Calendar (Instant)
open Interleave (Prog Entry noting)
open Interleave.Stopping (Asks Ensures)

/-! ### Entries -/

/-- The history row that the entry asks to insert. -/
def Entry.inserts : Entry Query.Answer → Option HistoryRow
  | ⟨.write (.insertHistory row), _⟩ => some row
  | _ => none

/-- What the entry has written over an issue. -/
def Entry.rewrites : Entry Query.Answer → Option (Int × IssueColumns)
  | ⟨.write (.updateIssue id cols), .ok _⟩ => some (id, cols)
  | _ => none

/-- The entry neither rewrites an issue nor inserts into the history. -/
structure Silent (entry : Entry Query.Answer) : Prop where
  rewrites : Entry.rewrites entry = none
  inserts : Entry.inserts entry = none

theorem Query.Reading.silent {query : Query} (reading : query.Reading) (answer : query.Answer) :
    Silent ⟨query, answer⟩ := by
  cases query with
  | write w => exact reading.elim
  | _ => exact ⟨rfl, rfl⟩

/-- Between the two histories there are only silent entries. -/
def Grows (past later : Past) : Prop := ∃ new, later = new ++ past ∧ ∀ entry ∈ new, Silent entry

theorem Grows.refl (past : Past) : Grows past past := ⟨[], rfl, fun _ member => nomatch member⟩

theorem Grows.trans {first second third : Past} (early : Grows first second) (late : Grows second third) :
    Grows first third := by
  obtain ⟨new, rfl, silent⟩ := early
  obtain ⟨newer, rfl, silent'⟩ := late
  refine ⟨newer ++ new, (List.append_assoc _ _ _).symm, fun entry member => ?_⟩
  rcases List.mem_append.mp member with member | member
  · exact silent' entry member
  · exact silent entry member

theorem Grows.cons {past later : Past} (grows : Grows past later) {entry : Entry Query.Answer}
    (silent : Silent entry) : Grows past (entry :: later) := by
  refine grows.trans ⟨[entry], rfl, fun other member => ?_⟩
  rw [List.mem_singleton.mp member]
  exact silent

/-- Reads succeed, and the issue is there. -/
def Answered (id : Int) : (query : Query) → query.Answer → Prop
  | .read (.issueByID key), .ok found => key = id → found ≠ none
  | .read _, .error _ => False
  | .write (.updateIssue key _), .ok rows => key = id → rows ≠ 0
  | _, _ => True

/-! ### The log of a PUT -/

section Logs

variable (userID id : Int)

/-- The part of a PUT that writes the issue at most once. -/
inductive EditPart : Past → Prop
  | none {part : Past} (silent : ∀ entry ∈ part, Silent entry) : EditPart part
  | once {after before : Past} {cols : IssueColumns} {rows : Int}
      (late : ∀ entry ∈ after, Silent entry) (early : ∀ entry ∈ before, Silent entry)
      (updater : cols.updatedBy = nullableUserID (some userID)) :
      EditPart (after ++ ⟨.write (.updateIssue id cols), .ok rows⟩ :: before)

/-- The part of a PUT that records the changes, in their order. -/
structure RecordPart (changes : List ChangeData) (part : Past) : Prop where
  silent : ∀ entry ∈ part, Entry.rewrites entry = none
  rows : ∀ entry ∈ part, ∀ row, Entry.inserts entry = some row →
    row.issueID = id ∧ row.userID = actor userID ∧ row.event = .updated
  data : (part.reverse.filterMap Entry.inserts).map HistoryRow.data = changes

/-- **The local history of a PUT** that has come to its end. -/
inductive EditLog : Past → Prop
  | silent {past : Past} (silent : ∀ entry ∈ past, Silent entry) : EditLog past
  | edited {P : Int} {found updated : Issue} {records edit early : Past}
      (silent : ∀ entry ∈ early, Silent entry) (edits : EditPart userID id edit)
      (recorded : RecordPart userID id (diffIssueFields found updated) records) :
      EditLog (records ++ ⟨.read (.issueByID id), .ok (some updated)⟩ ::
        (edit ++ ⟨.read (.issueByIDInProject id P), .ok (some found)⟩ :: early))

end Logs

/-- Silent entries before the write. -/
theorem EditPart.before {userID id : Int} {part checks : Past} (edits : EditPart userID id part)
    (silent : ∀ entry ∈ checks, Silent entry) : EditPart userID id (part ++ checks) := by
  have both : ∀ {early : Past}, (∀ entry ∈ early, Silent entry) → ∀ entry ∈ early ++ checks, Silent entry := by
    intro early quiet entry member
    rcases List.mem_append.mp member with member | member
    · exact quiet entry member
    · exact silent entry member
  cases edits with
  | none quiet => exact .none (both quiet)
  | once late early updater =>
      rw [List.append_assoc, List.cons_append]
      exact .once late (both early) updater

/-! ### Rules -/

/-- What every end of a program satisfies, with its local history. -/
abbrev Noted {ε α : Type} (id : Int) (post : α → Past → Prop) (stop : ε → Past → Prop)
    (p : ExceptT ε Backend α) (past : Past) : Prop :=
  Ensures (noting (Answered id)) post stop p past

section Rules

variable {ε α β : Type} {id : Int} {past : Past} {post : β → Past → Prop} {stop : ε → Past → Prop}

theorem reads_noted {p : Backend α} (reads : p.Asks Query.Reading) :
    p.Ensures (noting (Answered id)) (fun _ later => Grows past later) past := by
  suffices general : ∀ now, Grows past now →
      p.Ensures (noting (Answered id)) (fun _ later => Grows past later) now from general past (.refl past)
  induction p with
  | done value => exact fun _ grows => grows
  | ask query next ih =>
      rintro now grows answer _ ⟨rfl, _⟩
      exact ih answer (reads.2 answer) _ (grows.cons (reads.1.silent answer))

theorem Noted.reading {p : ExceptT ε Backend α} {post : α → Past → Prop} (reads : Asks Query.Reading p)
    (posts : ∀ value later, Grows past later → post value later)
    (stops : ∀ err later, Grows past later → stop err later) : Noted id post stop p past := by
  refine Prog.Ensures.mono (fun result later grows => ?_) (reads_noted reads)
  cases result with
  | ok value => exact posts value later grows
  | error err => exact stops err later grows

theorem Noted.after {p : ExceptT ε Backend α} {f : α → ExceptT ε Backend β}
    (reads : Asks Query.Reading p) (stops : ∀ err later, Grows past later → stop err later)
    (next : ∀ value later, Grows past later → Noted id post stop (f value) later) :
    Noted id post stop (p >>= f) past :=
  Ensures.bind (Noted.reading reads next stops)

/-- A read succeeds. -/
theorem Noted.select {q : Select} {f : q.Row → Db β} {stop : Err → Past → Prop}
    (answered : ∀ err, ¬ Answered id (.read q) (.error err))
    (next : ∀ row, Answered id (.read q) (.ok row) →
      Noted id post stop (f row) (⟨.read q, .ok row⟩ :: past)) :
    Noted id post stop (Wuflow.select q >>= f) past := by
  refine Ensures.bind ?_
  rintro answer _ ⟨rfl, given⟩
  cases answer with
  | error err => exact (answered err given).elim
  | ok row => exact next row given

/-- The clock. -/
theorem Noted.now {f : Instant → ExceptT ε Backend β}
    (next : ∀ now, Noted id post stop (f now) (⟨.now, now⟩ :: past)) :
    Noted id post stop ((liftM (ask .now) : ExceptT ε Backend _) >>= f) past :=
  Ensures.bind (Ensures.lift (by
    rintro now _ ⟨rfl, _⟩
    exact next now))

theorem Noted.exec {w : Write} {f : Int → Db β} {stop : Err → Past → Prop}
    (fails : ∀ err, stop err (⟨.write w, .error err⟩ :: past))
    (next : ∀ rows, Answered id (.write w) (.ok rows) →
      Noted id post stop (f rows) (⟨.write w, .ok rows⟩ :: past)) :
    Noted id post stop (Wuflow.exec w >>= f) past := by
  refine Ensures.bind ?_
  rintro answer _ ⟨rfl, given⟩
  cases answer with
  | error err => exact fails err
  | ok rows => exact next rows given

variable {stop : Response → Past → Prop}

theorem Noted.loadIssue {key P : Int} {f : Issue → Handler β}
    (stops : ∀ response later, Grows past later → stop response later)
    (next : ∀ found tasks later,
      Grows (⟨.read (.issueByIDInProject key P), .ok (some found)⟩ :: past) later →
      Noted id post stop (f { found with tasks }) later) :
    Noted id post stop (Wuflow.loadIssue key P >>= f) past := by
  refine Ensures.bind (Ensured.orFail ?_)
  refine Noted.select (fun _ given => given) fun found _ => ?_
  cases found with
  | none => exact stops _ _ ((Grows.refl past).cons (Query.Reading.silent (reading_read _) _))
  | some found =>
      refine Noted.select (fun _ given => given) fun tasks _ => ?_
      exact next found tasks _ ((Grows.refl _).cons (Query.Reading.silent (reading_read _) _))

end Rules

/-! ### The handler -/

section Handler

variable {id userID : Int} {past : Past} {caller : Caller}

theorem recordHistory_noted {data : ChangeData} :
    (recordHistory id userID .updated data).Ensures (noting (Answered id)) (fun _ later =>
      ∃ created, ∃ answer : Except Err Int,
        later = ⟨.write (.insertHistory (historyRow id userID .updated data created)), answer⟩ ::
          ⟨.currentTimestamp, created⟩ :: past) past := by
  have row : ∀ created, historyRow id userID .updated data created =
      ⟨id, nullableUserID (if 0 < userID then some userID else none), .updated, data, created⟩ := by
    intro created
    rw [nullableUserID_actor]
    rfl
  refine Prog.Ensures.bind ?_
  rintro created _ ⟨rfl, _⟩ answer _ ⟨rfl, _⟩
  cases answer with
  | ok rows => exact ⟨created, .ok rows, by rw [row]⟩
  | error err => exact ⟨created, .error err, by rw [row]⟩

theorem recordChanges_noted (changes : List ChangeData) :
    (recordChanges id userID changes).Ensures (noting (Answered id))
      (fun _ later => ∃ new, later = new ++ past ∧ RecordPart userID id changes new) past := by
  induction changes generalizing past with
  | nil =>
      have part : RecordPart userID id [] [] :=
        ⟨fun _ member => absurd member List.not_mem_nil, fun _ member => absurd member List.not_mem_nil,
          rfl⟩
      exact ⟨[], rfl, part⟩
  | cons change changes ih =>
      refine Prog.Ensures.bind (Prog.Ensures.mono (fun _ later holds => ?_) recordHistory_noted)
      obtain ⟨created, answer, rfl⟩ := holds
      refine Prog.Ensures.mono (fun _ later holds => ?_) ih
      obtain ⟨new, rfl, part⟩ := holds
      refine ⟨new ++ [⟨.write (.insertHistory (historyRow id userID .updated change created)), answer⟩,
        ⟨.currentTimestamp, created⟩], by simp, fun entry member => ?_,
        fun entry member row inserts => ?_, ?_⟩
      · rcases List.mem_append.mp member with member | member
        · exact part.silent entry member
        · rcases List.mem_pair.mp member with rfl | rfl
          · rfl
          · rfl
      · rcases List.mem_append.mp member with member | member
        · exact part.rows entry member row inserts
        · rcases List.mem_pair.mp member with rfl | rfl
          · cases inserts
            exact ⟨rfl, rfl, rfl⟩
          · exact nomatch inserts
      · rw [List.reverse_append, List.filterMap_append, List.map_append, part.data]
        rfl

theorem recordIssueEditHistory_noted (found : Issue) :
    (recordIssueEditHistory found id userID).Ensures (noting (Answered id)) (fun result later =>
      result ≠ none ∧ ∃ new updated, later = new ++ ⟨.read (.issueByID id), .ok (some updated)⟩ :: past ∧
        RecordPart userID id (diffIssueFields found updated) new) past := by
  refine Prog.Ensures.bind ?_
  have reread : Noted id (fun read later => ∃ updated tasks, read = some { updated with tasks } ∧
        Grows (⟨.read (.issueByID id), .ok (some updated)⟩ :: past) later)
      (fun (_ : Err) _ => False) (getIssueByID id) past := by
    refine Noted.select (fun _ given => given) fun read given => ?_
    cases read with
    | none => exact absurd rfl (given rfl)
    | some updated =>
        refine Noted.select (fun _ given => given) fun tasks _ => ?_
        exact ⟨updated, tasks, rfl, (Grows.refl _).cons (Query.Reading.silent (reading_read _) _)⟩
  refine Prog.Ensures.mono (fun result later holds => ?_) reread
  cases result with
  | error err => exact holds.elim
  | ok read =>
      obtain ⟨updated, tasks, rfl, between, rfl, silent⟩ := holds
      refine Prog.Ensures.bind (Prog.Ensures.mono (fun _ last recorded => ?_) (recordChanges_noted _))
      obtain ⟨new, rfl, part⟩ := recorded
      refine ⟨nofun, new ++ between, updated, (List.append_assoc _ _ _).symm, fun entry member => ?_,
        fun entry member row inserts => ?_, ?_⟩
      · rcases List.mem_append.mp member with member | member
        · exact part.silent entry member
        · exact (silent entry member).rewrites
      · rcases List.mem_append.mp member with member | member
        · exact part.rows entry member row inserts
        · exact nomatch (silent entry member).inserts.symm.trans inserts
      · have none : between.reverse.filterMap Entry.inserts = [] :=
          List.filterMap_eq_nil_iff.mpr fun entry member =>
            (silent entry (List.mem_reverse.mp member)).inserts
        rw [List.reverse_append, List.filterMap_append, none]
        exact part.data

theorem EditPart.of_grows {later : Past} (grows : Grows past later) :
    ∃ new, later = new ++ past ∧ EditPart userID id new := by
  obtain ⟨new, rfl, silent⟩ := grows
  exact ⟨new, rfl, .none silent⟩

/-- The issue is there, so a write of it changes it. -/
theorem persistIssueUpdate_noted {i current : Issue} (own : i.id = id)
    (updater : i.updaterID = some userID) :
    Noted id (fun _ later => ∃ new, later = new ++ past ∧ EditPart userID id new)
      (fun (_ : Response) later => Grows past later) (persistIssueUpdate i current) past := by
  unfold persistIssueUpdate
  split
  · split
    · refine Ensured.orFail_end (Noted.exec (fun err => ?_) fun rows _ => ?_)
      · exact (Grows.refl past).cons ⟨rfl, rfl⟩
      · have grown : Grows past (⟨.write (.updateIssuePosition i.id i.position), .ok rows⟩ :: past) :=
          (Grows.refl past).cons ⟨rfl, rfl⟩
        exact Noted.reading (checkRowsAffected_asks _ _)
          (fun _ _ later => EditPart.of_grows (grown.trans later))
          fun _ _ later => grown.trans later
    · exact EditPart.of_grows (.refl past)
  · refine Ensured.orFail (Noted.now fun updatedAt => Noted.exec (fun err => ?_) fun rows given => ?_)
    · exact ((Grows.refl past).cons ⟨rfl, rfl⟩).cons ⟨rfl, rfl⟩
    · refine Ensured.checkRowsAffected (fun none => absurd none (given own)) fun _ => ?_
      have silent : ∀ entry ∈ ([⟨.now, updatedAt⟩] : Past), Silent entry := by
        intro entry member
        rw [List.mem_singleton.mp member]
        exact ⟨rfl, rfl⟩
      have part : EditPart userID i.id ([] ++ ⟨.write (.updateIssue i.id { i with updatedAt }.columns),
          .ok rows⟩ :: [⟨.now, updatedAt⟩]) :=
        .once (fun _ member => absurd member List.not_mem_nil) silent (congrArg nullableUserID updater)
      subst own
      exact ⟨_, rfl, part⟩

/-- **PUT.** -/
theorem handlePutIssue_noted {projectID : Int} {ifMatch : String} {body : Body Issue}
    (early : ∀ entry ∈ past, Silent entry) :
    Noted id (fun _ => EditLog caller.userID id) (fun _ => EditLog caller.userID id)
      (handlePutIssue caller ifMatch body projectID id) past := by
  have still : ∀ {later}, Grows past later → EditLog caller.userID id later := by
    rintro _ ⟨new, rfl, silent⟩
    refine .silent fun entry member => ?_
    rcases List.mem_append.mp member with member | member
    · exact silent entry member
    · exact early entry member
  refine Noted.loadIssue (fun _ _ grows => still grows) fun found tasks now loaded => ?_
  have before : Grows past (⟨.read (.issueByIDInProject id projectID), .ok (some found)⟩ :: past) :=
    (Grows.refl past).cons (Query.Reading.silent (reading_read _) _)
  have ends : ∀ {later}, Grows now later → EditLog caller.userID id later :=
    fun grows => still (before.trans (loaded.trans grows))
  refine Ensured.ensure (ends (.refl _)) fun _ => Ensured.decode (fun _ => ends (.refl _)) fun sent _ => ?_
  refine Noted.after (checkAssignee_asks reading_read _ _) (fun _ _ => ends) fun _ second grows => ?_
  refine Noted.after (checkLabel_asks reading_read _) (fun _ _ more => ends (grows.trans more))
    fun _ third more => ?_
  replace grows := grows.trans more
  refine Noted.after (checkRelease_asks reading_read _) (fun _ _ more => ends (grows.trans more))
    fun _ last more => ?_
  replace grows := grows.trans more
  refine Ensured.ensure (ends grows) fun _ => Ensured.ensure (ends grows) fun _ => ?_
  refine Ensures.bind (Ensures.mono (fun _ written edited => ?_) (fun _ _ more => ends (grows.trans more))
    (persistIssueUpdate_noted rfl rfl))
  obtain ⟨edit, rfl, part⟩ := edited
  refine Ensures.bind (Ensures.lift (Prog.Ensures.mono (fun result end_ recorded => ?_)
    (recordIssueEditHistory_noted _)))
  obtain ⟨something, records, updated, rfl, recorded⟩ := recorded
  obtain ⟨checks, rfl, silent⟩ := loaded.trans grows
  have log : EditLog caller.userID id (records ++ ⟨.read (.issueByID id), .ok (some updated)⟩ ::
      (edit ++ (checks ++ ⟨.read (.issueByIDInProject id projectID), .ok (some found)⟩ :: past))) := by
    rw [← List.append_assoc edit]
    exact .edited early (part.before silent) recorded
  cases result with
  | some updated => exact log
  | none => exact absurd rfl something

/-- A request on the resource of a path starts with reads. -/
theorem withProjectResource_noted {action : Action} {pId : Option Int} {h : Int → Int → Handler Response}
    {post stop : Response → Past → Prop} (stops : ∀ response later, Grows past later → stop response later)
    (next : ∀ projectID later, Grows past later → Noted id post stop (h projectID id) later) :
    Noted id post stop (withProjectResource caller action pId (some id) h) past := by
  refine Ensured.ensure (stops _ _ (.refl past)) fun _ => Ensures.bind ?_
  refine Ensured.orRespond (stops _ _ (.refl past)) fun projectID _ => ?_
  refine Noted.after (orInternal_asks (select_asks (reading_read _))) stops fun _ later grows => ?_
  refine Ensured.ensure (stops _ _ grows) fun _ => ?_
  refine Ensured.orRespond (stops _ _ grows) fun found here => ?_
  obtain rfl := Option.some.inj (Option.filter_eq_some_iff.mp here).1
  exact next projectID later grows

/-- **A PUT that has come to its end.** -/
theorem serve_putIssue_log {host : Host} {pId : Option Int} {ifMatch : String} {body : Body Issue} :
    (serve host (.putIssue caller pId (some id) ifMatch body)).Ensures (noting (Answered id))
      (fun _ => EditLog caller.userID id) [] := by
  have still : ∀ {later}, Grows [] later → ∀ entry ∈ later, Silent entry := by
    rintro _ ⟨new, rfl, silent⟩ entry member
    exact silent entry (by simpa using member)
  refine Prog.Ensures.bind (Prog.Ensures.mono (fun result later log => ?_)
    (withProjectResource_noted (fun _ _ grows => .silent (still grows))
      fun projectID later grows => handlePutIssue_noted (still grows)))
  cases result with
  | ok response => exact log
  | error response => exact log

end Handler

end Wuflow

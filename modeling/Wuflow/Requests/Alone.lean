/-
**A request that is served alone.**

`Query.tried may` is a world in which some statements may fail. There is one rule for each kind of step of
a handler (`Ensured.select`, `Ensured.exec`, …): it holds in every world that is no wilder than such a one
(`Tame may`); the parts that only read leave the database as it is (`Ensured.after`).

* `Responds may` — a request has been served to its end with a response, where some statements may fail.
* `Responds.ends` — what the handler ensures holds after it.
-/

import Wuflow.Interleave.Alone
import Wuflow.Requests.Sequential

namespace Wuflow

open Calendar (Instant)
open Interleave (Prog Entry Event Run)
open Interleave.Stopping (Asks Ensures)

/-! ### Served requests -/

/-- The answer of a statement that has failed. -/
def Query.Fault : (query : Query) → query.Answer → Prop
  | .read _, answer => answer = .error .fault
  | .write _, answer => answer = .error .fault
  | _, _ => False

/-- **What a query does to the store** where the statements `may` tells may fail, and then change nothing. -/
def Query.tried (may : Query → Prop) (query : Query) (s : Store) (answer : query.Answer) (s' : Store) :
    Prop := query.perform s answer s' ∨ may query ∧ query.Fault answer ∧ s' = s

/-- No statement fails. -/
def Query.sound (_ : Query) : Prop := False

/-- Any statement may fail. -/
def Query.faulty (_ : Query) : Prop := True

/-- A world in which a query does nothing but what it may do in `Query.tried may`. -/
def Tame (may : Query → Prop) (sem : (query : Query) → Store → query.Answer → Store → Prop) : Prop :=
  ∀ query s answer s', sem query s answer s' → query.tried may s answer s'

theorem tame_tried (may : Query → Prop) : Tame may (Query.tried may) := fun _ _ _ _ here => here

section Tried

variable {may : Query → Prop} {w : Write} {s s' : Store}

/-- A statement that reports an error has changed nothing. -/
theorem tried_error {err : Err} (here : (Query.write w).tried may s (.error err) s') : s' = s := by
  rcases here with performed | ⟨_, _, same⟩
  · rcases Write.exec_cases performed with ⟨rows, wrong, _⟩ | ⟨_, _, same⟩
    · exact nomatch wrong
    · exact same
  · exact same

/-- A statement that reports rows has been carried out. -/
theorem tried_ok {rows : Int} (here : (Query.write w).tried may s (.ok rows) s') :
    w.apply s = .ok (rows, s') := by
  rcases here with performed | ⟨_, fault, _⟩
  · exact Write.apply_of_ok performed
  · exact nomatch fault

end Tried

/-- The response reports an error. -/
def Response.Refused (response : Response) : Prop := 400 ≤ response.status

theorem badRequest_refused (message : String) : (httpError message 400).Refused := Nat.le_refl 400

instance (response : Response) : Decidable response.Refused := inferInstanceAs (Decidable (_ ≤ _))

/-- **The request is served with a response**, alone and to its end. -/
def Responds (may : Query → Prop) (host : Host) (before : Store) (req : Request) (response : Response)
    (after : Store) : Prop :=
  ∃ trace current, Run (Query.tried may) before (fun _ : Unit => serve host req) trace after current ∧
    current () = .done response

/-! ### History rows -/

/-- The user that `recordHistory` names for a user id. -/
def actor (userID : Int) : Option Int := if 0 < userID then some userID else none

theorem nullableUserID_actor (userID : Int) :
    nullableUserID (if 0 < userID then some userID else none) = actor userID := by
  unfold nullableUserID actor
  split
  · next positive => simp [ne_of_gt positive]
  · rfl

/-- The history row that `recordHistory` inserts. -/
def historyRow (issueID userID : Int) (event : HistoryEvent) (data : ChangeData) (created : Instant) :
    HistoryRow := ⟨issueID, actor userID, event, data, created⟩

/-! ### The steps of a handler -/

section Ensured

variable {S α β : Type} {sem : (query : Query) → S → query.Answer → S → Prop} {s : S}
  {post : β → S → Prop} {stop : Response → S → Prop}

theorem Ensured.checkRowsAffected {rows : Int} {notFound : Err} {f : Unit → Db β}
    {stop : Err → S → Prop} (fails : rows = 0 → stop notFound s)
    (next : rows ≠ 0 → Ensures sem post stop (f ()) s) :
    Ensures sem post stop (Wuflow.checkRowsAffected rows notFound >>= f) s := by
  unfold Wuflow.checkRowsAffected
  by_cases none : rows = 0
  · rw [if_pos none]
    exact fails none
  · rw [if_neg none]
    exact next none

theorem Ensured.checkRowsAffected_end {rows : Int} {notFound : Err} {post : Unit → S → Prop}
    {stop : Err → S → Prop} (fails : rows = 0 → stop notFound s) (holds : rows ≠ 0 → post () s) :
    Ensures sem post stop (Wuflow.checkRowsAffected rows notFound) s := by
  unfold Wuflow.checkRowsAffected
  by_cases none : rows = 0
  · rw [if_pos none]
    exact fails none
  · rw [if_neg none]
    exact holds none

/-- A database function at the end of a handler. -/
theorem Ensured.orFail_end {p : Db α} {respond : Err → Response} {post : α → S → Prop}
    (first : Ensures sem post (fun err s' => stop (respond err) s') p s) :
    Ensures sem post stop (Wuflow.orFail p respond) s := by
  refine Ensures.bind (Ensures.lift (Prog.Ensures.mono (fun result s' holds => ?_) first))
  cases result with
  | ok value => exact holds
  | error err => exact holds

theorem Ensured.orFail {p : Db α} {respond : Err → Response} {f : α → Handler β}
    (first : Ensures sem (fun value s' => Ensures sem post stop (f value) s')
      (fun err s' => stop (respond err) s') p s) :
    Ensures sem post stop (Wuflow.orFail p respond >>= f) s :=
  Ensures.bind (Ensured.orFail_end first)

theorem Ensured.ensure {holds : Bool} {otherwise : Response} {f : Unit → Handler β}
    (fails : stop otherwise s) (next : holds = true → Ensures sem post stop (f ()) s) :
    Ensures sem post stop (Wuflow.ensure holds otherwise >>= f) s := by
  unfold Wuflow.ensure
  cases holds with
  | true => exact next rfl
  | false => exact fails

theorem Ensured.orRespond {value : Option α} {otherwise : Response} {f : α → Handler β}
    (fails : stop otherwise s) (next : ∀ found, value = some found → Ensures sem post stop (f found) s) :
    Ensures sem post stop (Wuflow.orRespond value otherwise >>= f) s := by
  unfold Wuflow.orRespond
  cases value with
  | some found => exact next found rfl
  | none => exact fails

theorem Ensured.decode {γ : Type} {body : Body γ} {validate : γ → Except String γ} {f : γ → Handler β}
    (fails : ∀ message, stop (httpError message 400) s)
    (next : ∀ value, Decoded body validate value → Ensures sem post stop (f value) s) :
    Ensures sem post stop (decodeAndValidate body validate >>= f) s := by
  cases body with
  | malformed => exact fails _
  | empty => exact fails _
  | json sent =>
      unfold decodeAndValidate
      cases valid : validate sent with
      | error message =>
          simp only [valid]
          exact fails _
      | ok value =>
          simp only [valid]
          exact next value ⟨sent, rfl, valid⟩

end Ensured

/-! ### Statements -/

section Statements

variable {ε α β : Type} {may : Query → Prop} {sem : (query : Query) → Store → query.Answer → Store → Prop}
  {s : Store} {post : β → Store → Prop} {stop : ε → Store → Prop}

theorem now_reading : Query.now.Reading := trivial

theorem reading_same (tame : Tame may sem) {query : Query} (reading : query.Reading)
    {answer : query.Answer} {s' : Store} (here : sem query s answer s') : s' = s := by
  rcases tame _ _ _ _ here with performed | ⟨_, _, same⟩
  · rcases perform_cases performed with ⟨w, rows, same, _⟩ | ⟨same, _⟩
    · exact absurd (congrArg Sigma.fst same) (reading.ne_write w)
    · exact same
  · exact same

theorem reads_same (tame : Tame may sem) {p : Backend α} (reads : p.Asks Query.Reading) :
    p.Ensures sem (fun _ s' => s' = s) s := by
  induction p with
  | done value => exact rfl
  | ask query next ih =>
      intro answer s' here
      rw [reading_same tame reads.1 here]
      exact ih answer (reads.2 answer)

/-- A part that only reads. -/
theorem Ensured.reading (tame : Tame may sem) {p : ExceptT ε Backend α} {post : α → Store → Prop}
    (reads : Asks Query.Reading p) (posts : ∀ value, post value s) (stops : ∀ err, stop err s) :
    Ensures sem post stop p s := by
  refine Prog.Ensures.mono (fun result s' same => ?_) (reads_same tame reads)
  subst same
  cases result with
  | ok value => exact posts value
  | error err => exact stops err

theorem Ensured.after (tame : Tame may sem) {p : ExceptT ε Backend α} {f : α → ExceptT ε Backend β}
    (reads : Asks Query.Reading p) (stops : ∀ err, stop err s)
    (next : ∀ value, Ensures sem post stop (f value) s) : Ensures sem post stop (p >>= f) s :=
  Ensures.bind (Ensured.reading tame reads next stops)

/-- A query of a function of the database that is no statement. -/
theorem Ensured.ask (tame : Tame may sem) {query : Query} (reading : query.Reading)
    {f : query.Answer → ExceptT ε Backend β} (next : ∀ answer, Ensures sem post stop (f answer) s) :
    Ensures sem post stop ((liftM (Wuflow.ask query) : ExceptT ε Backend _) >>= f) s :=
  Ensures.bind (Ensures.lift fun answer s' here => by
    obtain rfl : s' = s := reading_same tame reading here
    exact next answer)

variable {stop : Err → Store → Prop}

/-- A query at the end of a function of the database. -/
theorem Ensured.select_end (tame : Tame may sem) {q : Select} {post : q.Row → Store → Prop}
    (fails : may (.read q) → sem (.read q) s (.error .fault) s → stop .fault s)
    (holds : post (q.eval s) s) : Ensures sem post stop (Wuflow.select q) s := by
  intro answer s' here
  rcases tame _ _ _ _ here with performed | ⟨faulty, rfl, rfl⟩
  · obtain ⟨rfl, rfl⟩ := perform_read performed
    exact holds
  · exact fails faulty here

theorem Ensured.select (tame : Tame may sem) {q : Select} {f : q.Row → Db β}
    (fails : may (.read q) → sem (.read q) s (.error .fault) s → stop .fault s)
    (next : Ensures sem post stop (f (q.eval s)) s) :
    Ensures sem post stop (Wuflow.select q >>= f) s :=
  Ensures.bind (Ensured.select_end tame fails next)

/-- A write at the end of a function of the database. -/
theorem Ensured.exec_end (tame : Tame may sem) {w : Write} {post : Int → Store → Prop}
    (fails : ∀ err, (may (.write w) ∨ w.apply s = .error err) → stop err s)
    (holds : ∀ rows s', w.apply s = .ok (rows, s') → post rows s') :
    Ensures sem post stop (Wuflow.exec w) s := by
  intro answer s' here
  rcases tame _ _ _ _ here with performed | ⟨faulty, rfl, rfl⟩
  · have executed : w.exec s = (answer, s') := performed
    unfold Write.exec at executed
    cases applied : w.apply s with
    | ok result =>
        rw [applied] at executed
        obtain ⟨rfl, rfl⟩ := Prod.mk.inj executed
        exact holds _ _ applied
    | error err =>
        rw [applied] at executed
        obtain ⟨rfl, rfl⟩ := Prod.mk.inj executed
        exact fails err (.inr applied)
  · exact fails .fault (.inl faulty)

theorem Ensured.exec (tame : Tame may sem) {w : Write} {f : Int → Db β} (fails : ∀ err, stop err s)
    (next : ∀ rows s', w.apply s = .ok (rows, s') → Ensures sem post stop (f rows) s') :
    Ensures sem post stop (Wuflow.exec w >>= f) s :=
  Ensures.bind (Ensured.exec_end tame (fun err _ => fails err) next)

variable {stop : Response → Store → Prop}

/-- A handler gets the issue as it is in the database. -/
theorem Ensured.loadIssue (tame : Tame may sem) {id projectID : Int} {f : Issue → Handler β}
    (fails : ∀ response, response.Refused → stop response s)
    (next : ∀ row tasks, s.issues.get? id = some row → row.projectID = projectID →
      Ensures sem post stop (f { s.scanIssueRow id row with tasks }) s) :
    Ensures sem post stop (Wuflow.loadIssue id projectID >>= f) s := by
  have found : ∀ issue, Select.eval (.issueByIDInProject id projectID) s = some issue →
      ∃ row, s.issues.get? id = some row ∧ row.projectID = projectID ∧ issue = s.scanIssueRow id row := by
    intro issue here
    obtain ⟨row, chosen, rfl⟩ := Option.map_eq_some_iff.mp here
    obtain ⟨known, inside⟩ := Option.filter_eq_some_iff.mp chosen
    exact ⟨row, known, beq_iff_eq.mp inside, rfl⟩
  refine Ensures.bind (Ensured.orFail (Ensured.select tame (fun _ _ => fails _ (by decide)) ?_))
  cases here : Select.eval (.issueByIDInProject id projectID) s with
  | none => exact fails _ (by decide)
  | some issue =>
      obtain ⟨row, known, inside, rfl⟩ := found issue here
      exact Ensured.select tame (fun _ _ => fails _ (by decide)) (next row _ known inside)

/-- The same for a release. -/
theorem Ensured.loadRelease (tame : Tame may sem) {id projectID : Int} {f : Release → Handler β}
    (fails : ∀ response, response.Refused → stop response s)
    (next : ∀ row, s.releases.get? id = some row → row.projectID = projectID →
      Ensures sem post stop (f (s.scanRelease id row)) s) :
    Ensures sem post stop (Wuflow.loadRelease id projectID >>= f) s := by
  have found : ∀ release, Select.eval (.releaseByIDInProject id projectID) s = some release →
      ∃ row, s.releases.get? id = some row ∧ row.projectID = projectID ∧ release = s.scanRelease id row := by
    intro release here
    obtain ⟨row, chosen, rfl⟩ := Option.map_eq_some_iff.mp here
    obtain ⟨known, inside⟩ := Option.filter_eq_some_iff.mp chosen
    exact ⟨row, known, beq_iff_eq.mp inside, rfl⟩
  refine Ensures.bind (Ensured.orFail (Ensured.select_end tame (fun _ _ => fails _ (by decide)) ?_))
  cases there : Select.eval (.releaseByIDInProject id projectID) s with
  | none => exact fails _ (by decide)
  | some release =>
      obtain ⟨row, known, inside, rfl⟩ := found release there
      exact next row known inside

end Statements

/-! ### Route wrappers -/

section Wrappers

variable {may : Query → Prop} {sem : (query : Query) → Store → query.Answer → Store → Prop} {s : Store}
  {post : Response → Store → Prop} {stop : Response → Store → Prop} {caller : Caller} {action : Action}

/-- The handler of a resource gets the project and the id of the path. -/
theorem Ensured.withProjectResource (tame : Tame may sem) {pId id : Option Int}
    {h : Int → Int → Handler Response} (fails : ∀ response, stop response s)
    (next : ∀ projectID found, can caller.role action = true → pId = some projectID → id = some found →
      Ensures sem post stop (h projectID found) s) :
    Ensures sem post stop (Wuflow.withProjectResource caller action pId id h) s := by
  refine Ensured.ensure (fails _) fun permitted => Ensures.bind ?_
  refine Ensured.orRespond (fails _) fun projectID path => ?_
  refine Ensured.after tame (orInternal_asks (select_asks (reading_read _))) fails fun _ => ?_
  refine Ensured.ensure (fails _) fun _ => ?_
  refine Ensured.orRespond (fails _) fun found here => ?_
  exact next projectID found permitted (Option.filter_eq_some_iff.mp path).1
    (Option.filter_eq_some_iff.mp here).1

/-- A positive id in a path is taken. -/
theorem positive_path {n : Int} (positive : 0 < n) : (some n).filter (fun n => decide (0 < n)) = some n :=
  Option.filter_eq_some_iff.mpr ⟨rfl, decide_eq_true positive⟩

/-- A permitted request for a resource of a known project is let through. -/
theorem Ensured.permitted (tame : Tame Query.sound sem) {projectID id : Int} {h : Int → Int → Handler Response}
    (permitted : can caller.role action = true) (known : s.projects.holds projectID (fun _ => true) = true)
    (positive : 0 < projectID ∧ 0 < id) (next : Ensures sem post stop (h projectID id) s) :
    Ensures sem post stop (Wuflow.withProjectResource caller action (some projectID) (some id) h) s := by
  have found : Select.eval (.projectExists projectID) s = true := known
  unfold Wuflow.withProjectResource withProject withRole checkProjectAccess resourceIDFromPath
  rw [permitted, positive_path positive.1, positive_path positive.2]
  refine Ensures.bind (Ensures.bind (Ensured.orFail (Ensured.select_end tame False.elim ?_)))
  rw [found]
  exact next

end Wrappers

/-! ### What holds after a request -/

section Responds

variable {host : Host} {before after : Store} {req : Request}

theorem serve_ensures {sem : (query : Query) → Store → query.Answer → Store → Prop}
    {holds : Response → Store → Prop} (ensures : Ensures sem holds holds (handler host req) before) :
    (serve host req).Ensures sem holds before := by
  refine Prog.Ensures.bind (Prog.Ensures.mono (fun result s' holds => ?_) ensures)
  cases result with
  | ok response => exact holds
  | error response => exact holds

/-- **What a handler ensures holds after its request.** -/
theorem Responds.ends {may : Query → Prop} {response : Response} {holds : Response → Store → Prop}
    (responds : Responds may host before req response after)
    (ensures : Ensures (Query.tried may) holds holds (handler host req) before) :
    holds response after := by
  obtain ⟨trace, current, run, ended⟩ := responds
  exact run.ensures (serve_ensures ensures) ended

/-- Where no statement fails, the request is served in the world of the model. -/
theorem Responds.serves {response : Response} (responds : Responds Query.sound host before req response after) :
    ∃ trace current, ServesOne host before req trace after current := by
  obtain ⟨trace, current, run, _⟩ := responds
  refine ⟨trace, current, run.wilder fun query s answer s' here => ?_⟩
  exact here.resolve_right fun fault => fault.1

/-- Every request can be served to its end. -/
theorem Responds.exists_end (may : Query → Prop) (host : Host) (before : Store) (req : Request) :
    ∃ response after, Responds may host before req response after := by
  have answers : ∀ query s, ∃ answer s', Query.tried may query s answer s' := fun query s =>
    ⟨_, _, .inl (query.perform_respond {} s)⟩
  obtain ⟨response, after, reaches⟩ := Prog.Reaches.exists_end answers (serve host req) before
  have started : Run (Query.tried may) before (fun _ : Unit => serve host req) [] before
      fun _ => serve host req := .nil
  obtain ⟨trace, current, run, ended⟩ := started.of_reaches reaches
  exact ⟨response, after, trace, current, run, ended⟩

/-- The response of a scheduled request, if it has come to its end. -/
def answered (host : Host) (before : Store) (req : Request) (moves : List (Unit × Input)) :
    Option Response :=
  match (executeFrom host before (fun _ => req) moves).current () with
  | .done response => some response
  | .ask _ _ => none

theorem Responds.of_moves (may : Query → Prop) {moves : List (Unit × Input)} {response : Response}
    (done : answered host before req moves = some response) :
    Responds may host before req response (executeFrom host before (fun _ => req) moves).store := by
  unfold answered at done
  split at done
  · next ended =>
      cases done
      exact ⟨_, _, Run.of_schedule (fun query input s => .inl (query.perform_respond input s)) moves
        Run.nil, ended⟩
  · exact nomatch done

end Responds

end Wuflow

/-
**Runs from any database, and requests served one after the other.**

* `ServesFrom host start reqs trace s current` — an interleaved run of the requests `reqs` from the
  database `start`; `Serves` is the run from a new one.
* `ServesFrom.invariant`, `ServesFrom.sanctioned_invariant` — the rules for invariants: each step is
  taken under the discipline of its request, each successful write is sanctioned.
* `ServesFrom.references` — a consistent database stays consistent.
* `ServesFrom.keeps` — the rule for what sanctioned writes keep: whatever a request has seen before it
  writes, it has seen in an earlier database of the same run (`Witnessed`), where the property held too.
* `ServesFrom.witnessed` — the same for a relation between the databases of a run.
* `Sequential host start reqs s` — the requests `reqs` (newest first) are served one after the other,
  each to its end or to some earlier step.
-/

import Wuflow.Invariants.References
import Wuflow.Requests.SanctionedServe

namespace Wuflow

open Calendar (Instant)
open Interleave (Prog Entry Event Run Steps Config OneAtATime own mem_own steps_append_iff
  steps_cons_iff)

/-! ### Runs from any database -/

section Runs

variable {ι : Type} [DecidableEq ι] {host : Host} {start : Store} {reqs : ι → Request}
  {trace : List (Step ι)} {s : Store} {current : ι → Backend Response}

/-- **A run of the backend** from a given database. -/
abbrev ServesFrom (host : Host) (start : Store) (reqs : ι → Request) (trace : List (Step ι))
    (s : Store) (current : ι → Backend Response) : Prop :=
  Run Query.perform start (fun i => serve host (reqs i)) trace s current

/-- **The rule for invariants.** -/
theorem ServesFrom.invariant (run : ServesFrom host start reqs trace s current)
    (inv : List (Step ι) → Store → Prop) (first : inv [] start)
    (each : ∀ (event : Step ι) past before after,
      Discipline host (reqs event.thread) (own event.thread past) event.query →
      event.query.Allowed host (reqs event.thread) (own event.thread past) →
      event.query.perform before event.answer after → inv past before → inv (event :: past) after) :
    inv trace s := by
  refine Run.invariant inv first (fun event past before pool after earlier here asks holds => ?_) run
  obtain ⟨next, asks⟩ := asks
  have obeyed : (pool event.thread).Obeys (Discipline host (reqs event.thread)) (fun _ _ => True)
      (own event.thread past) := earlier.obeys (serve_disciplined host (reqs event.thread))
  have allowed : (pool event.thread).Obeys (Query.Allowed host (reqs event.thread)) (fun _ _ => True)
      (own event.thread past) := earlier.obeys (serve_sanctioned host (reqs event.thread))
  rw [asks] at obeyed allowed
  exact each event past before after obeyed.1 allowed.1 here holds

/-- **The rule for invariants, by the kind of step**: a successful write is sanctioned, any other step
leaves the database alone. -/
theorem ServesFrom.sanctioned_invariant (run : ServesFrom host start reqs trace s current)
    (inv : List (Step ι) → Store → Prop) (first : inv [] start)
    (looks : ∀ (event : Step ι) past s, event.query.perform s event.answer s →
      (∀ w rows, event.entry ≠ ⟨.write w, .ok rows⟩) → inv past s → inv (event :: past) s)
    (writes : ∀ (thread : ι) w rows past before after,
      Sanctioned host (reqs thread) (own thread past) w → w.apply before = .ok (rows, after) →
      inv past before → inv (⟨thread, .write w, .ok rows⟩ :: past) after) : inv trace s := by
  refine run.invariant inv first fun event past before after _ allowed here holds => ?_
  rcases perform_cases here with ⟨w, rows, same, applied⟩ | ⟨same, other⟩
  · obtain ⟨thread, query, answer⟩ := event
    cases same
    exact writes thread w rows past before after allowed applied holds
  · rw [same] at here ⊢
    exact looks event past before here other holds

/-- **Every query of a run was allowed.** -/
theorem ServesFrom.allowed {later earlier : List (Step ι)} {event : Step ι}
    (run : ServesFrom host start reqs (later ++ event :: earlier) s current) :
    event.query.Allowed host (reqs event.thread) (own event.thread earlier) := by
  have local_ : (fun i => serve host (reqs i)) event.thread |>.Obeys
      (Query.Allowed host (reqs event.thread)) (fun _ _ => True) [] := serve_sanctioned host _
  exact Run.rule_of_event local_ run

theorem ServesFrom.disciplined {later earlier : List (Step ι)} {event : Step ι}
    (run : ServesFrom host start reqs (later ++ event :: earlier) s current) :
    Discipline host (reqs event.thread) (own event.thread earlier) event.query := by
  have local_ : (fun i => serve host (reqs i)) event.thread |>.Obeys
      (Discipline host (reqs event.thread)) (fun _ _ => True) [] := serve_disciplined host _
  exact Run.rule_of_event local_ run

/-- **A consistent database stays consistent**, and what the answers of the run vouch for stays true. -/
theorem ServesFrom.references (consistent : Consistent start)
    (run : ServesFrom host start reqs trace s current) : References trace s :=
  run.invariant References
    ⟨consistent, fun _ member => absurd member List.not_mem_nil,
      fun _ member => absurd member List.not_mem_nil⟩
    fun _ _ _ _ disciplined _ here references => references.step disciplined here

/-! ### What a request has seen -/

/-- Every answer of the history was given in an earlier database in which `kept` holds. -/
def Witnessed (kept : Store → Prop) (past : Past) (s : Store) : Prop :=
  ∀ entry ∈ past, ∃ t t', kept t ∧ entry.1.perform t entry.2 t' ∧ t'.Evolves s

/-- **What every sanctioned write keeps holds in every database of a run.** -/
theorem ServesFrom.keeps (run : ServesFrom host start reqs trace s current)
    (consistent : Consistent start) (kept : Store → Prop) (first : kept start)
    (writes : ∀ (thread : ι) w rows past before after, Sanctioned host (reqs thread) past w →
      Witnessed (fun t => Consistent t ∧ kept t) past before → w.apply before = .ok (rows, after) →
      Consistent before → kept before → kept after) : kept s := by
  suffices general : References trace s ∧ kept s ∧
      ∀ event ∈ trace, ∃ t t', (Consistent t ∧ kept t) ∧ event.query.perform t event.answer t' ∧
        t'.Evolves s from general.2.1
  refine run.invariant (fun past s => References past s ∧ kept s ∧
      ∀ event ∈ past, ∃ t t', (Consistent t ∧ kept t) ∧ event.query.perform t event.answer t' ∧
        t'.Evolves s) ?_ fun event past before after disciplined allowed here holds => ?_
  · exact ⟨⟨consistent, fun _ member => absurd member List.not_mem_nil,
      fun _ member => absurd member List.not_mem_nil⟩, first,
      fun _ member => absurd member List.not_mem_nil⟩
  · obtain ⟨references, kept_, seen⟩ := holds
    have witnessed : Witnessed (fun t => Consistent t ∧ kept t) (own event.thread past) before := by
      intro entry member
      obtain ⟨event', inside, _, rfl⟩ := mem_own.mp member
      exact seen event' inside
    refine ⟨references.step disciplined here, ?_, fun event' member => ?_⟩
    · rcases perform_cases here with ⟨w, rows, same, applied⟩ | ⟨rfl, _⟩
      · obtain ⟨thread, query, answer⟩ := event
        cases same
        exact writes thread w rows _ before after allowed witnessed applied references.consistent kept_
      · exact kept_
    · rcases List.mem_cons.mp member with rfl | member
      · exact ⟨before, after, ⟨references.consistent, kept_⟩, here, .refl after⟩
      · obtain ⟨t, t', holds, performed, evolves⟩ := seen event' member
        exact ⟨t, t', holds, performed, evolves.trans (perform_evolves here)⟩

/-- **What every write of a run relates to the database before it**, given that the database before it is
so related to each database in which its request has seen something: the earlier databases of the run are
all so related to the present one. -/
theorem ServesFrom.witnessed (run : ServesFrom host start reqs trace s current)
    (related : Store → Store → Prop) (refl : ∀ s, related s s)
    (trans : ∀ a b c, related a b → related b c → related a c)
    (writes : ∀ (thread : ι) w rows past before after, Sanctioned host (reqs thread) past w →
      Discipline host (reqs thread) past (.write w) →
      Witnessed (fun t => related t before) past before → w.apply before = .ok (rows, after) →
      related before after) :
    ∀ thread, Witnessed (fun t => related t s) (own thread trace) s := by
  suffices general : ∀ event ∈ trace, ∃ t t', related t s ∧ event.query.perform t event.answer t' ∧
      t'.Evolves s by
    intro thread entry member
    obtain ⟨event, inside, _, rfl⟩ := mem_own.mp member
    exact general event inside
  refine run.invariant (fun past s => ∀ event ∈ past, ∃ t t', related t s ∧
      event.query.perform t event.answer t' ∧ t'.Evolves s)
    (fun _ member => absurd member List.not_mem_nil)
    fun event past before after disciplined allowed here seen => ?_
  have step : related before after := by
    rcases perform_cases here with ⟨w, rows, same, applied⟩ | ⟨rfl, _⟩
    · obtain ⟨thread, query, answer⟩ := event
      cases same
      refine writes thread w rows _ before after allowed disciplined (fun entry member => ?_) applied
      obtain ⟨event', inside, _, rfl⟩ := mem_own.mp member
      exact seen event' inside
    · exact refl _
  intro event' member
  rcases List.mem_cons.mp member with rfl | member
  · exact ⟨before, after, step, here, .refl after⟩
  · obtain ⟨t, t', holds, performed, evolves⟩ := seen event' member
    exact ⟨t, t', trans _ _ _ holds step, performed, evolves.trans (perform_evolves here)⟩

theorem Witnessed.issue {kept : Store → Prop} {past : Past} (witnessed : Witnessed kept past s)
    {id projectID : Int} {issue : Issue} (loaded : LoadedIssue past id projectID issue) :
    ∃ t row tasks, kept t ∧ t.Evolves s ∧ t.issues.get? id = some row ∧ row.projectID = projectID ∧
      issue = { t.scanIssueRow id row with tasks } := by
  obtain ⟨found, tasks, rfl, member⟩ := loaded
  obtain ⟨t, t', holds, performed, evolves⟩ := witnessed _ member
  obtain ⟨answer, rfl⟩ := perform_read performed
  obtain ⟨row, here, rfl⟩ := Option.map_eq_some_iff.mp (Except.ok.inj answer).symm
  obtain ⟨here, inside⟩ := Option.filter_eq_some_iff.mp here
  exact ⟨t', row, tasks, holds, evolves, here, beq_iff_eq.mp inside, rfl⟩

/-- The copy of an issue that a handler works on has the id and the project it was loaded by. -/
theorem Witnessed.issue_columns {kept : Store → Prop} {past : Past}
    (witnessed : Witnessed (fun t => Consistent t ∧ kept t) past s) {id projectID : Int} {issue : Issue}
    (loaded : LoadedIssue past id projectID issue) : issue.id = id ∧ issue.projectID = projectID := by
  obtain ⟨t, row, tasks, ⟨consistent, _⟩, _, found, inside, rfl⟩ := witnessed.issue loaded
  exact ⟨rfl, (consistent.scanIssueRow_columns found).1.trans inside⟩

theorem Witnessed.release {kept : Store → Prop} {past : Past} (witnessed : Witnessed kept past s)
    {id projectID : Int} {release : Release} (loaded : LoadedRelease past id projectID release) :
    ∃ t row, kept t ∧ t.Evolves s ∧ t.releases.get? id = some row ∧ row.projectID = projectID ∧
      release = t.scanRelease id row := by
  obtain ⟨t, t', holds, performed, evolves⟩ := witnessed _ loaded
  obtain ⟨answer, rfl⟩ := perform_read performed
  obtain ⟨row, here, rfl⟩ := Option.map_eq_some_iff.mp (Except.ok.inj answer).symm
  obtain ⟨here, inside⟩ := Option.filter_eq_some_iff.mp here
  exact ⟨t', row, holds, evolves, here, beq_iff_eq.mp inside, rfl⟩

/-- The states around a step of a run satisfy a relation. -/
def Around (host : Host) (start : Store) (reqs : ι → Request) (later : List (Step ι)) (event : Step ι)
    (earlier : List (Step ι)) (s : Store) (relation : Store → Store → Prop) : Prop :=
  ∃ before pool after, ServesFrom host start reqs earlier before pool ∧
    event.query.perform before event.answer after ∧ Steps Query.perform after later s ∧
    relation before after

/-- What holds around every step of a trace. -/
def EveryStep (start : Store) (trace : List (Step ι)) (holds : Store → Step ι → Store → Prop) : Prop :=
  ∀ later event earlier before after, trace = later ++ event :: earlier →
    Steps Query.perform start earlier before → event.query.perform before event.answer after →
      holds before event after

omit [DecidableEq ι] in
theorem EveryStep.earlier {start : Store} {later earlier : List (Step ι)}
    {holds : Store → Step ι → Store → Prop} (every : EveryStep start (later ++ earlier) holds) :
    EveryStep start earlier holds := by
  rintro later' event earlier' before after rfl
  exact every (later ++ later') event earlier' before after (List.append_assoc _ _ _).symm

omit [DecidableEq ι] in
/-- The last step of a trace. -/
theorem EveryStep.last {start s : Store} {trace : List (Step ι)} {holds : Store → Step ι → Store → Prop}
    (every : EveryStep start trace holds) (steps : Steps Query.perform start trace s)
    (some_ : trace ≠ []) : ∃ before event, holds before event s := by
  cases steps with
  | refl => exact absurd rfl some_
  | step event steps here => exact ⟨_, _, every [] event _ _ _ rfl steps here⟩

/-- **Where requests are served one at a time, what a request has read before its first write still
holds.** -/
theorem unchanged_since {start before : Store} {event : Step ι} {past : List (Step ι)}
    (one : OneAtATime (event :: past)) (steps : Steps Query.perform start past before)
    (unwritten : Unwritten (own event.thread past)) {q : Select} {row : q.Row}
    (read : (⟨.read q, .ok row⟩ : Entry Query.Answer) ∈ own event.thread past) :
    row = q.eval before := by
  obtain ⟨event', member, same, entry⟩ := mem_own.mp read
  obtain ⟨between, earlier, rfl⟩ := List.append_of_mem member
  have alone : ∀ middle ∈ between, middle.thread = event.thread :=
    one [] event between event' earlier rfl same.symm
  obtain ⟨t', first, rest⟩ := steps_append_iff.mp steps
  obtain ⟨t, first, here⟩ := steps_cons_iff.mp first
  have kept : before = t' := by
    refine rest.keeps (fun s => s = t') (fun middle inside s s' here same => ?_) rfl
    rcases perform_cases here with ⟨w, rows, entry, _⟩ | ⟨rfl, _⟩
    · have written : middle.entry ∈ own event.thread (between ++ event' :: earlier) :=
        mem_own.mpr ⟨middle, List.mem_append_left _ inside, alone middle inside, rfl⟩
      exact absurd (congrArg Sigma.fst entry) (unwritten _ written w)
    · exact same
  obtain ⟨thread, query, answer⟩ := event'
  cases entry
  obtain ⟨answer, rfl⟩ := perform_read here
  rw [kept]
  exact Except.ok.inj answer

/-- A scheduled execution from a given database. -/
def executeFrom (host : Host) (start : Store) (reqs : ι → Request) (moves : List (ι × Input)) :
    Config ι Query.Answer Store Response :=
  (⟨[], start, fun i => serve host (reqs i)⟩ : Config ι Query.Answer Store Response).play
    Query.respond moves

theorem ServesFrom.of_moves (host : Host) (start : Store) (reqs : ι → Request)
    (moves : List (ι × Input)) :
    ServesFrom host start reqs (executeFrom host start reqs moves).past
      (executeFrom host start reqs moves).store (executeFrom host start reqs moves).current :=
  Run.of_schedule Query.perform_respond moves Run.nil

end Runs

/-! ### One request at a time -/

/-- A run of one request alone, to its end or to some earlier step. -/
abbrev ServesOne (host : Host) (start : Store) (req : Request) (trace : List (Step Unit)) (s : Store)
    (current : Unit → Backend Response) : Prop :=
  ServesFrom host start (fun _ => req) trace s current

/-- Alone, the whole trace is the local history. -/
theorem own_alone (trace : List (Step Unit)) : own () trace = trace.map Event.entry := by
  unfold own
  rw [← List.filterMap_eq_map]
  rfl

/-- **Requests served one after the other**, newest first. -/
inductive Sequential (host : Host) (start : Store) : List Request → Store → Prop
  | nil : Sequential host start [] start
  | serve {reqs : List Request} {req : Request} {trace : List (Step Unit)} {s s' : Store}
      {current : Unit → Backend Response} (earlier : Sequential host start reqs s)
      (run : ServesOne host s req trace s' current) : Sequential host start (req :: reqs) s'

theorem Sequential.consistent {host : Host} {start s : Store} {reqs : List Request}
    (consistent : Consistent start) (run : Sequential host start reqs s) : Consistent s := by
  induction run with
  | nil => exact consistent
  | serve _ run ih => exact (run.references ih).consistent

/-- A script: requests with the inputs of their steps, newest first, each served to its end before the
next one. -/
def executeAll (host : Host) (start : Store) : List (Request × List (Unit × Input)) → Store
  | [] => start
  | (req, moves) :: earlier =>
      (executeFrom host (executeAll host start earlier) (fun _ => req) moves).store

theorem Sequential.of_moves (host : Host) (start : Store)
    (script : List (Request × List (Unit × Input))) :
    Sequential host start (script.map Prod.fst) (executeAll host start script) := by
  induction script with
  | nil => exact .nil
  | cons entry earlier ih => exact .serve ih (ServesFrom.of_moves host _ (fun _ => entry.1) entry.2)

/-- The first user, and an issue of the default project. -/
def withCrash : List (Request × List (Unit × Input)) :=
  [(.createIssue sampleAdmin (some 1) (.json { title := "Crash", status := .todo }),
      stepsOf () 20 { instant := 2 }),
    (bootstrap, stepsOf () 9 { instant := 1, text := some "bcrypt:correct horse 7!" })]

/-- The request has succeeded. -/
def succeeded : Backend Response → Bool
  | .done response => response.status == 200
  | .ask _ _ => false

theorem succeeded_done {p : Backend Response} (ended : succeeded p = true) :
    ∃ response, p = .done response ∧ response.status = 200 := by
  cases p with
  | done response => exact ⟨response, rfl, beq_iff_eq.mp ended⟩
  | ask query next => exact nomatch ended

end Wuflow

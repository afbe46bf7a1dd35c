/-
**Closed releases are read-only, unless a trigger overtakes a PUT.**

A PUT reads the status of the release in one statement and updates the release in another, which does not
look at the status again. Between the two a trigger can close the release.

* `closedSince_of_closed`, `closed_of_closedSince` — a release that was open when the PUT read it is
  closed when the PUT writes it exactly if a trigger has closed it in between and no reopen followed.
* `closed_release_read_only` — in a run in which no PUT is so overtaken, no PUT changes a closed release.
* `closed_release_changed` — a PUT that is overtaken changes one.
-/

import Wuflow.Requests.Sequential
import Wuflow.Store.ReleaseSteps

namespace Wuflow

open Calendar (Instant)
open Interleave (Entry Event Run Steps Config own mem_own place_of_getElem? steps_nil_iff)
open Relational (Table)

/-! ### Closed releases -/

/-- The release is there, and closed. -/
def Closed (s : Store) (id : Int) : Prop :=
  ∃ row, s.releases.get? id = some row ∧ row.status = .closed

/-- The columns of a release that a PUT sets. -/
structure SameDetails (row row' : ReleaseRow) : Prop where
  name : row'.name = row.name
  description : row'.description = row.description
  startDate : row'.startDate = row.startDate
  releaseDate : row'.releaseDate = row.releaseDate
  ownerID : row'.ownerID = row.ownerID

/-- From `t` to `s` no closed release has changed. -/
def KeepsClosed (t s : Store) : Prop :=
  ∀ id row, t.releases.get? id = some row → row.status = .closed →
    ∃ row', s.releases.get? id = some row' ∧ SameDetails row row'

theorem KeepsClosed.of_releases {t s : Store} (same : s.releases = t.releases) : KeepsClosed t s :=
  fun _ row found _ => ⟨row, same ▸ found, rfl, rfl, rfl, rfl, rfl⟩

/-! ### Triggers and reopens -/

section Stretches

variable {ι : Type}

/-- A trigger closes the release. -/
def Closes (event : Step ι) (id : Int) : Prop :=
  ∃ now rows, event.entry = ⟨.write (.closeRelease id now), .ok rows⟩ ∧ rows ≠ 0

/-- A reopen leaves the release open. -/
def Reopens (event : Step ι) (id : Int) : Prop :=
  ∃ now rows, event.entry = ⟨.write (.reopenRelease id now), .ok rows⟩

/-- In a stretch of a run a trigger has closed the release, and no reopen followed. -/
def ClosedSince (stretch : List (Step ι)) (id : Int) : Prop :=
  ∃ late close early, stretch = late ++ close :: early ∧ Closes close id ∧
    ∀ event ∈ late, ¬ Reopens event id

theorem ClosedSince.cons {stretch : List (Step ι)} {id : Int} (since : ClosedSince stretch id)
    {event : Step ι} (kept : ¬ Reopens event id) : ClosedSince (event :: stretch) id := by
  obtain ⟨late, close, early, rfl, closes, none⟩ := since
  refine ⟨event :: late, close, early, rfl, closes, fun other member => ?_⟩
  rcases List.mem_cons.mp member with rfl | member
  · exact kept
  · exact none other member

variable {event : Step ι} {before after : Store} {id : Int}

/-- A release that is closed after a step was closed before it, or the step is a trigger. -/
theorem closed_step (here : event.query.perform before event.answer after)
    (given : id ≤ before.releases.seq) (closed : Closed after id) :
    (Closed before id ∧ ¬ Reopens event id) ∨ Closes event id := by
  obtain ⟨row', found, status⟩ := closed
  rcases perform_cases here with ⟨w, rows, entry, applied⟩ | ⟨rfl, other⟩
  · have named : event.entry = ⟨.write w, .ok rows⟩ := entry
    rcases Write.release_status applied found with ⟨_, _, new⟩ |
      ⟨row, here, ⟨now, rfl, _, effective⟩ | ⟨now, rfl, opened⟩ | ⟨others, same⟩⟩
    · exact absurd new (by unfold Table.nextId; omega)
    · cases old : row.status with
      | «open» => exact .inr ⟨now, rows, named, effective old⟩
      | closed =>
          refine .inl ⟨⟨row, here, old⟩, ?_⟩
          rintro ⟨_, _, reopened⟩
          exact nomatch named.symm.trans reopened
    · exact absurd (opened.symm.trans status) nofun
    · refine .inl ⟨⟨row, here, same.symm.trans status⟩, ?_⟩
      rintro ⟨now, _, reopened⟩
      cases named.symm.trans reopened
      exact (others now).2 rfl
  · refine .inl ⟨⟨row', found, status⟩, ?_⟩
    rintro ⟨now, rows, reopened⟩
    exact other _ _ reopened

/-- A release that is there after a step is closed if the step was a trigger, or if it was closed before
and the step is no reopen. -/
theorem closed_kept (here : event.query.perform before event.answer after)
    (given : id ≤ before.releases.seq) {row' : ReleaseRow} (found : after.releases.get? id = some row')
    (closed : (Closed before id ∧ ¬ Reopens event id) ∨ Closes event id) : Closed after id := by
  refine ⟨row', found, ?_⟩
  rcases perform_cases here with ⟨w, rows, entry, applied⟩ | ⟨rfl, other⟩
  · have named : event.entry = ⟨.write w, .ok rows⟩ := entry
    rcases Write.release_status applied found with ⟨_, _, new⟩ |
      ⟨row, here, ⟨now, rfl, status, _⟩ | ⟨now, rfl, _⟩ | ⟨others, same⟩⟩
    · exact absurd new (by unfold Table.nextId; omega)
    · exact status
    · rcases closed with ⟨_, kept⟩ | ⟨_, _, closes, _⟩
      · exact absurd ⟨now, rows, named⟩ kept
      · exact nomatch named.symm.trans closes
    · rcases closed with ⟨⟨old, here', status⟩, _⟩ | ⟨now, _, closes, _⟩
      · cases here.symm.trans here'
        exact same.trans status
      · cases named.symm.trans closes
        exact absurd rfl (others now).1
  · rcases closed with ⟨⟨old, here', status⟩, _⟩ | ⟨now, rows, closes, _⟩
    · cases found.symm.trans here'
      exact status
    · exact absurd closes (other _ _)

theorem releases_seq_le {t s : Store} {stretch : List (Step ι)}
    (steps : Steps Query.perform t stretch s) : t.releases.seq ≤ s.releases.seq :=
  (steps_evolve steps).releases.seq_le

/-- **Closed in between.** -/
theorem closedSince_of_closed {t s : Store} {stretch : List (Step ι)}
    (steps : Steps Query.perform t stretch s) (given : id ≤ t.releases.seq) (first : ¬ Closed t id)
    (last : Closed s id) : ClosedSince stretch id := by
  induction steps with
  | refl => exact absurd last first
  | @step stretch before after event steps here ih =>
      have given' := given.trans (releases_seq_le steps)
      rcases closed_step here given' last with ⟨closed, kept⟩ | closes
      · exact (ih closed).cons kept
      · exact ⟨[], event, stretch, rfl, closes, fun _ member => absurd member List.not_mem_nil⟩

/-- **Closed since.** -/
theorem closed_of_closedSince {t s : Store} {stretch : List (Step ι)}
    (steps : Steps Query.perform t stretch s) (given : id ≤ t.releases.seq) {row : ReleaseRow}
    (found : s.releases.get? id = some row) (since : ClosedSince stretch id) : Closed s id := by
  induction steps generalizing row with
  | refl =>
      obtain ⟨late, close, early, same, _⟩ := since
      cases late <;> cases same
  | @step stretch before after event steps here ih =>
      have given' := given.trans (releases_seq_le steps)
      refine closed_kept here given' found ?_
      obtain ⟨late, close, early, same, closes, none⟩ := since
      cases late with
      | nil =>
          cases same
          exact .inr closes
      | cons first late =>
          cases same
          obtain ⟨old, here', _⟩ := (perform_evolves here).releases.old id row given' found
          refine .inl ⟨ih here' ⟨late, close, early, rfl, closes, fun event member => ?_⟩, ?_⟩
          · exact none event (List.mem_cons_of_mem _ member)
          · exact none _ List.mem_cons_self

end Stretches

/-! ### Runs -/

section Runs

variable {ι : Type} [DecidableEq ι] {host : Host} {start s : Store} {reqs : ι → Request}
  {later earlier between : List (Step ι)} {event update read : Step ι}
  {current : ι → Backend Response} {id P : Int} {r release : Release} {rows : Int}

/-- A PUT updates a release that it has read as open. -/
structure Puts (update read : Step ι) (id : Int) : Prop where
  same : read.thread = update.thread
  updates : ∃ r rows, update.entry = ⟨.write (.updateRelease id r), .ok rows⟩
  reads : ∃ P release, read.entry = ⟨.read (.releaseByIDInProject id P), .ok (some release)⟩ ∧
    release.status ≠ .closed

/-- **No PUT is overtaken**: no trigger closes a release between a PUT's read and its update, unless the
release is reopened before the update. -/
def Unovertaken (trace : List (Step ι)) : Prop :=
  ∀ later update between read earlier id, trace = later ++ update :: (between ++ read :: earlier) →
    Puts update read id → ¬ ClosedSince between id

/-- The read of a PUT before its update. -/
theorem exists_read (run : ServesFrom host start reqs (later ++ update :: earlier) s current)
    (updates : update.entry = ⟨.write (.updateRelease id r), .ok rows⟩) :
    ∃ between read earlier', earlier = between ++ read :: earlier' ∧ Puts update read id := by
  obtain ⟨thread, query, answer⟩ := update
  cases updates
  have sanctioned : Sanctioned host (reqs thread) (own thread earlier) (.updateRelease id r) :=
    run.allowed
  generalize reqs thread = req at sanctioned
  cases sanctioned with
  | putRelease unwritten entered loaded open_ =>
      obtain ⟨read, member, same, entry⟩ := mem_own.mp loaded
      obtain ⟨between, earlier', rfl⟩ := List.append_of_mem member
      exact ⟨between, read, earlier', rfl, same, ⟨r, rows, rfl⟩, _, _, entry, open_⟩
  | session sessions => exact sessions.elim

/-- **A PUT finds the release closed exactly if it is overtaken.** -/
theorem closed_iff_overtaken
    (run : ServesFrom host start reqs (between ++ read :: earlier) s current)
    (puts : Puts update read id) {row : ReleaseRow} (found : s.releases.get? id = some row) :
    row.status = .closed ↔ ClosedSince between id := by
  obtain ⟨loaded, _, loaded', _, reads, steps⟩ := run.split
  obtain ⟨P, release, entry, open_⟩ := puts.reads
  obtain ⟨thread, query, answer⟩ := read
  cases entry
  obtain ⟨answer, rfl⟩ := perform_read reads
  obtain ⟨row', here, rfl⟩ := Option.map_eq_some_iff.mp (Except.ok.inj answer).symm
  obtain ⟨here, _⟩ := Option.filter_eq_some_iff.mp here
  have given := (Table.get?_le_seq here).2
  constructor
  · intro closed
    refine closedSince_of_closed steps given ?_ ⟨row, found, closed⟩
    rintro ⟨row'', here', closed⟩
    cases here.symm.trans here'
    exact open_ closed
  · intro since
    obtain ⟨row'', here', closed⟩ := closed_of_closedSince steps given found since
    cases found.symm.trans here'
    exact closed

/-- **Closed releases are read-only.** In every run in which no PUT is overtaken, no step of a PUT
changes a closed release. -/
theorem closed_release_read_only
    (run : ServesFrom host start reqs (later ++ event :: earlier) s current)
    (unovertaken : Unovertaken (later ++ event :: earlier))
    (put : ∃ caller pId id body, reqs event.thread = .putRelease caller pId id body) :
    Around host start reqs later event earlier s KeepsClosed := by
  obtain ⟨before, pool, after, run', here, rest⟩ := run.split
  refine ⟨before, pool, after, run', here, rest, ?_⟩
  rcases perform_cases here with ⟨w, rows, entry, applied⟩ | ⟨rfl, _⟩
  · have sanctioned := run.allowed
    obtain ⟨caller, pId, key, body, put⟩ := put
    obtain ⟨thread, query, answer⟩ := event
    cases entry
    rw [put] at sanctioned
    cases sanctioned with
    | @putRelease _ _ key _ _ _ _ r _ _ _ _ =>
        obtain ⟨between, read, earlier', rfl, puts⟩ := exists_read run rfl
        have spared := unovertaken later _ between read earlier' key rfl puts
        obtain ⟨_, rest⟩ := require_bind_ok.mp applied
        obtain ⟨_, rest⟩ := require_bind_ok.mp rest
        cases rest
        intro other row found closed
        have differs : (other == key) = false := by
          refine beq_false_of_ne fun same => ?_
          subst same
          exact spared ((closed_iff_overtaken run' puts found).mp closed)
        refine ⟨row, ?_, rfl, rfl, rfl, rfl, rfl⟩
        rw [Table.get?_update, found]
        simp [differs]
    | history records => exact nomatch records
    | session sessions =>
        obtain ⟨_, rfl⟩ := sessions.alone applied
        exact .of_releases rfl
  · exact .of_releases rfl

end Runs

/-! ### An overtaken PUT -/

/-- A release of the default project. -/
def withRelease : List (Request × List (Unit × Input)) :=
  [(.createRelease sampleAdmin (some 1) (.json { name := "1.0" }), stepsOf () 20 { instant := 2 }),
    (bootstrap, stepsOf () 9 { instant := 1, text := some "bcrypt:correct horse 7!" })]

/-- It is renamed and closed at the same time. -/
def renameAndClose : Fin 2 → Request
  | 0 => .putRelease sampleAdmin (some 1) (some 1) (.json { name := "2.0" })
  | 1 => .triggerRelease sampleAdmin (some 1) (some 1) (.json {})

/-- The PUT reads the release, the trigger takes `n` steps, and the PUT takes `m` more. -/
def renamed (n m : Nat) : Config (Fin 2) Query.Answer Store Response :=
  executeFrom sampleHost (executeAll sampleHost createTables withRelease) renameAndClose
    (stepsOf 0 2 { instant := 3 } ++ stepsOf 1 n { instant := 4 } ++ stepsOf 0 m { instant := 5 })

theorem renamed_run (n m : Nat) :
    ServesFrom sampleHost (executeAll sampleHost createTables withRelease) renameAndClose
      (renamed n m).past (renamed n m).store (renamed n m).current :=
  ServesFrom.of_moves sampleHost (executeAll sampleHost createTables withRelease) renameAndClose _

/-- The update of the PUT. -/
def renameUpdate : Step (Fin 2) :=
  ⟨0, .write (.updateRelease 1 { id := 1, projectID := 1, name := "2.0", updatedAt := 5 }), .ok 1⟩

/-- Without a trigger no PUT is overtaken. -/
theorem unovertaken_of_no_trigger {ι : Type} {trace : List (Step ι)}
    (none : ∀ event ∈ trace, ∀ id, ¬ Closes event id) : Unovertaken trace := by
  rintro later update between read earlier id rfl _ ⟨late, close, early, rfl, closes, _⟩
  exact none close (by simp) id closes

def Query.closesRelease : Query → Bool
  | .write (.closeRelease _ _) => true
  | _ => false

/-- The trigger comes after the update. -/
theorem closed_release_read_only_renamed :
    Around sampleHost (executeAll sampleHost createTables withRelease) renameAndClose [] renameUpdate
      ((renamed 3 2).past.drop 1) (renamed 3 2).store KeepsClosed := by
  have place : (renamed 3 2).past = [] ++ renameUpdate :: (renamed 3 2).past.drop 1 :=
    place_of_getElem? (show (renamed 3 2).past[0]? = some renameUpdate by decide +kernel)
  refine closed_release_read_only (place ▸ renamed_run 3 2) ?_ ⟨_, _, _, _, rfl⟩
  rw [← place]
  refine unovertaken_of_no_trigger fun event member id closes => ?_
  have none : (renamed 3 2).past.any (fun event => event.query.closesRelease) = false := by decide +kernel
  have other : ¬ event.query.closesRelease = true := List.any_eq_false.mp none event member
  obtain ⟨now, rows, entry, _⟩ := closes
  obtain ⟨thread, query, answer⟩ := event
  cases entry
  exact other rfl

/-- **A closed release is renamed.** -/
theorem closed_release_changed :
    ¬ ∀ (host : Host) (setup : List Request) (start s : Store) (reqs : Fin 2 → Request)
      (later earlier : List (Step (Fin 2))) (event : Step (Fin 2)) (current : Fin 2 → Backend Response),
      Sequential host createTables setup start →
      ServesFrom host start reqs (later ++ event :: earlier) s current →
      (∃ caller pId id body, reqs event.thread = .putRelease caller pId id body) →
      Around host start reqs later event earlier s KeepsClosed := by
  intro claim
  have place : (renamed 4 2).past = [] ++ renameUpdate :: (renamed 4 1).past := by decide +kernel
  obtain ⟨before, pool, after, run, _, rest, keeps⟩ := claim _ _ _ _ _ [] _ _ _
    (Sequential.of_moves sampleHost createTables withRelease) (place ▸ renamed_run 4 2)
    ⟨_, _, _, _, rfl⟩
  have started : before = (renamed 4 1).store :=
    run.steps.unique perform_unique (renamed_run 4 1).steps
  rw [started, ← steps_nil_iff.mp rest] at keeps
  have closed : ((renamed 4 1).store.releases.get? 1).map (fun row => (row.name, row.status)) =
      some ("1.0", .closed) := by decide +kernel
  obtain ⟨row, found, same⟩ := Option.map_eq_some_iff.mp closed
  obtain ⟨row', found', details⟩ := keeps 1 row found (congrArg Prod.snd same)
  have renamed_ : ((renamed 4 2).store.releases.get? 1).map ReleaseRow.name = some "2.0" := by
    decide +kernel
  rw [found'] at renamed_
  have name : row'.name = "1.0" := details.name.trans (congrArg Prod.fst same)
  exact absurd (name.symm.trans (Option.some.inj renamed_)) (by decide)

end Wuflow

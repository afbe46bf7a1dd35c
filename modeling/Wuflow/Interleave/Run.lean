/-
**Interleaved runs of a pool of programs over one store.**

Each thread of a pool runs its own program; a run interleaves their queries in any order, one
query a step. What a query does to the store is a parameter, the relation
`sem query store answer store'`. Nothing has to be fair or finite: a run may stop anywhere, so a
statement about every run is a statement about every reachable state.

The events of a run are listed **newest first**: `later ++ event :: earlier` is the run in which
`event` comes after everything in `earlier`.

* `Run.rule_of_event`, `Run.post_of_done` — a thread whose program obeys a rule (`Prog.Obeys`) asks
  every query of a run under it, read off the thread's own part of the trace (`own`).
* `Run.split` — the states before and after an event.
* `Run.invariant` — an invariant over states and traces.
* `Steps.keeps` — what every step of a stretch preserves.
* `Run.of_schedule` — a scheduled execution is a run.
-/

import Wuflow.Interleave.Program
import Mathlib.Logic.Function.Basic
import Mathlib.Order.Lattice

namespace Interleave

/-- One step of a run: the thread, its query and the answer it got. -/
structure Event (ι : Type) {Query : Type} (Answer : Query → Type) where
  thread : ι
  query : Query
  answer : Answer query

variable {ι Query : Type} {Answer : Query → Type} {S α : Type}

instance [DecidableEq ι] [DecidableEq Query] [∀ query, DecidableEq (Answer query)] :
    DecidableEq (Event ι Answer)
  | ⟨thread, query, answer⟩, ⟨thread', query', answer'⟩ =>
      if threads : thread = thread' then
        match decEq query query' with
        | .isTrue queries => decidable_of_iff (queries ▸ answer = answer') (by
            subst threads queries
            simp)
        | .isFalse differ => .isFalse (by rintro ⟨⟩; exact differ rfl)
      else .isFalse (by rintro ⟨⟩; exact threads rfl)

/-- The event without its thread. -/
def Event.entry (event : Event ι Answer) : Entry Answer := ⟨event.query, event.answer⟩

/-- An event of a trace and what comes after and before it. -/
theorem place_of_getElem? {past : List (Event ι Answer)} {i : Nat} {event : Event ι Answer}
    (here : past[i]? = some event) : past = past.take i ++ event :: past.drop (i + 1) := by
  obtain ⟨bound, rfl⟩ := List.getElem?_eq_some_iff.mp here
  rw [← List.drop_eq_getElem_cons bound, List.take_append_drop]

section Own

variable [DecidableEq ι]

/-- The local history of one thread in a trace. -/
def own (thread : ι) (past : List (Event ι Answer)) : List (Entry Answer) :=
  past.filterMap fun event => if event.thread = thread then some event.entry else none

@[simp] theorem own_nil (thread : ι) : own thread ([] : List (Event ι Answer)) = [] := rfl

theorem own_cons_self (event : Event ι Answer) (past : List (Event ι Answer)) :
    own event.thread (event :: past) = event.entry :: own event.thread past := by
  simp [own]

theorem own_cons_other {thread : ι} {event : Event ι Answer} (other : event.thread ≠ thread)
    (past : List (Event ι Answer)) : own thread (event :: past) = own thread past := by
  simp [own, other]

theorem own_append (thread : ι) (later earlier : List (Event ι Answer)) :
    own thread (later ++ earlier) = own thread later ++ own thread earlier := by
  simp [own]

/-- An entry of a thread's history is an event of the trace. -/
theorem mem_own {thread : ι} {past : List (Event ι Answer)} {entry : Entry Answer} :
    entry ∈ own thread past ↔ ∃ event ∈ past, event.thread = thread ∧ event.entry = entry := by
  simp only [own, List.mem_filterMap]
  constructor
  · rintro ⟨event, member, found⟩
    split at found
    · exact ⟨event, member, ‹_›, Option.some.inj found⟩
    · cases found
  · rintro ⟨event, member, same, found⟩
    exact ⟨event, member, by rw [if_pos same, found]⟩

theorem entry_mem_own {past : List (Event ι Answer)} {event : Event ι Answer}
    (member : event ∈ past) : event.entry ∈ own event.thread past :=
  mem_own.mpr ⟨event, member, rfl, rfl⟩

/-- A place in a thread's history is a place in the trace. -/
theorem own_eq_append_cons {thread : ι} {past : List (Event ι Answer)} {later earlier : List (Entry Answer)}
    {entry : Entry Answer} (history : own thread past = later ++ entry :: earlier) :
    ∃ later' event earlier', past = later' ++ event :: earlier' ∧ event.thread = thread ∧
      event.entry = entry ∧ own thread later' = later ∧ own thread earlier' = earlier := by
  induction past generalizing later with
  | nil => cases later <;> cases history
  | cons event past ih =>
      by_cases same : event.thread = thread
      · subst same
        rw [own_cons_self] at history
        cases later with
        | nil =>
            obtain ⟨here, rest⟩ := List.cons.inj history
            exact ⟨[], event, past, rfl, rfl, here, rfl, rest⟩
        | cons first later =>
            obtain ⟨here, rest⟩ := List.cons.inj history
            obtain ⟨later', event', earlier', rfl, same, found, own_, own'⟩ := ih rest
            refine ⟨event :: later', event', earlier', rfl, same, found, ?_, own'⟩
            rw [own_cons_self, here, own_]
      · rw [own_cons_other same] at history
        obtain ⟨later', event', earlier', rfl, same', found, own_, own'⟩ := ih history
        refine ⟨event :: later', event', earlier', rfl, same', found, ?_, own'⟩
        rw [own_cons_other same, own_]

/-- Two lists of values tagged with threads, the same for each thread, are the same up to the order. -/
theorem perm_of_threads {β : Type} [DecidableEq β] {xs ys : List (ι × β)}
    (same : ∀ thread, xs.filter (fun tagged => tagged.1 = thread) =
      ys.filter (fun tagged => tagged.1 = thread)) : xs.Perm ys := by
  rw [List.perm_iff_count]
  intro tagged
  have counted : ∀ zs : List (ι × β),
      (zs.filter fun other => other.1 = tagged.1).count tagged = zs.count tagged :=
    fun zs => List.count_filter (by simp)
  rw [← counted xs, same, counted]

/-- One thread at a time: between two events of a thread there are only events of this thread. -/
def OneAtATime (past : List (Event ι Answer)) : Prop :=
  ∀ later event between event' earlier, past = later ++ event :: (between ++ event' :: earlier) →
    event.thread = event'.thread → ∀ middle ∈ between, middle.thread = event.thread

omit [DecidableEq ι] in
theorem OneAtATime.earlier {later past : List (Event ι Answer)} (one : OneAtATime (later ++ past)) :
    OneAtATime past := by
  rintro later' event between event' earlier rfl
  exact one (later ++ later') event between event' earlier (List.append_assoc _ _ _).symm

omit [DecidableEq ι] in
/-- One thread after the other, in the order of the threads. -/
theorem oneAtATime_of_pairwise [LinearOrder ι] {past : List (Event ι Answer)}
    (ordered : (past.map Event.thread).Pairwise (· ≥ ·)) : OneAtATime past := by
  rintro later event between event' earlier rfl same middle member
  rw [List.map_append, List.map_cons, List.map_append, List.map_cons] at ordered
  have newest := List.pairwise_cons.mp (List.pairwise_append.mp ordered).2.1
  have above : event.thread ≥ middle.thread :=
    newest.1 _ (List.mem_append_left _ (List.mem_map_of_mem member))
  have below : middle.thread ≥ event'.thread :=
    (List.pairwise_append.mp newest.2).2.2 _ (List.mem_map_of_mem member) _ List.mem_cons_self
  exact le_antisymm above (same ▸ below)

end Own

/-! ### The store's part of a run -/

/-- The store's evolution along a stretch of events (newest first). -/
inductive Steps (sem : (query : Query) → S → Answer query → S → Prop) (start : S) :
    List (Event ι Answer) → S → Prop
  | refl : Steps sem start [] start
  | step {past : List (Event ι Answer)} {store store' : S} (event : Event ι Answer) :
      Steps sem start past store → sem event.query store event.answer store' →
        Steps sem start (event :: past) store'

section Steps

variable {sem : (query : Query) → S → Answer query → S → Prop} {start store : S}

theorem steps_nil_iff : Steps sem start ([] : List (Event ι Answer)) store ↔ store = start :=
  ⟨fun steps => by cases steps; rfl, fun same => same ▸ .refl⟩

theorem steps_cons_iff {event : Event ι Answer} {past : List (Event ι Answer)} :
    Steps sem start (event :: past) store ↔
      ∃ middle, Steps sem start past middle ∧ sem event.query middle event.answer store := by
  constructor
  · intro steps
    cases steps with
    | step _ before here => exact ⟨_, before, here⟩
  · rintro ⟨middle, before, here⟩
    exact .step event before here

/-- A stretch is its earlier part followed by its later part. -/
theorem steps_append_iff {later earlier : List (Event ι Answer)} :
    Steps sem start (later ++ earlier) store ↔
      ∃ middle, Steps sem start earlier middle ∧ Steps sem middle later store := by
  induction later generalizing store with
  | nil => simp [steps_nil_iff]
  | cons event later ih =>
      simp only [List.cons_append, steps_cons_iff, ih]
      constructor
      · rintro ⟨middle, ⟨first, before, between⟩, here⟩
        exact ⟨first, before, middle, between, here⟩
      · rintro ⟨first, before, middle, between, here⟩
        exact ⟨middle, ⟨first, before, between⟩, here⟩

/-- **What every step of a stretch preserves holds at its end.** -/
theorem Steps.keeps {past : List (Event ι Answer)} (steps : Steps sem start past store)
    (kept : S → Prop)
    (each : ∀ event ∈ past, ∀ before after, sem event.query before event.answer after →
      kept before → kept after) (first : kept start) : kept store := by
  induction steps with
  | refl => exact first
  | step event _ here ih =>
      exact each event List.mem_cons_self _ _ here
        (ih fun event' member => each event' (List.mem_cons_of_mem _ member))

/-- **A reflexive and transitive relation that holds of every step holds of a stretch.** -/
theorem Steps.relates {past : List (Event ι Answer)} (steps : Steps sem start past store)
    (rel : S → S → Prop) (refl : ∀ s, rel s s) (trans : ∀ s t u, rel s t → rel t u → rel s u)
    (each : ∀ event ∈ past, ∀ before after, sem event.query before event.answer after →
      rel before after) : rel start store :=
  steps.keeps (rel start)
    (fun event member before after here kept =>
      trans start before after kept (each event member before after here))
    (refl start)

/-- Where the queries and their answers determine the stores, a stretch has one end. -/
theorem Steps.unique
    (determined : ∀ query before answer first second, sem query before answer first →
      sem query before answer second → first = second)
    {past : List (Event ι Answer)} {other : S} (steps : Steps sem start past store)
    (steps' : Steps sem start past other) : store = other := by
  induction steps generalizing other with
  | refl => exact (steps_nil_iff.mp steps').symm
  | step event _ here ih =>
      obtain ⟨middle, before, here'⟩ := steps_cons_iff.mp steps'
      rw [← ih before] at here'
      exact determined event.query _ event.answer _ _ here here'

/-- **A turning point.** What does not hold at the start of a stretch but holds at its end was brought
about by an event, and has held ever since the last such event. -/
theorem Steps.turning_point {past : List (Event ι Answer)} (steps : Steps sem start past store)
    (holds : S → Prop) (first : ¬ holds start) (last : holds store) :
    ∃ later event earlier before after, past = later ++ event :: earlier ∧
      Steps sem start earlier before ∧ sem event.query before event.answer after ∧
      Steps sem after later store ∧ ¬ holds before ∧ holds after := by
  induction steps with
  | refl => exact absurd last first
  | @step past before after event steps here ih =>
      by_cases already : holds before
      · obtain ⟨later, event', earlier, before', after', rfl, steps', here', rest, turn⟩ := ih already
        exact ⟨event :: later, event', earlier, before', after', rfl, steps', here',
          .step event rest here, turn⟩
      · exact ⟨[], event, past, before, after, rfl, steps, here, .refl, already, last⟩

end Steps

/-! ### Runs -/

section Run

variable [DecidableEq ι]

/-- **An interleaved run** from a store and a pool, with its events newest first. -/
inductive Run (sem : (query : Query) → S → Answer query → S → Prop) (start : S)
    (pool : ι → Prog Answer α) : List (Event ι Answer) → S → (ι → Prog Answer α) → Prop
  | nil : Run sem start pool [] start pool
  | step {past : List (Event ι Answer)} {store store' : S} {current : ι → Prog Answer α}
      (thread : ι) {query : Query} {next : Answer query → Prog Answer α} (answer : Answer query) :
      Run sem start pool past store current → current thread = .ask query next →
        sem query store answer store' →
        Run sem start pool (⟨thread, query, answer⟩ :: past) store'
          (Function.update current thread (next answer))

variable {sem : (query : Query) → S → Answer query → S → Prop} {start store : S}
  {pool current : ι → Prog Answer α} {past : List (Event ι Answer)}

namespace Run

theorem steps (run : Run sem start pool past store current) : Steps sem start past store := by
  induction run with
  | nil => exact .refl
  | step thread answer _ _ here ih => exact .step _ ih here

/-- Every earlier part of a run is a run. -/
theorem prefix_run {later earlier : List (Event ι Answer)}
    (run : Run sem start pool (later ++ earlier) store current) :
    ∃ middle pool', Run sem start pool earlier middle pool' ∧ Steps sem middle later store := by
  induction later generalizing store current with
  | nil => exact ⟨store, current, run, .refl⟩
  | cons event later ih =>
      cases run with
      | step thread answer before _ here =>
          obtain ⟨middle, pool', earlier', between⟩ := ih before
          exact ⟨middle, pool', earlier', .step _ between here⟩

/-- **The states around an event**: the run before it, its own step, and the stretch after it. -/
theorem split {later earlier : List (Event ι Answer)} {event : Event ι Answer}
    (run : Run sem start pool (later ++ event :: earlier) store current) :
    ∃ before pool' after, Run sem start pool earlier before pool' ∧
      sem event.query before event.answer after ∧ Steps sem after later store := by
  obtain ⟨after, pool'', middle, between⟩ := prefix_run run
  cases middle with
  | step thread answer before _ here => exact ⟨_, _, after, before, here, between⟩

/-- **The rule of inversion**: each thread's program obeys its discipline along its own history. -/
theorem obeys {rule : List (Entry Answer) → Query → Prop} {post : List (Entry Answer) → α → Prop}
    {thread : ι} (local_ : (pool thread).Obeys rule post [])
    (run : Run sem start pool past store current) :
    (current thread).Obeys rule post (own thread past) := by
  induction run with
  | nil => exact local_
  | @step past store store' current mover query next answer before asks here ih =>
      by_cases same : mover = thread
      · subst same
        rw [asks] at ih
        rw [Function.update_self]
        have history : own mover (⟨mover, query, answer⟩ :: past) =
            ⟨query, answer⟩ :: own mover past := own_cons_self (⟨mover, query, answer⟩) past
        rw [history]
        exact ih.2 answer
      · rw [Function.update_of_ne (Ne.symm same), own_cons_other same]
        exact ih

/-- **Every query of a run was allowed** by its thread's rule, at the thread's history before it. -/
theorem rule_of_event {rule : List (Entry Answer) → Query → Prop}
    {post : List (Entry Answer) → α → Prop} {later earlier : List (Event ι Answer)}
    {event : Event ι Answer} (local_ : (pool event.thread).Obeys rule post [])
    (run : Run sem start pool (later ++ event :: earlier) store current) :
    rule (own event.thread earlier) event.query := by
  obtain ⟨_, _, tail, _⟩ := prefix_run run
  cases tail with
  | step thread answer before asks here =>
      have obeyed := before.obeys local_
      rw [asks] at obeyed
      exact obeyed.1

/-- **A returned value satisfies its thread's postcondition** at the thread's whole history. -/
theorem post_of_done {rule : List (Entry Answer) → Query → Prop}
    {post : List (Entry Answer) → α → Prop} {thread : ι} {value : α}
    (local_ : (pool thread).Obeys rule post []) (run : Run sem start pool past store current)
    (finished : current thread = .done value) : post (own thread past) value := by
  have obeyed := run.obeys local_
  rw [finished] at obeyed
  exact obeyed

/-- **Invariants over states and traces.** -/
theorem invariant (inv : List (Event ι Answer) → S → Prop) (first : inv [] start)
    (each : ∀ (event : Event ι Answer) past before pool' after,
      Run sem start pool past before pool' → sem event.query before event.answer after →
      (∃ next, pool' event.thread = .ask event.query next) →
      inv past before → inv (event :: past) after)
    (run : Run sem start pool past store current) : inv past store := by
  induction run with
  | nil => exact first
  | step thread answer before asks here ih =>
      exact each ⟨thread, _, answer⟩ _ _ _ _ before here ⟨_, asks⟩ ih

/-- Invariants over runs of programs that ask nothing but allowed queries. -/
theorem asks_invariant {allowed : ι → Query → Prop}
    (asks : ∀ thread, (pool thread).Asks (allowed thread)) (inv : List (Event ι Answer) → S → Prop)
    (first : inv [] start)
    (each : ∀ (event : Event ι Answer) past before after, allowed event.thread event.query →
      sem event.query before event.answer after → inv past before → inv (event :: past) after)
    (run : Run sem start pool past store current) : inv past store := by
  refine run.invariant inv first fun event past before pool' after earlier here asked holds => ?_
  obtain ⟨next, asked⟩ := asked
  have obeyed : (pool' event.thread).Obeys (fun _ => allowed event.thread) (fun _ _ => True)
      (own event.thread past) := earlier.obeys (.of_asks (asks event.thread) fun _ _ here => here)
  rw [asked] at obeyed
  exact each event past before after obeyed.1 here holds

end Run

/-! ### Scheduled executions -/

/-- A configuration of a scheduled execution. -/
structure Config (ι : Type) {Query : Type} (Answer : Query → Type) (S α : Type) where
  past : List (Event ι Answer)
  store : S
  current : ι → Prog Answer α

/-- Let `thread` take its next step, answered by `respond`; a finished thread does nothing. -/
def Config.advance {Input : Type} (respond : (query : Query) → Input → S → Answer query × S)
    (config : Config ι Answer S α) (move : ι × Input) : Config ι Answer S α :=
  match config.current move.1 with
  | .done _ => config
  | .ask query next =>
      ⟨⟨move.1, query, (respond query move.2 config.store).1⟩ :: config.past,
        (respond query move.2 config.store).2,
        Function.update config.current move.1 (next (respond query move.2 config.store).1)⟩

/-- A whole schedule, oldest move first. -/
def Config.play {Input : Type} (respond : (query : Query) → Input → S → Answer query × S)
    (config : Config ι Answer S α) (moves : List (ι × Input)) : Config ι Answer S α :=
  moves.foldl (Config.advance respond) config

/-- **A scheduled execution is a run**, when its responses are the store's. -/
theorem Run.of_schedule {Input : Type}
    {respond : (query : Query) → Input → S → Answer query × S}
    (sound : ∀ query input s, sem query s (respond query input s).1 (respond query input s).2)
    (moves : List (ι × Input)) {config : Config ι Answer S α}
    (run : Run sem start pool config.past config.store config.current) :
    Run sem start pool (config.play respond moves).past (config.play respond moves).store
      (config.play respond moves).current := by
  induction moves generalizing config with
  | nil => exact run
  | cons move moves ih =>
      refine ih ?_
      unfold Config.advance
      split
      · exact run
      · next query next asks =>
          exact .step move.1 _ run asks (sound _ _ _)

end Run

end Interleave

/-
**Programs on an event loop.**

A `Machine` is a program that runs to completion on an event loop, as a browser runs a script. A call
acts on the shared state at once and leaves continuations pending; a pending continuation is resumed
when the answer it waits for arrives, acts on the state of that moment, and may leave new ones. Either
may be impossible in a state (`none`).

A `Run` interleaves calls and arrivals in any order; nothing has to be fair, so a statement about every
run is a statement about every reachable state. Its moves are listed **newest first**, and `allowed` says
which moves are considered (`fun _ _ _ => True` for all).

* `Run.invariant` — an invariant over moves, states and pending continuations.
* `Run.keeps` — an invariant of the state together with a fact about each pending continuation.
* `Run.split` — the states around a move.
* `Run.of_choices` — a schedule of calls and arrivals, each of which passes a check, is a run.
-/

import Mathlib.Tactic.Common

namespace EventLoop

/-- A program on an event loop. -/
structure Machine (S Call Task Answer : Type) where
  call : Call → S → Option (S × List Task)
  resume : Task → Answer → S → Option (S × List Task)

/-- A move of a run. -/
inductive Move (Call Task Answer : Type)
  | call (c : Call)
  | resume (t : Task) (a : Answer)

variable {S Call Task Answer : Type}

/-- **One move**: a call, or the arrival of an answer at one of the pending continuations. -/
inductive Step (m : Machine S Call Task Answer) (s : S) :
    List Task → Move Call Task Answer → S → List Task → Prop
  | call {pending new : List Task} {c : Call} {s' : S} (acts : m.call c s = some (s', new)) :
      Step m s pending (.call c) s' (pending ++ new)
  | resume {before after new : List Task} {t : Task} {a : Answer} {s' : S}
      (acts : m.resume t a s = some (s', new)) :
      Step m s (before ++ t :: after) (.resume t a) s' (before ++ after ++ new)

/-- **A run**: the moves so far, the state and the pending continuations. -/
inductive Run (m : Machine S Call Task Answer)
    (allowed : S → List Task → Move Call Task Answer → Prop) (start : S) :
    List (Move Call Task Answer) → S → List Task → Prop
  | nil : Run m allowed start [] start []
  | step {past : List (Move Call Task Answer)} {s s' : S} {pending pending' : List Task}
      {move : Move Call Task Answer} (earlier : Run m allowed start past s pending)
      (ok : allowed s pending move) (here : Step m s pending move s' pending') :
      Run m allowed start (move :: past) s' pending'

/-- A pending continuation is the one that is resumed or one of the rest. -/
theorem mem_pending {before after : List Task} {t u : Task} :
    u ∈ before ++ t :: after ↔ u = t ∨ u ∈ before ++ after := by
  simp only [List.mem_append, List.mem_cons]
  constructor
  · rintro (left | rfl | right)
    · exact .inr (.inl left)
    · exact .inl rfl
    · exact .inr (.inr right)
  · rintro (rfl | left | right)
    · exact .inr (.inl rfl)
    · exact .inl left
    · exact .inr (.inr right)

theorem countP_pending (p : Task → Bool) (before after : List Task) (t : Task) :
    (before ++ t :: after).countP p = (before ++ after).countP p + if p t = true then 1 else 0 := by
  rw [List.countP_append, List.countP_append, List.countP_cons]
  omega

/-- Where at most one continuation counts, the rest does not. -/
theorem not_of_countP_le_one {p : Task → Bool} {before after : List Task} {t : Task}
    (one : (before ++ t :: after).countP p ≤ 1) (here : p t = true) :
    ∀ u ∈ before ++ after, ¬ p u = true := by
  rw [countP_pending, if_pos here] at one
  exact List.countP_eq_zero.mp (by omega)

namespace Run

variable {m : Machine S Call Task Answer} {allowed other : S → List Task → Move Call Task Answer → Prop}
  {start s : S} {past : List (Move Call Task Answer)} {pending : List Task}

theorem mono (run : Run m allowed start past s pending)
    (weaker : ∀ s pending move, allowed s pending move → other s pending move) :
    Run m other start past s pending := by
  induction run with
  | nil => exact .nil
  | step _ ok here ih => exact .step ih (weaker _ _ _ ok) here

/-- **Invariants over moves, states and pending continuations.** -/
theorem invariant (run : Run m allowed start past s pending)
    (inv : List (Move Call Task Answer) → S → List Task → Prop) (first : inv [] start [])
    (each : ∀ past s pending move s' pending', Run m allowed start past s pending →
      allowed s pending move → Step m s pending move s' pending' → inv past s pending →
      inv (move :: past) s' pending') : inv past s pending := by
  induction run with
  | nil => exact first
  | step earlier ok here ih => exact each _ _ _ _ _ _ earlier ok here ih

/-- What a move keeps: the invariant of the state, and the fact of each continuation, old or new. -/
structure Keeps (inv : S → Prop) (fact : S → Task → Prop) (s s' : S) (new : List Task) : Prop where
  state : inv s'
  new : ∀ t ∈ new, fact s' t
  pending : ∀ t, fact s t → fact s' t

/-- **An invariant of the state and a fact about each pending continuation.** -/
theorem keeps (run : Run m allowed start past s pending) (inv : S → Prop) (fact : S → Task → Prop)
    (first : inv start)
    (call : ∀ s pending c s' new, allowed s pending (.call c) → m.call c s = some (s', new) → inv s →
      (∀ t ∈ pending, fact s t) → Keeps inv fact s s' new)
    (resume : ∀ s pending t a s' new, allowed s pending (.resume t a) →
      m.resume t a s = some (s', new) → inv s → (∀ t ∈ pending, fact s t) → fact s t →
      Keeps inv fact s s' new) :
    inv s ∧ ∀ t ∈ pending, fact s t := by
  refine run.invariant (fun _ s pending => inv s ∧ ∀ t ∈ pending, fact s t)
    ⟨first, fun _ member => absurd member List.not_mem_nil⟩
    fun past s pending move s' pending' _ ok here holds => ?_
  obtain ⟨state, facts⟩ := holds
  cases here with
  | call acts =>
      have kept := call _ _ _ _ _ ok acts state facts
      refine ⟨kept.state, fun t member => ?_⟩
      rcases List.mem_append.mp member with old | new
      · exact kept.pending t (facts t old)
      · exact kept.new t new
  | resume acts =>
      have kept := resume _ _ _ _ _ _ ok acts state facts (facts _ (mem_pending.mpr (.inl rfl)))
      refine ⟨kept.state, fun t member => ?_⟩
      rcases List.mem_append.mp member with old | new
      · exact kept.pending t (facts t (mem_pending.mpr (.inr old)))
      · exact kept.new t new

/-- **The states around a move** of a run. -/
theorem split {later earlier : List (Move Call Task Answer)} {move : Move Call Task Answer}
    (run : Run m allowed start (later ++ move :: earlier) s pending) :
    ∃ before waiting after waiting', Run m allowed start earlier before waiting ∧
      allowed before waiting move ∧ Step m before waiting move after waiting' ∧
      Run m allowed start (move :: earlier) after waiting' := by
  induction later generalizing s pending with
  | nil =>
      cases run with
      | step before ok here => exact ⟨_, _, _, _, before, ok, here, .step before ok here⟩
  | cons last later ih =>
      cases run with
      | step before _ _ => exact ih before

end Run

/-! ### Schedules -/

/-- A choice of a schedule: a call, or an answer for one of the pending continuations. -/
inductive Choice (Call Answer : Type)
  | call (c : Call)
  | resume (i : Nat) (a : Answer)

/-- A configuration of a scheduled run. -/
structure Config (S Call Task Answer : Type) where
  past : List (Move Call Task Answer)
  state : S
  pending : List Task

/-- Make a choice; one that is impossible or fails the check changes nothing. -/
def Config.advance (m : Machine S Call Task Answer)
    (check : S → List Task → Move Call Task Answer → Bool) (config : Config S Call Task Answer) :
    Choice Call Answer → Config S Call Task Answer
  | .call c =>
      match check config.state config.pending (.call c), m.call c config.state with
      | true, some (s', new) => ⟨.call c :: config.past, s', config.pending ++ new⟩
      | _, _ => config
  | .resume i a =>
      match config.pending[i]? with
      | none => config
      | some t =>
          match check config.state config.pending (.resume t a), m.resume t a config.state with
          | true, some (s', new) =>
              ⟨.resume t a :: config.past, s',
                config.pending.take i ++ config.pending.drop (i + 1) ++ new⟩
          | _, _ => config

/-- A whole schedule, oldest choice first. -/
def Machine.play (m : Machine S Call Task Answer)
    (check : S → List Task → Move Call Task Answer → Bool) (start : S)
    (choices : List (Choice Call Answer)) : Config S Call Task Answer :=
  choices.foldl (Config.advance m check) ⟨[], start, []⟩

section Schedules

variable {m : Machine S Call Task Answer} {check : S → List Task → Move Call Task Answer → Bool}

/-- A choice is a move that passes the check, or impossible. -/
theorem Config.advance_step (config : Config S Call Task Answer) (choice : Choice Call Answer) :
    config.advance m check choice = config ∨ ∃ move,
      (config.advance m check choice).past = move :: config.past ∧
      check config.state config.pending move = true ∧
      Step m config.state config.pending move (config.advance m check choice).state
        (config.advance m check choice).pending := by
  cases choice with
  | call c =>
      simp only [Config.advance]
      split
      · exact .inr ⟨_, rfl, ‹_›, .call ‹_›⟩
      · exact .inl rfl
  | resume i a =>
      simp only [Config.advance]
      split
      · exact .inl rfl
      · next t found =>
          split
          · next s' new ok acts =>
              obtain ⟨bound, rfl⟩ := List.getElem?_eq_some_iff.mp found
              have place : config.pending =
                  config.pending.take i ++ config.pending[i] :: config.pending.drop (i + 1) := by
                rw [← List.drop_eq_getElem_cons bound, List.take_append_drop]
              have here : Step m config.state
                  (config.pending.take i ++ config.pending[i] :: config.pending.drop (i + 1))
                  (.resume config.pending[i] a) s'
                  (config.pending.take i ++ config.pending.drop (i + 1) ++ new) := .resume acts
              rw [← place] at here
              exact .inr ⟨_, rfl, ok, here⟩
          · exact .inl rfl

/-- **A schedule is a run** whose moves pass the check. -/
theorem Run.of_choices (start : S) (choices : List (Choice Call Answer)) :
    Run m (fun s pending move => check s pending move = true) start
      (m.play check start choices).past (m.play check start choices).state
      (m.play check start choices).pending := by
  suffices general : ∀ config : Config S Call Task Answer,
      Run m (fun s pending move => check s pending move = true) start config.past config.state
        config.pending →
      Run m (fun s pending move => check s pending move = true) start
        (choices.foldl (Config.advance m check) config).past
        (choices.foldl (Config.advance m check) config).state
        (choices.foldl (Config.advance m check) config).pending from general ⟨[], start, []⟩ .nil
  induction choices with
  | nil => exact fun _ run => run
  | cons choice choices ih =>
      refine fun config run => ih _ ?_
      rcases config.advance_step choice with same | ⟨move, past, ok, here⟩
      · rw [same]
        exact run
      · rw [past]
        exact .step run ok here

end Schedules

end EventLoop

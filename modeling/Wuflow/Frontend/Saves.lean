/-
**Overlapping saves** (`utils.js`).

`markBusy` runs a save with its field marked `aria-busy` and its keys blocked, and counts the saves of each
field, so that the last one frees it. `singleFlight` lets the calls made during a run share the promise of
that run, and `guardSubmit` puts one around the other. A save is called, returns a promise or throws, its
promise settles, and the clean-up of the wrapper and the promises of the callers follow one by one; anything
else may happen in between.

* `marked` — what a field shows is the number of its saves that are running.
* `flying` — a wrapper has at most one run, and holds the promise of that run.
* `settling` — a promise settles with the outcome of its run, which has one outcome.
* `saves_guarded` — all of them for every run, with what the next call of a wrapper does.
-/

import Wuflow.Interleave.EventLoop
import Mathlib.Logic.Function.Basic

set_option linter.unusedSectionVars false

namespace Wuflow.Saves

open EventLoop (Machine Move Step Run mem_pending countP_pending not_of_countP_le_one)

/-! ### The page -/

/-- How a wrapper was made. -/
inductive Wrapping (Field : Type)
  | singleFlight
  | guardSubmit (field : Option Field)

/-- The field that a wrapper passes to `markBusy`; `singleFlight` alone marks none. -/
def Wrapping.field {Field : Type} : Wrapping Field → Option Field
  | .singleFlight => none
  | .guardSubmit field => field

/-- A call of `markBusy`, with the field or `null`, or of a wrapper. -/
inductive Call (Field Wrapper : Type)
  | markBusy (field : Option Field)
  | submit (w : Wrapper)
  deriving DecidableEq

/-- What the saves read and write. A field without an entry in `busySaves` has no saves; `listeners` are
the types for which `blockWhileBusy` listens, `returned` the promises that the callers got, named by their
runs, and `settled` what they have settled with. -/
structure Page (Field Wrapper Error Value : Type) where
  busySaves : Field → Int := fun _ => 0
  ariaBusy : Field → Bool := fun _ => false
  listeners : Field → List String := fun _ => []
  inFlight : Wrapper → Option Nat := fun _ => none
  runs : Nat := 0
  returned : List (Call Field Wrapper × Nat) := []
  settled : Nat → Option (Except Error Value) := fun _ => none

/-- What has not come to its end: the function of a run has been called, and has not returned; its promise
has not settled; the `finally` of `singleFlight` is due; the promise of the callers is about to settle. -/
inductive Task (Field Wrapper Error Value : Type)
  | starting (c : Call Field Wrapper) (run : Nat)
  | save (c : Call Field Wrapper) (run : Nat)
  | cleanup (w : Wrapper) (run : Nat) (outcome : Except Error Value)
  | settle (run : Nat) (outcome : Except Error Value)

/-- What happens to a task: its function returns a promise or throws, the promise settles, or it is its
turn. -/
inductive Event (Error Value : Type)
  | promise
  | threw (error : Error)
  | settled (outcome : Except Error Value)
  | turn

variable {Field Wrapper Error Value : Type}

/-- The field that a call marks. -/
def Call.field (wrapped : Wrapper → Wrapping Field) : Call Field Wrapper → Option Field
  | .markBusy field => field
  | .submit w => (wrapped w).field

/-- The wrapper that is called. -/
def Call.wrapper : Call Field Wrapper → Option Wrapper
  | .markBusy _ => none
  | .submit w => some w

/-- Where the outcome of a save goes: through the `finally` of `singleFlight`, or to the caller. -/
def Call.after (c : Call Field Wrapper) (run : Nat) (outcome : Except Error Value) :
    Task Field Wrapper Error Value :=
  match c with
  | .markBusy _ => .settle run outcome
  | .submit w => .cleanup w run outcome

namespace Task

/-- The field that a task keeps busy. -/
def field (wrapped : Wrapper → Wrapping Field) : Task Field Wrapper Error Value → Option Field
  | starting c _ => c.field wrapped
  | save c _ => c.field wrapped
  | cleanup _ _ _ => none
  | settle _ _ => none

/-- The wrapper whose run a task belongs to, until the clean-up. -/
def wrapper : Task Field Wrapper Error Value → Option Wrapper
  | starting c _ => c.wrapper
  | save c _ => c.wrapper
  | cleanup w _ _ => some w
  | settle _ _ => none

def run : Task Field Wrapper Error Value → Nat
  | starting _ n => n
  | save _ n => n
  | cleanup _ n _ => n
  | settle n _ => n

/-- Whether there is a promise of the run. -/
def promised : Task Field Wrapper Error Value → Bool
  | starting _ _ => false
  | save _ _ => true
  | cleanup _ _ _ => true
  | settle _ _ => true

/-- The outcome that a task hands on. -/
def outcome : Task Field Wrapper Error Value → Option (Except Error Value)
  | starting _ _ => none
  | save _ _ => none
  | cleanup _ _ o => some o
  | settle _ o => some o

end Task

/-! ### The page as a machine -/

variable [DecidableEq Field] [DecidableEq Wrapper]

/-- `addEventListener` of `blockWhileBusy`, which is not added twice. -/
def addListener (types : List String) (type : String) : List String :=
  if type ∈ types then types else types ++ [type]

def removeListener (types : List String) (type : String) : List String :=
  types.filter (· != type)

/-- The events that a busy field ignores. -/
def blocked : List String := ["beforeinput", "keydown", "keyup"]

/-- `markBusy`, before `fn` is called. -/
def Page.mark (s : Page Field Wrapper Error Value) : Option Field → Page Field Wrapper Error Value
  | none => s
  | some f =>
      let running := s.busySaves f
      let counted := { s with busySaves := Function.update s.busySaves f (running + 1) }
      if running = 0 then
        { counted with
          ariaBusy := Function.update s.ariaBusy f true
          listeners := Function.update s.listeners f (blocked.foldl addListener (s.listeners f)) }
      else counted

/-- The `finally` of `markBusy`. -/
def Page.unmark (s : Page Field Wrapper Error Value) : Option Field → Page Field Wrapper Error Value
  | none => s
  | some f =>
      let left := s.busySaves f - 1
      let counted := { s with busySaves := Function.update s.busySaves f left }
      if left = 0 then
        { counted with
          ariaBusy := Function.update s.ariaBusy f false
          listeners := Function.update s.listeners f (blocked.foldl removeListener (s.listeners f)) }
      else counted

/-- The promise of a run goes to its caller, and to the wrapper that made it. -/
def Page.give (s : Page Field Wrapper Error Value) (c : Call Field Wrapper) (run : Nat) :
    Page Field Wrapper Error Value :=
  match c with
  | .markBusy _ => { s with returned := (c, run) :: s.returned }
  | .submit w =>
      { s with inFlight := Function.update s.inFlight w (some run), returned := (c, run) :: s.returned }

/-- A call, up to the call of `fn`. -/
def Page.start (wrapped : Wrapper → Wrapping Field) (s : Page Field Wrapper Error Value)
    (c : Call Field Wrapper) : Page Field Wrapper Error Value × List (Task Field Wrapper Error Value) :=
  ({ s.mark (c.field wrapped) with runs := s.runs + 1 }, [.starting c s.runs])

/-- A caller joins the run that is in flight (`inFlight ??= …`). -/
def Page.call (wrapped : Wrapper → Wrapping Field) (s : Page Field Wrapper Error Value) :
    Call Field Wrapper → Page Field Wrapper Error Value × List (Task Field Wrapper Error Value)
  | .markBusy field => s.start wrapped (.markBusy field)
  | .submit w =>
      match s.inFlight w with
      | some run => ({ s with returned := (.submit w, run) :: s.returned }, [])
      | none => s.start wrapped (.submit w)

def Page.resume (wrapped : Wrapper → Wrapping Field) (s : Page Field Wrapper Error Value) :
    Task Field Wrapper Error Value → Event Error Value →
      Option (Page Field Wrapper Error Value × List (Task Field Wrapper Error Value))
  | .starting c run, .promise => some (s.give c run, [.save c run])
  | .starting c run, .threw error =>
      let rejected := ((s.unmark (c.field wrapped)).give c run, [c.after run (.error error)])
      match c with
      | .markBusy _ => some rejected
      | .submit w =>
          -- `markBusy` is async and rejects; without it `fn()` throws before there is a promise
          match wrapped w with
          | .guardSubmit _ => some rejected
          | .singleFlight => some (s, [])
  | .save c run, .settled outcome => some (s.unmark (c.field wrapped), [c.after run outcome])
  | .cleanup w run outcome, .turn =>
      some ({ s with inFlight := Function.update s.inFlight w none }, [.settle run outcome])
  | .settle run outcome, .turn => some ({ s with settled := Function.update s.settled run (some outcome) }, [])
  | _, _ => none

/-- **The page on the event loop.** -/
def page (wrapped : Wrapper → Wrapping Field) :
    Machine (Page Field Wrapper Error Value) (Call Field Wrapper) (Task Field Wrapper Error Value)
      (Event Error Value) where
  call c s := some (s.call wrapped c)
  resume t a s := s.resume wrapped t a

/-! ### What a move does -/

section Moves

variable {wrapped : Wrapper → Wrapping Field} {s s' : Page Field Wrapper Error Value}
  {new : List (Task Field Wrapper Error Value)}

/-- What a call does: it joins the run in flight, or calls the function. -/
inductive Called (wrapped : Wrapper → Wrapping Field) (s : Page Field Wrapper Error Value) :
    Call Field Wrapper → Page Field Wrapper Error Value → List (Task Field Wrapper Error Value) → Prop
  | joins (w : Wrapper) (n : Nat) (running : s.inFlight w = some n) :
      Called wrapped s (.submit w) { s with returned := (.submit w, n) :: s.returned } []
  | starts (c : Call Field Wrapper) (idle : ∀ w, c.wrapper = some w → s.inFlight w = none) :
      Called wrapped s c { s.mark (c.field wrapped) with runs := s.runs + 1 } [.starting c s.runs]

theorem call_cases {c : Call Field Wrapper} (acts : s.call wrapped c = (s', new)) :
    Called wrapped s c s' new := by
  cases c with
  | markBusy field =>
      cases acts
      exact .starts (.markBusy field) nofun
  | submit w =>
      simp only [Page.call] at acts
      split at acts
      · next n running =>
          cases acts
          exact .joins w n running
      · next idle =>
          cases acts
          exact .starts (.submit w) fun v same => by rw [← Option.some.inj same, idle]

/-- What happens to a task. -/
inductive Resumed (wrapped : Wrapper → Wrapping Field) (s : Page Field Wrapper Error Value) :
    Task Field Wrapper Error Value → Event Error Value → Page Field Wrapper Error Value →
      List (Task Field Wrapper Error Value) → Prop
  | promise (c : Call Field Wrapper) (n : Nat) :
      Resumed wrapped s (.starting c n) .promise (s.give c n) [.save c n]
  | thrown (w : Wrapper) (n : Nat) (error : Error) (plain : wrapped w = .singleFlight) :
      Resumed wrapped s (.starting (.submit w) n) (.threw error) s []
  | rejected (c : Call Field Wrapper) (n : Nat) (error : Error)
      (caught : ∀ w, c.wrapper = some w → wrapped w ≠ .singleFlight) :
      Resumed wrapped s (.starting c n) (.threw error) ((s.unmark (c.field wrapped)).give c n)
        [c.after n (.error error)]
  | settled (c : Call Field Wrapper) (n : Nat) (outcome : Except Error Value) :
      Resumed wrapped s (.save c n) (.settled outcome) (s.unmark (c.field wrapped)) [c.after n outcome]
  | cleanup (w : Wrapper) (n : Nat) (outcome : Except Error Value) :
      Resumed wrapped s (.cleanup w n outcome) .turn
        { s with inFlight := Function.update s.inFlight w none } [.settle n outcome]
  | settle (n : Nat) (outcome : Except Error Value) :
      Resumed wrapped s (.settle n outcome) .turn
        { s with settled := Function.update s.settled n (some outcome) } []

theorem resume_cases {t : Task Field Wrapper Error Value} {a : Event Error Value}
    (acts : s.resume wrapped t a = some (s', new)) : Resumed wrapped s t a s' new := by
  cases t with
  | starting c n =>
      cases a with
      | promise =>
          cases acts
          exact .promise c n
      | threw error =>
          cases c with
          | markBusy field =>
              cases acts
              exact .rejected (.markBusy field) n error nofun
          | submit w =>
              simp only [Page.resume] at acts
              split at acts
              · next field guarded =>
                  cases acts
                  refine .rejected (.submit w) n error fun v same => ?_
                  rw [← Option.some.inj same, guarded]
                  exact nofun
              · next plain =>
                  cases acts
                  exact .thrown w n error plain
      | settled outcome => exact nomatch acts
      | turn => exact nomatch acts
  | save c n =>
      cases a with
      | settled outcome =>
          cases acts
          exact .settled c n outcome
      | promise => exact nomatch acts
      | threw error => exact nomatch acts
      | turn => exact nomatch acts
  | cleanup w n outcome =>
      cases a with
      | turn =>
          cases acts
          exact .cleanup w n outcome
      | promise => exact nomatch acts
      | threw error => exact nomatch acts
      | settled outcome => exact nomatch acts
  | settle n outcome =>
      cases a with
      | turn =>
          cases acts
          exact .settle n outcome
      | promise => exact nomatch acts
      | threw error => exact nomatch acts
      | settled outcome => exact nomatch acts

end Moves

/-! ### Busy fields -/

section Marks

variable {s : Page Field Wrapper Error Value} {f g : Field} {n : Nat}

/-- **A field shows that `n` of its saves are running.** -/
structure Shows (s : Page Field Wrapper Error Value) (f : Field) (n : Nat) : Prop where
  busySaves : s.busySaves f = n
  ariaBusy : s.ariaBusy f = decide (0 < n)
  listeners : s.listeners f = if 0 < n then blocked else []

theorem blocked_added : blocked.foldl addListener [] = blocked := by decide

theorem blocked_removed : blocked.foldl removeListener blocked = [] := by decide

/-- The first save marks the field, and the others find it marked. -/
theorem Shows.mark (shows : Shows s f n) : Shows (s.mark (some f)) f (n + 1) := by
  obtain ⟨busySaves, ariaBusy, listeners⟩ := shows
  cases n with
  | zero =>
      have mark : s.mark (some f) = { s with
          busySaves := Function.update s.busySaves f (s.busySaves f + 1)
          ariaBusy := Function.update s.ariaBusy f true
          listeners := Function.update s.listeners f (blocked.foldl addListener (s.listeners f)) } :=
        if_pos busySaves
      rw [mark]
      refine ⟨?_, Function.update_self .., ?_⟩
      · exact (Function.update_self ..).trans (by rw [busySaves]; rfl)
      · refine (Function.update_self ..).trans ?_
        rw [listeners]
        exact blocked_added
  | succ n =>
      have mark : s.mark (some f) =
          { s with busySaves := Function.update s.busySaves f (s.busySaves f + 1) } :=
        if_neg (by omega)
      rw [mark]
      refine ⟨?_, ariaBusy.trans (by simp), listeners.trans (by simp)⟩
      exact (Function.update_self ..).trans (by rw [busySaves]; rfl)

/-- The last save frees the field. -/
theorem Shows.unmark (shows : Shows s f (n + 1)) : Shows (s.unmark (some f)) f n := by
  obtain ⟨busySaves, ariaBusy, listeners⟩ := shows
  have left : s.busySaves f - 1 = n := by omega
  cases n with
  | zero =>
      have unmark : s.unmark (some f) = { s with
          busySaves := Function.update s.busySaves f (s.busySaves f - 1)
          ariaBusy := Function.update s.ariaBusy f false
          listeners := Function.update s.listeners f (blocked.foldl removeListener (s.listeners f)) } :=
        if_pos left
      rw [unmark]
      refine ⟨(Function.update_self ..).trans left, Function.update_self .., ?_⟩
      refine (Function.update_self ..).trans ?_
      rw [listeners]
      exact blocked_removed
  | succ n =>
      have unmark : s.unmark (some f) =
          { s with busySaves := Function.update s.busySaves f (s.busySaves f - 1) } :=
        if_neg (by omega)
      rw [unmark]
      exact ⟨(Function.update_self ..).trans left, ariaBusy.trans (by simp), listeners.trans (by simp)⟩

/-- What one field shows does not depend on the saves of another. -/
theorem Shows.mark_other (shows : Shows s f n) (other : f ≠ g) : Shows (s.mark (some g)) f n := by
  obtain ⟨busySaves, ariaBusy, listeners⟩ := shows
  have counted : Function.update s.busySaves g (s.busySaves g + 1) f = n :=
    (Function.update_of_ne other ..).trans busySaves
  simp only [Page.mark]
  split
  · exact ⟨counted, (Function.update_of_ne other ..).trans ariaBusy,
      (Function.update_of_ne other ..).trans listeners⟩
  · exact ⟨counted, ariaBusy, listeners⟩

theorem Shows.unmark_other (shows : Shows s f n) (other : f ≠ g) : Shows (s.unmark (some g)) f n := by
  obtain ⟨busySaves, ariaBusy, listeners⟩ := shows
  have counted : Function.update s.busySaves g (s.busySaves g - 1) f = n :=
    (Function.update_of_ne other ..).trans busySaves
  simp only [Page.unmark]
  split
  · exact ⟨counted, (Function.update_of_ne other ..).trans ariaBusy,
      (Function.update_of_ne other ..).trans listeners⟩
  · exact ⟨counted, ariaBusy, listeners⟩

theorem Shows.mark_any (shows : Shows s f n) (field : Option Field) :
    Shows (s.mark field) f (n + if field = some f then 1 else 0) := by
  cases field with
  | none => exact shows
  | some g =>
      by_cases here : f = g
      · subst here
        rw [if_pos rfl]
        exact shows.mark
      · rw [if_neg fun same => here (Option.some.inj same).symm]
        exact shows.mark_other here

theorem Shows.unmark_any {field : Option Field}
    (shows : Shows s f (n + if field = some f then 1 else 0)) : Shows (s.unmark field) f n := by
  cases field with
  | none => exact shows
  | some g =>
      by_cases here : f = g
      · subst here
        rw [if_pos rfl] at shows
        exact shows.unmark
      · rw [if_neg fun same => here (Option.some.inj same).symm] at shows
        exact shows.unmark_other here

theorem Shows.give (shows : Shows s f n) (c : Call Field Wrapper) (run : Nat) :
    Shows (s.give c run) f n := by
  cases c with
  | markBusy field => exact ⟨shows.busySaves, shows.ariaBusy, shows.listeners⟩
  | submit w => exact ⟨shows.busySaves, shows.ariaBusy, shows.listeners⟩

/-- Marking a field changes nothing else. -/
structure Kept (s s' : Page Field Wrapper Error Value) : Prop where
  inFlight : s'.inFlight = s.inFlight
  runs : s'.runs = s.runs
  returned : s'.returned = s.returned
  settled : s'.settled = s.settled

theorem mark_kept (s : Page Field Wrapper Error Value) (field : Option Field) : Kept s (s.mark field) := by
  cases field with
  | none => exact ⟨rfl, rfl, rfl, rfl⟩
  | some f =>
      simp only [Page.mark]
      split
      · exact ⟨rfl, rfl, rfl, rfl⟩
      · exact ⟨rfl, rfl, rfl, rfl⟩

theorem unmark_kept (s : Page Field Wrapper Error Value) (field : Option Field) :
    Kept s (s.unmark field) := by
  cases field with
  | none => exact ⟨rfl, rfl, rfl, rfl⟩
  | some f =>
      simp only [Page.unmark]
      split
      · exact ⟨rfl, rfl, rfl, rfl⟩
      · exact ⟨rfl, rfl, rfl, rfl⟩

end Marks

/-- How many of the tasks keep a field busy. -/
def saves (wrapped : Wrapper → Wrapping Field) (pending : List (Task Field Wrapper Error Value))
    (f : Field) : Nat :=
  pending.countP fun t => t.field wrapped = some f

section Runs

variable {wrapped : Wrapper → Wrapping Field} {s : Page Field Wrapper Error Value}
  {past : List (Move (Call Field Wrapper) (Task Field Wrapper Error Value) (Event Error Value))}
  {pending : List (Task Field Wrapper Error Value)}
  {allowed : Page Field Wrapper Error Value → List (Task Field Wrapper Error Value) →
    Move (Call Field Wrapper) (Task Field Wrapper Error Value) (Event Error Value) → Prop}

theorem saves_append (pending new : List (Task Field Wrapper Error Value)) (f : Field) :
    saves wrapped (pending ++ new) f = saves wrapped pending f + saves wrapped new f :=
  List.countP_append

theorem saves_pending (before after : List (Task Field Wrapper Error Value))
    (t : Task Field Wrapper Error Value) (f : Field) :
    saves wrapped (before ++ t :: after) f =
      saves wrapped (before ++ after) f + if t.field wrapped = some f then 1 else 0 := by
  simp only [saves, countP_pending, decide_eq_true_eq]

theorem saves_single (t : Task Field Wrapper Error Value) (f : Field) :
    saves wrapped [t] f = if t.field wrapped = some f then 1 else 0 := by
  rw [show [t] = [] ++ t :: [] from rfl, saves_pending]
  exact Nat.zero_add _

theorem after_field (c : Call Field Wrapper) (n : Nat) (o : Except Error Value) :
    (c.after n o).field wrapped = none := by
  cases c <;> rfl

/-- **What a field shows is the number of its saves that are running**, in every run. -/
theorem marked (run : Run (page wrapped) allowed {} past s pending) (f : Field) :
    Shows s f (saves wrapped pending f) := by
  refine run.invariant (fun _ s pending => Shows s f (saves wrapped pending f)) ⟨rfl, rfl, rfl⟩
    fun past s pending move s' pending' _ _ here shows => ?_
  cases here with
  | @call _ _ c _ acts =>
      rw [saves_append]
      cases call_cases (Option.some.inj acts) with
      | joins w n _ => exact ⟨shows.busySaves, shows.ariaBusy, shows.listeners⟩
      | starts _ _ =>
          rw [saves_single]
          have more := shows.mark_any (c.field wrapped)
          exact ⟨more.busySaves, more.ariaBusy, more.listeners⟩
  | resume acts =>
      rw [saves_append]
      rw [saves_pending] at shows
      cases resume_cases acts with
      | promise c n =>
          rw [saves_single]
          exact shows.give c n
      | thrown w n error plain =>
          -- `singleFlight` alone has marked nothing
          have unmarked : (Task.starting (Call.submit w) n : Task Field Wrapper Error Value).field
              wrapped = none := by
            show (wrapped w).field = none
            rw [plain]
            rfl
          rw [unmarked] at shows
          exact shows
      | rejected c n error _ =>
          rw [saves_single, after_field]
          exact shows.unmark_any.give c n
      | settled c n o =>
          rw [saves_single, after_field]
          exact shows.unmark_any
      | cleanup w n o => exact ⟨shows.busySaves, shows.ariaBusy, shows.listeners⟩
      | settle n o => exact ⟨shows.busySaves, shows.ariaBusy, shows.listeners⟩

end Runs

/-! ### Single flights -/

/-- **The function of a wrapper does not call it synchronously**: until it has returned, there is no call
of the wrapper. -/
def NotReentrant : Page Field Wrapper Error Value → List (Task Field Wrapper Error Value) →
    Move (Call Field Wrapper) (Task Field Wrapper Error Value) (Event Error Value) → Prop
  | _, pending, .call (.submit w) => ∀ t ∈ pending, t.promised = false → t.wrapper ≠ some w
  | _, _, _ => True

/-- **A wrapper has at most one run**, and holds the promise of that run. -/
structure Flying (s : Page Field Wrapper Error Value) (pending : List (Task Field Wrapper Error Value))
    (w : Wrapper) : Prop where
  one : pending.countP (fun t => t.wrapper = some w) ≤ 1
  inFlight : ∀ n, s.inFlight w = some n ↔
    ∃ t ∈ pending, t.promised = true ∧ t.wrapper = some w ∧ t.run = n

section Flights

variable {wrapped : Wrapper → Wrapping Field} {s s' : Page Field Wrapper Error Value} {w : Wrapper}
  {pending before after new rest : List (Task Field Wrapper Error Value)}
  {t u : Task Field Wrapper Error Value}

theorem give_inFlight (s : Page Field Wrapper Error Value) (c : Call Field Wrapper) (n : Nat)
    (w : Wrapper) : (s.give c n).inFlight w = if c.wrapper = some w then some n else s.inFlight w := by
  cases c with
  | markBusy field => rfl
  | submit v =>
      simp only [Page.give, Call.wrapper, Option.some.injEq, Function.update_apply]
      exact ite_congr (propext eq_comm) (fun _ => rfl) fun _ => rfl

theorem countP_gone (gone : ∀ u ∈ rest, u.wrapper ≠ some w) :
    rest.countP (fun t => t.wrapper = some w) = 0 :=
  List.countP_eq_zero.mpr fun u member same => gone u member (of_decide_eq_true same)

/-- No run of the wrapper is left. -/
theorem flying_none (gone : ∀ u ∈ rest, u.wrapper ≠ some w) (idle : s.inFlight w = none) :
    Flying s rest w := by
  refine ⟨by rw [countP_gone gone]; exact Nat.zero_le 1, fun n => ?_⟩
  rw [idle]
  constructor
  · exact nofun
  · rintro ⟨u, member, _, same, _⟩
    exact absurd same (gone u member)

/-- One run is left; its promise is in flight, unless it is only starting. -/
theorem flying_single (gone : ∀ v ∈ rest, v.wrapper ≠ some w) (of : u.wrapper = some w)
    (running : s.inFlight w = if u.promised then some u.run else none) : Flying s (rest ++ [u]) w := by
  refine ⟨?_, fun n => ?_⟩
  · rw [List.countP_append, countP_gone gone, Nat.zero_add]
    exact List.countP_le_length
  · rw [running]
    constructor
    · intro same
      have promised : u.promised = true := by
        by_contra starting
        rw [if_neg starting] at same
        exact nomatch same
      rw [if_pos promised] at same
      exact ⟨u, List.mem_append_right _ (List.mem_singleton_self u), promised, of, Option.some.inj same⟩
    · rintro ⟨v, member, promised, same, rfl⟩
      rcases List.mem_append.mp member with old | here
      · exact absurd same (gone v old)
      · obtain rfl := List.mem_singleton.mp here
        exact if_pos promised

/-- Tasks of others make no difference, whether they come or go. -/
theorem Flying.more (flying : Flying s pending w) (others : ∀ u ∈ new, u.wrapper ≠ some w)
    (same : s'.inFlight w = s.inFlight w) : Flying s' (pending ++ new) w := by
  refine ⟨?_, fun n => ?_⟩
  · rw [List.countP_append, countP_gone others]
    exact flying.one
  · rw [same, flying.inFlight]
    constructor
    · rintro ⟨u, member, running⟩
      exact ⟨u, List.mem_append_left _ member, running⟩
    · rintro ⟨u, member, promised, of, run⟩
      rcases List.mem_append.mp member with old | more
      · exact ⟨u, old, promised, of, run⟩
      · exact absurd of (others u more)

theorem Flying.less (flying : Flying s (before ++ t :: after) w) (other : t.wrapper ≠ some w) :
    Flying s (before ++ after) w := by
  obtain ⟨one, inFlight⟩ := flying
  refine ⟨?_, fun n => ?_⟩
  · rw [countP_pending, if_neg fun here => other (of_decide_eq_true here)] at one
    exact one
  · rw [inFlight]
    constructor
    · rintro ⟨u, member, promised, of, run⟩
      rcases mem_pending.mp member with rfl | rest
      · exact absurd of other
      · exact ⟨u, rest, promised, of, run⟩
    · rintro ⟨u, member, running⟩
      exact ⟨u, mem_pending.mpr (.inr member), running⟩

/-- The other tasks are of others. -/
theorem Flying.alone (flying : Flying s (before ++ t :: after) w) (of : t.wrapper = some w) :
    ∀ u ∈ before ++ after, u.wrapper ≠ some w :=
  fun u member same => not_of_countP_le_one flying.one (decide_eq_true of) u member (decide_eq_true same)

/-- An idle wrapper whose function is not being called has no run. -/
theorem Flying.idle (flying : Flying s pending w) (idle : s.inFlight w = none)
    (called : ∀ t ∈ pending, t.promised = false → t.wrapper ≠ some w) :
    ∀ t ∈ pending, t.wrapper ≠ some w := by
  intro t member of
  cases promised : t.promised with
  | false => exact called t member promised of
  | true =>
      have running := (flying.inFlight t.run).mpr ⟨t, member, promised, of, rfl⟩
      rw [idle] at running
      exact nomatch running

theorem flying_call {c : Call Field Wrapper} (flying : Flying s pending w)
    (once : NotReentrant s pending (.call c)) (called : Called wrapped s c s' new) :
    Flying s' (pending ++ new) w := by
  cases called with
  | joins v n running =>
      rw [List.append_nil]
      exact ⟨flying.one, flying.inFlight⟩
  | starts _ idle =>
      have kept : (s.mark (c.field wrapped)).inFlight w = s.inFlight w := by
        rw [(mark_kept s (c.field wrapped)).inFlight]
      by_cases of : c.wrapper = some w
      · cases c with
        | markBusy field => exact nomatch of
        | submit v =>
            obtain rfl : v = w := Option.some.inj of
            exact flying_single (flying.idle (idle v rfl) once) rfl (kept.trans (idle v rfl))
      · refine flying.more (fun u member => ?_) kept
        rw [List.mem_singleton.mp member]
        exact of

theorem after_wrapper (c : Call Field Wrapper) (n : Nat) (o : Except Error Value) :
    (c.after n o).wrapper = c.wrapper := by
  cases c <;> rfl

theorem after_promised (c : Call Field Wrapper) (n : Nat) (o : Except Error Value) :
    (c.after n o).promised = true := by
  cases c <;> rfl

theorem after_run (c : Call Field Wrapper) (n : Nat) (o : Except Error Value) :
    (c.after n o).run = n := by
  cases c <;> rfl

/-- A task of a wrapper makes way for another one of the same run. -/
theorem Flying.replace (flying : Flying s (before ++ t :: after) w) (same : u.wrapper = t.wrapper)
    (running : s'.inFlight w = if t.wrapper = some w then some u.run else s.inFlight w)
    (promised : u.promised = true) : Flying s' (before ++ after ++ [u]) w := by
  by_cases of : t.wrapper = some w
  · rw [if_pos of] at running
    exact flying_single (flying.alone of) (same.trans of) (by rw [running, if_pos promised])
  · rw [if_neg of] at running
    refine (flying.less of).more (fun v member => ?_) running
    rw [List.mem_singleton.mp member, same]
    exact of

/-- A run of a wrapper ends. -/
theorem Flying.finish (flying : Flying s (before ++ t :: after) w)
    (idle : s'.inFlight w = if t.wrapper = some w then none else s.inFlight w)
    (gone : ∀ u ∈ new, u.wrapper = none) : Flying s' (before ++ after ++ new) w := by
  have others : ∀ u ∈ new, u.wrapper ≠ some w := fun u member same => by
    rw [gone u member] at same
    exact nomatch same
  by_cases of : t.wrapper = some w
  · rw [if_pos of] at idle
    refine flying_none (fun u member => ?_) idle
    rcases List.mem_append.mp member with old | more
    · exact flying.alone of u old
    · exact others u more
  · rw [if_neg of] at idle
    exact (flying.less of).more others idle

/-- While the function is being called, there is no promise. -/
theorem Flying.starting (flying : Flying s (before ++ t :: after) w) (of : t.wrapper = some w)
    (starting : t.promised = false) : s.inFlight w = none := by
  refine Option.eq_none_iff_forall_ne_some.mpr fun n running => ?_
  obtain ⟨u, member, promised, same, _⟩ := (flying.inFlight n).mp running
  rcases mem_pending.mp member with rfl | rest
  · rw [starting] at promised
    exact nomatch promised
  · exact flying.alone of u rest same

theorem flying_resume {a : Event Error Value} (flying : Flying s (before ++ t :: after) w)
    (resumed : Resumed wrapped s t a s' new) : Flying s' (before ++ after ++ new) w := by
  cases resumed with
  | promise c n => exact flying.replace rfl (give_inFlight s c n w) rfl
  | thrown v n error plain =>
      refine flying.finish ?_ nofun
      split
      · next of => exact flying.starting of rfl
      · rfl
  | rejected c n error _ =>
      refine flying.replace (after_wrapper c n _) ?_ (after_promised c n _)
      rw [after_run, give_inFlight, (unmark_kept s _).inFlight]
      rfl
  | settled c n o =>
      refine flying.replace (after_wrapper c n o) ?_ (after_promised c n o)
      rw [after_run, (unmark_kept s _).inFlight]
      split
      · next of => exact (flying.inFlight n).mpr ⟨_, mem_pending.mpr (.inl rfl), rfl, of, rfl⟩
      · rfl
  | cleanup v n o =>
      refine flying.finish ?_ fun u member => ?_
      · simp only [Function.update_apply, Task.wrapper, Option.some.injEq]
        exact ite_congr (propext eq_comm) (fun _ => rfl) fun _ => rfl
      · rw [List.mem_singleton.mp member]
        rfl
  | settle n o => exact flying.finish rfl nofun

/-- **A wrapper has at most one run, and holds the promise of that run**, in every run. -/
theorem flying {past : List (Move (Call Field Wrapper) (Task Field Wrapper Error Value) (Event Error Value))}
    (run : Run (page wrapped) NotReentrant {} past s pending) (w : Wrapper) : Flying s pending w := by
  refine run.invariant (fun _ s pending => Flying s pending w) (flying_none nofun rfl)
    fun past s pending move s' pending' _ once here flying => ?_
  cases here with
  | call acts => exact flying_call flying once (call_cases (Option.some.inj acts))
  | resume acts => exact flying_resume flying (resume_cases acts)

end Flights

/-! ### Outcomes -/

/-- The run that ends in a move, and its outcome: its promise settles, or its function throws. -/
def ending : Move (Call Field Wrapper) (Task Field Wrapper Error Value) (Event Error Value) →
    Option (Nat × Except Error Value)
  | .resume (.save _ n) (.settled outcome) => some (n, outcome)
  | .resume (.starting _ n) (.threw error) => some (n, .error error)
  | _ => none

/-- The run has ended with the outcome. -/
def Ended (past : List (Move (Call Field Wrapper) (Task Field Wrapper Error Value) (Event Error Value)))
    (n : Nat) (outcome : Except Error Value) : Prop :=
  ∃ move ∈ past, ending move = some (n, outcome)

/-- **A promise settles with the outcome of its run**, on which everything agrees that is on the way. -/
structure Settling
    (past : List (Move (Call Field Wrapper) (Task Field Wrapper Error Value) (Event Error Value)))
    (s : Page Field Wrapper Error Value) (pending : List (Task Field Wrapper Error Value)) : Prop where
  fresh : ∀ t ∈ pending, t.run < s.runs
  single : ∀ n, pending.countP (fun t => t.run = n) ≤ 1
  ended : ∀ n o, Ended past n o → n < s.runs ∧ ∀ t ∈ pending, t.run = n → t.outcome = some o
  carried : ∀ t ∈ pending, ∀ o, t.outcome = some o → Ended past t.run o
  settled : ∀ n o, s.settled n = some o → Ended past n o ∧ ∀ t ∈ pending, t.run ≠ n
  returned : ∀ c n, (c, n) ∈ s.returned →
    (∃ t ∈ pending, t.promised = true ∧ t.run = n) ∨ ∃ o, s.settled n = some o

section Outcomes

variable {wrapped : Wrapper → Wrapping Field} {s s' : Page Field Wrapper Error Value}
  {past : List (Move (Call Field Wrapper) (Task Field Wrapper Error Value) (Event Error Value))}
  {move : Move (Call Field Wrapper) (Task Field Wrapper Error Value) (Event Error Value)}
  {pending before after new : List (Task Field Wrapper Error Value)}
  {t u : Task Field Wrapper Error Value} {c : Call Field Wrapper}

theorem ended_cons {n : Nat} {o : Except Error Value} :
    Ended (move :: past) n o ↔ ending move = some (n, o) ∨ Ended past n o := by
  simp only [Ended, List.mem_cons, exists_eq_or_imp]

/-- A call ends no run. -/
theorem ended_call {n : Nat} {o : Except Error Value} : Ended (.call c :: past) n o ↔ Ended past n o :=
  ended_cons.trans ⟨fun ended => ended.resolve_left nofun, .inr⟩

/-- The other tasks are of other runs. -/
theorem Settling.alone (settling : Settling past s (before ++ t :: after)) :
    ∀ u ∈ before ++ after, u.run ≠ t.run :=
  fun u member same =>
    not_of_countP_le_one (settling.single t.run) (decide_eq_true rfl) u member (decide_eq_true same)

/-- A caller joins a run that has a promise. -/
theorem Settling.join (settling : Settling past s pending) (running : t ∈ pending)
    (promised : t.promised = true) :
    Settling (.call c :: past) { s with returned := (c, t.run) :: s.returned } pending := by
  refine ⟨settling.fresh, settling.single, fun n o ended => settling.ended n o (ended_call.mp ended),
    fun u member o carried => ended_call.mpr (settling.carried u member o carried),
    fun n o settled => ?_, fun d n member => ?_⟩
  · obtain ⟨ended, others⟩ := settling.settled n o settled
    exact ⟨ended_call.mpr ended, others⟩
  · rcases List.mem_cons.mp member with here | earlier
    · cases here
      exact .inl ⟨t, running, promised, rfl⟩
    · exact settling.returned d n earlier

/-- A run starts under a new number. -/
theorem Settling.start (settling : Settling past s pending) (kept : Kept s s') :
    Settling (.call c :: past) { s' with runs := s.runs + 1 } (pending ++ [.starting c s.runs]) := by
  have below : ∀ n o, Ended past n o → n < s.runs := fun n o ended => (settling.ended n o ended).1
  refine ⟨?_, fun n => ?_, fun n o ended => ?_, ?_, fun n o settled => ?_, fun d n member => ?_⟩
  · exact List.forall_mem_append.mpr ⟨fun t member => Nat.lt_succ_of_lt (settling.fresh t member),
      List.forall_mem_singleton.mpr (Nat.lt_succ_self s.runs)⟩
  · by_cases new : n = s.runs
    · have none : pending.countP (fun t => t.run = n) = 0 := by
        refine List.countP_eq_zero.mpr fun t member same => ?_
        exact absurd ((of_decide_eq_true same).trans new) (Nat.ne_of_lt (settling.fresh t member))
      rw [List.countP_append, none, Nat.zero_add]
      exact List.countP_le_length
    · rw [List.countP_append, List.countP_singleton, if_neg fun same => new (of_decide_eq_true same).symm]
      exact settling.single n
  · obtain ⟨lt, agree⟩ := settling.ended n o (ended_call.mp ended)
    exact ⟨Nat.lt_succ_of_lt lt, List.forall_mem_append.mpr ⟨agree,
      List.forall_mem_singleton.mpr fun same => absurd same.symm (Nat.ne_of_lt lt)⟩⟩
  · exact List.forall_mem_append.mpr
      ⟨fun t member o carried => ended_call.mpr (settling.carried t member o carried),
        List.forall_mem_singleton.mpr nofun⟩
  · obtain ⟨ended, others⟩ := settling.settled n o (kept.settled ▸ settled)
    exact ⟨ended_call.mpr ended, List.forall_mem_append.mpr ⟨others,
      List.forall_mem_singleton.mpr (Nat.ne_of_gt (below n o ended))⟩⟩
  · rcases settling.returned d n (kept.returned ▸ member) with ⟨t, running, promised⟩ | ⟨o, settled⟩
    · exact .inl ⟨t, List.mem_append_left _ running, promised⟩
    · exact .inr ⟨o, by rw [← settled, ← kept.settled]⟩

/-- A task makes way for another one of its run, which hands on its outcome, or one that the run ends
with now. -/
theorem Settling.replace (settling : Settling past s (before ++ t :: after)) (run : u.run = t.run)
    (promised : u.promised = true) (runs : s'.runs = s.runs) (settledSame : s'.settled = s.settled)
    (returned : ∀ c n, (c, n) ∈ s'.returned → n = t.run ∨ (c, n) ∈ s.returned)
    (hands : (ending move = none ∧ u.outcome = t.outcome) ∨
      ∃ o, ending move = some (t.run, o) ∧ u.outcome = some o ∧ t.outcome = none) :
    Settling (move :: past) s' (before ++ after ++ [u]) := by
  have here : t ∈ before ++ t :: after := mem_pending.mpr (.inl rfl)
  have there : ∀ v ∈ before ++ after, v ∈ before ++ t :: after :=
    fun v member => mem_pending.mpr (.inr member)
  refine ⟨?_, fun n => ?_, fun n o ended => ?_, ?_, fun n o settled => ?_, fun d n member => ?_⟩
  · rw [runs]
    refine List.forall_mem_append.mpr ⟨fun v member => settling.fresh v (there v member), ?_⟩
    rw [List.forall_mem_singleton, run]
    exact settling.fresh t here
  · have single := settling.single n
    rw [countP_pending] at single
    rw [List.countP_append, List.countP_singleton, run]
    exact single
  · rw [runs]
    rcases ended_cons.mp ended with new | old
    · rcases hands with ⟨none, _⟩ | ⟨o', ends, carries, _⟩
      · rw [none] at new
        exact nomatch new
      · rw [ends] at new
        obtain ⟨rfl, rfl⟩ := Prod.mk.inj (Option.some.inj new)
        exact ⟨settling.fresh t here, List.forall_mem_append.mpr
          ⟨fun v member same => absurd same (settling.alone v member),
            List.forall_mem_singleton.mpr fun _ => carries⟩⟩
    · obtain ⟨lt, agree⟩ := settling.ended n o old
      refine ⟨lt, List.forall_mem_append.mpr ⟨fun v member => agree v (there v member),
        List.forall_mem_singleton.mpr fun same => ?_⟩⟩
      have had : t.outcome = some o := agree t here (run.symm.trans same)
      rcases hands with ⟨_, carries⟩ | ⟨_, _, _, none⟩
      · exact carries.trans had
      · rw [none] at had
        exact nomatch had
  · refine List.forall_mem_append.mpr
      ⟨fun v member o carried => ended_cons.mpr (.inr (settling.carried v (there v member) o carried)),
        List.forall_mem_singleton.mpr fun o carried => ?_⟩
    rw [run]
    rcases hands with ⟨_, carries⟩ | ⟨o', ends, carries, _⟩
    · exact ended_cons.mpr (.inr (settling.carried t here o (carries.symm.trans carried)))
    · obtain rfl : o' = o := Option.some.inj (carries.symm.trans carried)
      exact ended_cons.mpr (.inl ends)
  · rw [settledSame] at settled
    obtain ⟨ended, others⟩ := settling.settled n o settled
    refine ⟨ended_cons.mpr (.inr ended), List.forall_mem_append.mpr
      ⟨fun v member => others v (there v member), List.forall_mem_singleton.mpr ?_⟩⟩
    rw [run]
    exact others t here
  · have now : u ∈ before ++ after ++ [u] := List.mem_append_right _ (List.mem_singleton_self u)
    rw [settledSame]
    rcases returned d n member with rfl | earlier
    · exact .inl ⟨u, now, promised, run⟩
    · refine (settling.returned d n earlier).imp_left ?_
      rintro ⟨v, running, has, rfl⟩
      rcases mem_pending.mp running with rfl | rest
      · exact ⟨u, now, promised, run⟩
      · exact ⟨v, List.mem_append_left _ rest, has, rfl⟩

/-- `singleFlight` alone lets an error through to the caller, who has no promise then. -/
theorem Settling.throw {n : Nat} {error : Error}
    (settling : Settling past s (before ++ .starting c n :: after)) :
    Settling (.resume (.starting c n) (.threw error) :: past) s (before ++ after ++ []) := by
  have there : ∀ v ∈ before ++ after, v ∈ before ++ .starting c n :: after :=
    fun v member => mem_pending.mpr (.inr member)
  rw [List.append_nil]
  refine ⟨fun v member => settling.fresh v (there v member), fun m => ?_, fun m o ended => ?_,
    fun v member o carried => ended_cons.mpr (.inr (settling.carried v (there v member) o carried)),
    fun m o settled => ?_, fun d m member => ?_⟩
  · have single := settling.single m
    rw [countP_pending] at single
    exact Nat.le_trans (Nat.le_add_right _ _) single
  · rcases ended_cons.mp ended with now | old
    · cases now
      exact ⟨settling.fresh _ (mem_pending.mpr (.inl rfl)),
        fun v member same => absurd same (settling.alone v member)⟩
    · obtain ⟨lt, agree⟩ := settling.ended m o old
      exact ⟨lt, fun v member => agree v (there v member)⟩
  · obtain ⟨ended, others⟩ := settling.settled m o settled
    exact ⟨ended_cons.mpr (.inr ended), fun v member => others v (there v member)⟩
  · refine (settling.returned d m member).imp_left ?_
    rintro ⟨v, running, has, rfl⟩
    rcases mem_pending.mp running with rfl | rest
    · exact nomatch has
    · exact ⟨v, rest, has, rfl⟩

/-- The promise of the callers settles. -/
theorem Settling.settle {n : Nat} {outcome : Except Error Value}
    (settling : Settling past s (before ++ .settle n outcome :: after)) :
    Settling (.resume (.settle n outcome) .turn :: past)
      { s with settled := Function.update s.settled n (some outcome) } (before ++ after ++ []) := by
  have here : (.settle n outcome : Task Field Wrapper Error Value) ∈ before ++ .settle n outcome :: after :=
    mem_pending.mpr (.inl rfl)
  have there : ∀ v ∈ before ++ after, v ∈ before ++ .settle n outcome :: after :=
    fun v member => mem_pending.mpr (.inr member)
  rw [List.append_nil]
  refine ⟨fun v member => settling.fresh v (there v member), fun m => ?_, fun m o ended => ?_,
    fun v member o carried => ended_cons.mpr (.inr (settling.carried v (there v member) o carried)),
    fun m o settled => ?_, fun d m member => ?_⟩
  · have single := settling.single m
    rw [countP_pending] at single
    exact Nat.le_trans (Nat.le_add_right _ _) single
  · obtain ⟨lt, agree⟩ := settling.ended m o ((ended_cons.mp ended).resolve_left nofun)
    exact ⟨lt, fun v member => agree v (there v member)⟩
  · have value : Function.update s.settled n (some outcome) m = some o := settled
    by_cases same : m = n
    · rw [same, Function.update_self] at value
      rw [same, ← Option.some.inj value]
      exact ⟨ended_cons.mpr (.inr (settling.carried _ here outcome rfl)), settling.alone⟩
    · rw [Function.update_of_ne same] at value
      obtain ⟨ended, others⟩ := settling.settled m o value
      exact ⟨ended_cons.mpr (.inr ended), fun v member => others v (there v member)⟩
  · by_cases same : m = n
    · subst same
      exact .inr ⟨outcome, Function.update_self ..⟩
    · rcases settling.returned d m member with ⟨v, running, has, rfl⟩ | ⟨o, settled⟩
      · rcases mem_pending.mp running with rfl | rest
        · exact absurd rfl same
        · exact .inl ⟨v, rest, has, rfl⟩
      · exact .inr ⟨o, (Function.update_of_ne same ..).trans settled⟩

theorem give_runs (s : Page Field Wrapper Error Value) (c : Call Field Wrapper) (n : Nat) :
    (s.give c n).runs = s.runs := by
  cases c <;> rfl

theorem give_settled (s : Page Field Wrapper Error Value) (c : Call Field Wrapper) (n : Nat) :
    (s.give c n).settled = s.settled := by
  cases c <;> rfl

theorem give_returned (s : Page Field Wrapper Error Value) (c : Call Field Wrapper) (n : Nat) :
    (s.give c n).returned = (c, n) :: s.returned := by
  cases c <;> rfl

theorem after_outcome (c : Call Field Wrapper) (n : Nat) (o : Except Error Value) :
    (c.after n o).outcome = some o := by
  cases c <;> rfl

theorem settling_resume {a : Event Error Value} (settling : Settling past s (before ++ t :: after))
    (resumed : Resumed wrapped s t a s' new) :
    Settling (.resume t a :: past) s' (before ++ after ++ new) := by
  have given : ∀ {s : Page Field Wrapper Error Value} {d : Call Field Wrapper} {n : Nat}
      {c : Call Field Wrapper} {m : Nat}, (c, m) ∈ (s.give d n).returned → m = n ∨ (c, m) ∈ s.returned := by
    intro s d n c m member
    rw [give_returned] at member
    exact (List.mem_cons.mp member).imp_left fun same => (Prod.mk.inj same).2
  cases resumed with
  | promise c n =>
      exact settling.replace rfl rfl (give_runs s c n) (give_settled s c n) (fun _ _ => given)
        (.inl ⟨rfl, rfl⟩)
  | thrown w n error _ => exact settling.throw
  | rejected c n error _ =>
      have kept := unmark_kept s (c.field wrapped)
      exact settling.replace (after_run c n _) (after_promised c n _)
        ((give_runs _ c n).trans kept.runs) ((give_settled _ c n).trans kept.settled)
        (fun _ _ member => (given member).imp_right fun old => kept.returned ▸ old)
        (.inr ⟨.error error, rfl, after_outcome c n _, rfl⟩)
  | settled c n o =>
      have kept := unmark_kept s (c.field wrapped)
      exact settling.replace (after_run c n o) (after_promised c n o) kept.runs kept.settled
        (fun _ _ member => .inr (kept.returned ▸ member)) (.inr ⟨o, rfl, after_outcome c n o, rfl⟩)
  | cleanup w n o =>
      exact settling.replace rfl rfl rfl rfl (fun _ _ => .inr) (.inl ⟨rfl, rfl⟩)
  | settle n o => exact settling.settle

/-- **A promise settles with the outcome of its run**, in every run. -/
theorem settling (run : Run (page wrapped) NotReentrant {} past s pending) : Settling past s pending := by
  refine run.invariant Settling ⟨nofun, fun _ => Nat.zero_le 1, nofun, nofun, nofun, nofun⟩
    fun past s pending move s' pending' earlier _ here settling => ?_
  cases here with
  | @call _ _ c _ acts =>
      cases call_cases (Option.some.inj acts) with
      | joins w n running =>
          rw [List.append_nil]
          obtain ⟨t, member, promised, _, rfl⟩ := ((flying earlier w).inFlight n).mp running
          exact settling.join member promised
      | starts _ _ =>
          have kept := mark_kept s (c.field wrapped)
          exact settling.start kept
  | resume acts => exact settling_resume settling (resume_cases acts)

/-- A run that ends has not ended before. -/
theorem ending_new {n : Nat} {o o' : Except Error Value} (settling : Settling past s pending)
    (here : Step (page wrapped) s pending move s' new) (ends : ending move = some (n, o)) :
    ¬ Ended past n o' := by
  intro before
  obtain ⟨_, agree⟩ := settling.ended n o' before
  cases here with
  | call _ => exact nomatch ends
  | @resume _ _ _ t a _ _ =>
      have here : t.run = n ∧ t.outcome = none := by
        simp only [ending] at ends
        split at ends
        · cases ends
          rename_i same
          cases same
          exact ⟨rfl, rfl⟩
        · cases ends
          rename_i same
          cases same
          exact ⟨rfl, rfl⟩
        · exact nomatch ends
      have carries := agree t (mem_pending.mpr (.inl rfl)) here.1
      rw [here.2] at carries
      exact nomatch carries

/-- **A run has one outcome.** -/
theorem ended_unique (run : Run (page wrapped) NotReentrant {} past s pending) {n : Nat}
    {o o' : Except Error Value} (ended : Ended past n o) (ended' : Ended past n o') : o = o' := by
  induction run with
  | nil =>
      obtain ⟨_, member, _⟩ := ended
      exact absurd member List.not_mem_nil
  | step before _ here ih =>
      rcases ended_cons.mp ended with new | old
      · rcases ended_cons.mp ended' with new' | old'
        · exact (Prod.mk.inj (Option.some.inj (new.symm.trans new'))).2
        · exact absurd old' (ending_new (settling before) here new)
      · rcases ended_cons.mp ended' with new' | old'
        · exact absurd old (ending_new (settling before) here new')
        · exact ih old old'

end Outcomes

/-! ### Every run -/

/-- A run of the wrapper ends for it: the `finally` of `singleFlight`, or `fn()` throws. -/
def Finishes (wrapped : Wrapper → Wrapping Field) (w : Wrapper) :
    Move (Call Field Wrapper) (Task Field Wrapper Error Value) (Event Error Value) → Prop
  | .resume (.cleanup v _ _) _ => v = w
  | .resume (.starting (.submit v) _) (.threw _) => v = w ∧ wrapped v = .singleFlight
  | _ => False

/-- **Overlapping saves.** A field is busy, and blocks its keys, exactly while a save of it is running;
otherwise neither is left. A wrapper has one run at a time; who calls it meanwhile gets the promise of that
run, which settles as the run does, and nothing is started; the first call after the end of a run, however
it ended, starts another one. -/
structure Guarded (wrapped : Wrapper → Wrapping Field)
    (past : List (Move (Call Field Wrapper) (Task Field Wrapper Error Value) (Event Error Value)))
    (s : Page Field Wrapper Error Value) (pending : List (Task Field Wrapper Error Value)) : Prop where
  busy : ∀ f, s.ariaBusy f = true ∧ s.listeners f = blocked ↔ ∃ t ∈ pending, t.field wrapped = some f
  free : ∀ f, s.ariaBusy f = false ∧ s.listeners f = [] ↔ ¬ ∃ t ∈ pending, t.field wrapped = some f
  one : ∀ w, pending.countP (fun t => t.wrapper = some w) ≤ 1
  joins : ∀ w, NotReentrant s pending (.call (.submit w)) → ∀ t ∈ pending, t.wrapper = some w →
    (page wrapped).call (.submit w) s =
      some ({ s with returned := (.submit w, t.run) :: s.returned }, [])
  returned : ∀ c n, (c, n) ∈ s.returned →
    (∃ t ∈ pending, t.promised = true ∧ t.run = n) ∨ ∃ o, s.settled n = some o ∧ Ended past n o
  unique : ∀ n o o', Ended past n o → Ended past n o' → o = o'
  starts : ∀ w, (∀ t ∈ pending, t.wrapper ≠ some w) →
    (page wrapped).call (.submit w) s = some (s.start wrapped (.submit w))
  again : ∀ later move earlier w, past = later ++ move :: earlier → Finishes wrapped w move →
    .call (.submit w) ∉ later → (page wrapped).call (.submit w) s = some (s.start wrapped (.submit w))

section Every

variable {wrapped : Wrapper → Wrapping Field} {s s' : Page Field Wrapper Error Value} {w : Wrapper}
  {past : List (Move (Call Field Wrapper) (Task Field Wrapper Error Value) (Event Error Value))}
  {move : Move (Call Field Wrapper) (Task Field Wrapper Error Value) (Event Error Value)}
  {pending pending' new : List (Task Field Wrapper Error Value)} {t : Task Field Wrapper Error Value}

theorem saves_pos (f : Field) : 0 < saves wrapped pending f ↔ ∃ t ∈ pending, t.field wrapped = some f := by
  simp only [saves, List.countP_pos_iff, decide_eq_true_eq]

theorem Shows.busy {f : Field} {n : Nat} (shows : Shows s f n) :
    s.ariaBusy f = true ∧ s.listeners f = blocked ↔ 0 < n := by
  rw [shows.ariaBusy, shows.listeners, decide_eq_true_eq]
  exact ⟨And.left, fun some => ⟨some, if_pos some⟩⟩

theorem Shows.free {f : Field} {n : Nat} (shows : Shows s f n) :
    s.ariaBusy f = false ∧ s.listeners f = [] ↔ ¬ 0 < n := by
  rw [shows.ariaBusy, shows.listeners, decide_eq_false_iff_not]
  exact ⟨And.left, fun none => ⟨none, if_neg none⟩⟩

/-- What a task leaves belongs to the same wrapper, or to none. -/
theorem resumed_wrapper {a : Event Error Value} (resumed : Resumed wrapped s t a s' new) :
    ∀ u ∈ new, u.wrapper = t.wrapper ∨ u.wrapper = none := by
  cases resumed with
  | promise c n => exact List.forall_mem_singleton.mpr (.inl rfl)
  | thrown w n error _ => exact nofun
  | rejected c n error _ => exact List.forall_mem_singleton.mpr (.inl (after_wrapper c n _))
  | settled c n o => exact List.forall_mem_singleton.mpr (.inl (after_wrapper c n o))
  | cleanup w n o => exact List.forall_mem_singleton.mpr (.inr rfl)
  | settle n o => exact nofun

/-- Nothing but a call of the wrapper starts a run of it. -/
theorem step_idle (here : Step (page wrapped) s pending move s' pending')
    (other : move ≠ .call (.submit w)) (idle : ∀ t ∈ pending, t.wrapper ≠ some w) :
    ∀ t ∈ pending', t.wrapper ≠ some w := by
  cases here with
  | @call _ _ c _ acts =>
      refine List.forall_mem_append.mpr ⟨idle, ?_⟩
      cases call_cases (Option.some.inj acts) with
      | joins w n _ => exact nofun
      | starts _ _ =>
          refine List.forall_mem_singleton.mpr fun same => other ?_
          cases c with
          | markBusy field => exact nomatch same
          | submit v => rw [Option.some.inj same]
  | resume acts =>
      refine List.forall_mem_append.mpr ⟨fun u member => idle u (mem_pending.mpr (.inr member)), ?_⟩
      intro u member same
      rcases resumed_wrapper (resume_cases acts) u member with kept | none
      · exact idle _ (mem_pending.mpr (.inl rfl)) (kept.symm.trans same)
      · rw [none] at same
        exact nomatch same

/-- The end of a run leaves none. -/
theorem step_finishes (flying : Flying s pending w) (here : Step (page wrapped) s pending move s' pending')
    (finishes : Finishes wrapped w move) : ∀ t ∈ pending', t.wrapper ≠ some w := by
  cases here with
  | call acts => exact finishes.elim
  | resume acts =>
      cases resume_cases acts with
      | thrown v n error _ =>
          rw [List.append_nil]
          exact flying.alone (congrArg some finishes.1)
      | cleanup v n o =>
          exact List.forall_mem_append.mpr
            ⟨flying.alone (congrArg some finishes), List.forall_mem_singleton.mpr nofun⟩
      | rejected c n error caught =>
          cases c with
          | markBusy field => exact finishes.elim
          | submit v => exact absurd finishes.2 (caught v rfl)
      | promise c n =>
          cases c with
          | markBusy field => exact finishes.elim
          | submit v => exact finishes.elim
      | settled c n o => exact finishes.elim
      | settle n o => exact finishes.elim

/-- The wrapper is idle from the end of a run until it is called. -/
theorem idle_since (later : List (Move (Call Field Wrapper) (Task Field Wrapper Error Value)
      (Event Error Value))) {earlier : List (Move (Call Field Wrapper) (Task Field Wrapper Error Value)
      (Event Error Value))} (run : Run (page wrapped) NotReentrant {} (later ++ move :: earlier) s pending)
    (finishes : Finishes wrapped w move) (uncalled : .call (.submit w) ∉ later) :
    ∀ t ∈ pending, t.wrapper ≠ some w := by
  induction later generalizing s pending with
  | nil =>
      cases run with
      | step before _ here => exact step_finishes (flying before w) here finishes
  | cons last later ih =>
      cases run with
      | step before _ here =>
          have idle := ih before fun member => uncalled (List.mem_cons_of_mem last member)
          exact step_idle here (fun same => uncalled (same ▸ List.mem_cons_self)) idle

/-- A wrapper without a run starts one. -/
theorem call_starts (flying : Flying s pending w) (idle : ∀ t ∈ pending, t.wrapper ≠ some w) :
    (page wrapped).call (.submit w) s = some (s.start wrapped (.submit w)) := by
  have none : s.inFlight w = none := by
    refine Option.eq_none_iff_forall_ne_some.mpr fun n running => ?_
    obtain ⟨t, member, _, of, _⟩ := (flying.inFlight n).mp running
    exact idle t member of
  simp only [page, Page.call, none]

theorem call_joins (flying : Flying s pending w) (once : NotReentrant s pending (.call (.submit w)))
    (running : t ∈ pending) (of : t.wrapper = some w) : (page wrapped).call (.submit w) s =
      some ({ s with returned := (.submit w, t.run) :: s.returned }, []) := by
  have promised : t.promised = true := by
    by_contra starting
    exact once t running (Bool.eq_false_iff.mpr starting) of
  have inFlight := (flying.inFlight t.run).mpr ⟨t, running, promised, of, rfl⟩
  simp only [page, Page.call, inFlight]

/-- **Overlapping saves**, in every run. -/
theorem saves_guarded (run : Run (page wrapped) NotReentrant {} past s pending) :
    Guarded wrapped past s pending where
  busy f := (marked run f).busy.trans (saves_pos f)
  free f := (marked run f).free.trans (not_congr (saves_pos f))
  one w := (flying run w).one
  joins w once _ running of := call_joins (flying run w) once running of
  returned c n member := by
    refine ((settling run).returned c n member).imp_right ?_
    rintro ⟨o, settled⟩
    exact ⟨o, settled, ((settling run).settled n o settled).1⟩
  unique _ _ _ := ended_unique run
  starts w idle := call_starts (flying run w) idle
  again later move earlier w split finishes uncalled :=
    call_starts (flying run w) (idle_since later (split ▸ run) finishes uncalled)

end Every

/-! ### A schedule -/

instance (s : Page Field Wrapper Error Value) (pending : List (Task Field Wrapper Error Value))
    (move : Move (Call Field Wrapper) (Task Field Wrapper Error Value) (Event Error Value)) :
    Decidable (NotReentrant s pending move) := by
  unfold NotReentrant
  split <;> infer_instance

/-- A save fails that was called twice, and is called again. -/
def failedSave : EventLoop.Config (Page Nat Nat String Unit) (Call Nat Nat) (Task Nat Nat String Unit)
    (Event String Unit) :=
  (page fun _ => .guardSubmit (some 7)).play
    (fun s pending move => decide (NotReentrant s pending move)) {}
    [.call (.submit 1), .resume 0 .promise, .call (.submit 1), .resume 0 (.settled (.error "boom")),
      .resume 0 .turn, .resume 0 .turn, .call (.submit 1)]

theorem failedSave_guarded :
    Guarded (fun _ => .guardSubmit (some 7)) failedSave.past failedSave.state failedSave.pending ∧
      failedSave.state.returned = [(.submit 1, 0), (.submit 1, 0)] ∧
      failedSave.state.settled 0 = some (.error "boom") ∧ failedSave.pending = [.starting (.submit 1) 1] :=
  ⟨saves_guarded (Run.mono (Run.of_choices _ _) fun _ _ _ ok => of_decide_eq_true ok), rfl, rfl, rfl⟩

end Wuflow.Saves

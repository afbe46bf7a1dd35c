/-
**Checking first and counting later.**

Whoever finds the counter below its limit is let in, and only on the way out may it be counted. Those who are
inside at once have all been let in by the same count, so the counter can pass the limit, but not by much:

* `Gate.Step` — one is let in, leaves, or is counted and leaves; the counter may start again from zero.
* `Gate.Step.guarded` — what a step keeps: at the limit, the counter and those inside together stay below the
  limit and `k`, as long as at most `k` are inside at once. `Gate.Guarded.count_lt` — so does the counter.
* `FixedWindow.within_le` — a counter of fixed windows that never exceeds `most` has seen at most `2 * most` hits
  in any interval no longer than the window.
-/

import Mathlib.Data.Finset.Insert
import Mathlib.Data.Finset.Card
import Wuflow.Limits.Bursts

namespace Admission

/-- No more than `k` threads are in `s`. -/
def AtMost {ι : Type} (k : Nat) (s : Set ι) : Prop :=
  ∀ threads : Finset ι, (∀ i ∈ threads, i ∈ s) → threads.card ≤ k

theorem AtMost.mono {ι : Type} {k : Nat} {s t : Set ι} (most : AtMost k t) (less : ∀ i ∈ s, i ∈ t) :
    AtMost k s :=
  fun threads all => most threads fun i member => less i (all i member)

/-- The counter, and who has been let in and has not left. -/
structure Gate (ι : Type) where
  count : Nat
  inside : Set ι

namespace Gate

variable {ι : Type} {limit k : Nat} {g g' : Gate ι}

/-- One step at a gate with a limit. -/
inductive Step (limit : Nat) : Gate ι → Gate ι → Prop
  | enter {g g' : Gate ι} (below : g.count < limit) (same : g'.count = g.count) : Step limit g g'
  | leave {g g' : Gate ι} (same : g'.count = g.count) (fewer : ∀ i ∈ g'.inside, i ∈ g.inside) : Step limit g g'
  | count {g g' : Gate ι} (i : ι) (was : i ∈ g.inside) (counted : g'.count = g.count + 1)
      (fewer : ∀ j ∈ g'.inside, j ∈ g.inside) (left : i ∉ g'.inside) : Step limit g g'
  | restart {g g' : Gate ι} (zero : g'.count = 0) : Step limit g g'

/-- At the limit, the counter and those inside together stay below the limit and `k`. -/
def Guarded (limit k : Nat) (g : Gate ι) : Prop :=
  limit ≤ g.count → ∀ threads : Finset ι, (∀ i ∈ threads, i ∈ g.inside) → g.count + threads.card < limit + k

theorem Guarded.count_lt (guarded : Guarded limit k g) : g.count < limit + k := by
  by_cases full : limit ≤ g.count
  · exact guarded full ∅ fun i member => absurd member (Finset.notMem_empty i)
  · omega

/-- **A step keeps the gate guarded**, when at most `k` are inside. -/
theorem Step.guarded (step : Step limit g g') (positive : 0 < limit) (most : AtMost k g.inside)
    (guarded : Guarded limit k g) : Guarded limit k g' := by
  classical
  intro full threads all
  cases step with
  | enter below same => omega
  | leave same fewer =>
      rw [same] at full ⊢
      exact guarded full threads fun i member => fewer i (all i member)
  | restart zero => omega
  | count i was counted fewer left =>
      have fresh : i ∉ threads := fun member => left (all i member)
      have inside : ∀ j ∈ insert i threads, j ∈ g.inside := fun j member => by
        rcases Finset.mem_insert.mp member with rfl | member
        · exact was
        · exact fewer j (all j member)
      have card := Finset.card_insert_of_notMem fresh
      rw [counted] at full ⊢
      by_cases before : limit ≤ g.count
      · have room := guarded before (insert i threads) inside
        omega
      · have room := most (insert i threads) inside
        omega

end Gate

end Admission

namespace FixedWindow

variable {window now soon : Int} {limit most : Nat}

/-! ### The count of a window that has not ended -/

def liveCount (now : Int) (counter : Option Counter) : Nat := ((live now counter).map Counter.count).getD 0

theorem liveCount_hit (window now : Int) (counter : Option Counter) :
    (hit window now counter).count = liveCount now counter + 1 := by
  unfold hit liveCount
  cases live now counter with
  | none => rfl
  | some c => rfl

/-- A hit is counted at once. -/
theorem liveCount_some_hit (wide : 0 ≤ window) (counter : Option Counter) :
    liveCount now (some (hit window now counter)) = liveCount now counter + 1 := by
  rw [← liveCount_hit window now]
  have ahead : ¬ now > (hit window now counter).windowEnd := by
    unfold hit
    cases held : live now counter with
    | none =>
        dsimp only
        omega
    | some c =>
        have kept := (Option.filter_eq_some_iff.mp held).2
        exact Int.not_lt.mpr (of_decide_eq_true kept)
  show ((live now (some (hit window now counter))).map Counter.count).getD 0 = _
  rw [live_of_open ahead]
  rfl

theorem reached_iff (positive : 0 < limit) (counter : Option Counter) :
    reached limit now counter = true ↔ limit ≤ liveCount now counter := by
  unfold reached liveCount
  cases live now counter with
  | none => simp only [Bool.false_eq_true, Option.map_none, Option.getD_none, false_iff]; omega
  | some c => simp

/-- As time passes, the count stays or the window ends. -/
theorem liveCount_later (order : now ≤ soon) (counter : Option Counter) :
    liveCount soon counter = liveCount now counter ∨ liveCount soon counter = 0 := by
  cases counter with
  | none => exact .inr rfl
  | some c =>
      unfold liveCount
      by_cases ended : soon > c.windowEnd
      · rw [live_of_ended ended]
        exact .inr rfl
      · have earlier : ¬ now > c.windowEnd := by omega
        rw [live_of_open ended, live_of_open earlier]
        exact .inl rfl

/-! ### Hits in an interval -/

/-- When a hit happened. -/
def Event.time : Event → Option Int
  | .hit now => some now
  | .reset => none

/-- Without resets the hits say all. -/
theorem map_hit_time {events : List Event} (kept : ∀ event ∈ events, event ≠ .reset) :
    (events.filterMap Event.time).map .hit = events := by
  induction events with
  | nil => rfl
  | cons event events ih =>
      have rest := ih fun other member => kept other (List.mem_cons_of_mem _ member)
      cases event with
      | hit now =>
          rw [List.filterMap_cons_some (show Event.time (.hit now) = some now from rfl), List.map_cons, rest]
      | reset => exact absurd rfl (kept .reset List.mem_cons_self)

/-- Hits that are all counted in the window of `c`. -/
theorem counted_in_window {events : List Event} {ts : List Int} {c : Counter}
    (bounded : ∀ early later, ts = early ++ later →
      ∀ d, counted window (events ++ early.map .hit) = some d → d.count ≤ most)
    (before : counted window events = some c) (inside : ∀ t ∈ ts, t ≤ c.windowEnd) :
    c.count + ts.length ≤ most := by
  induction ts generalizing events c with
  | nil => exact bounded [] [] rfl c (by rw [List.map_nil, List.append_nil, before])
  | cons t ts ih =>
      have ahead : ¬ t > c.windowEnd := Int.not_lt.mpr (inside t List.mem_cons_self)
      have next : counted window (events ++ [.hit t]) = some ⟨c.count + 1, c.windowEnd⟩ := by
        rw [counted_hit, before, hit_of_open ahead]
      have rest := ih (fun early later split d held => bounded (t :: early) later
          (by rw [split, List.cons_append]) d (by
            rw [← held, List.map_cons, List.append_assoc, List.singleton_append]))
        next fun u member => inside u (List.mem_cons_of_mem _ member)
      simp only [List.length_cons] at rest ⊢
      omega

/-- Hits in an interval no longer than the window are counted in the window at its start and in one more. -/
theorem counted_in_interval (events : List Event) {ts : List Int} {a b : Int} (near : b - a ≤ window)
    (bounded : ∀ early later, ts = early ++ later →
      ∀ d, counted window (events ++ early.map .hit) = some d → d.count ≤ most)
    (inside : ∀ t ∈ ts, a ≤ t ∧ t ≤ b) :
    ((counted window events).map Counter.count).getD 0 + ts.length ≤ 2 * most := by
  induction ts generalizing events with
  | nil =>
      have here := bounded [] [] rfl
      rw [List.map_nil, List.append_nil] at here
      cases before : counted window events with
      | none => exact Nat.zero_le _
      | some c =>
          have low := here c before
          simp only [Option.map_some, Option.getD_some, List.length_nil]
          omega
  | cons t ts ih =>
      have shifted : ∀ early later, ts = early ++ later → ∀ d,
          counted window ((events ++ [.hit t]) ++ early.map .hit) = some d → d.count ≤ most :=
        fun early later split d held => bounded (t :: early) later (by rw [split, List.cons_append]) d (by
          rw [← held, List.map_cons, List.append_assoc, List.singleton_append])
      have later : ∀ u ∈ ts, a ≤ u ∧ u ≤ b := fun u member => inside u (List.mem_cons_of_mem _ member)
      have opens : ∀ n, counted window (events ++ [.hit t]) = some ⟨1, t + window⟩ →
          n ≤ most → n + (t :: ts).length ≤ 2 * most := by
        intro n opened low
        have first := inside t List.mem_cons_self
        have rest := counted_in_window shifted opened fun u member => by
          have last := (later u member).2
          show u ≤ t + window
          omega
        simp only [List.length_cons] at rest ⊢
        omega
      cases before : counted window events with
      | none =>
          refine opens 0 ?_ (Nat.zero_le _)
          rw [counted_hit, before]
          rfl
      | some c =>
          have low := bounded [] _ rfl c (by rw [List.map_nil, List.append_nil, before])
          by_cases ended : t > c.windowEnd
          · refine opens c.count ?_ low
            rw [counted_hit, before, hit_of_ended ended]
          · have rest := ih _ shifted later
            rw [counted_hit, before, hit_of_open ended] at rest
            simp only [Option.map_some, Option.getD_some, List.length_cons] at rest ⊢
            omega

/-- **At most twice the most that a window counts**, in any interval no longer than the window. -/
theorem within_le (events : List Event) {ts : List Int} {a b : Int} (near : b - a ≤ window)
    (sorted : ts.Pairwise (· ≤ ·))
    (bounded : ∀ early later, ts = early ++ later →
      ∀ d, counted window (events ++ early.map .hit) = some d → d.count ≤ most) :
    within a b ts ≤ 2 * most := by
  obtain ⟨middle, split, inside, rest⟩ : ∃ middle, ts = ts.takeWhile (· < a) ++ middle ++
      (ts.dropWhile (· < a)).dropWhile (· ≤ b) ∧ (∀ t ∈ middle, a ≤ t ∧ t ≤ b) ∧
      within a b ts ≤ middle.length := by
    refine ⟨(ts.dropWhile (· < a)).takeWhile (· ≤ b), ?_, fun t member => ⟨?_, ?_⟩, ?_⟩
    · rw [List.append_assoc, List.takeWhile_append_dropWhile, List.takeWhile_append_dropWhile]
    · have kept := (List.takeWhile_prefix _).subset member
      cases start : ts.dropWhile (· < a) with
      | nil =>
          rw [start] at kept
          exact absurd kept List.not_mem_nil
      | cons s later =>
          have out := List.head?_dropWhile_not (fun t => decide (t < a)) ts
          have order := sorted.sublist (List.dropWhile_suffix (· < a)).sublist
          rw [start] at out kept order
          have reached : a ≤ s := by simpa using out
          rcases List.mem_cons.mp kept with rfl | kept
          · exact reached
          · exact le_trans reached ((List.pairwise_cons.mp order).1 t kept)
    · exact of_decide_eq_true (List.mem_takeWhile_imp (p := fun t => decide (t ≤ b)) member)
    · have none : within a b (ts.takeWhile (· < a)) = 0 := within_eq_zero fun t member both => by
        have early := List.mem_takeWhile_imp (p := fun t => decide (t < a)) member
        exact absurd (of_decide_eq_true early) (Int.not_lt.mpr both.1)
      calc within a b ts
          = within a b (ts.takeWhile (· < a)) + within a b (ts.dropWhile (· < a)) := by
            rw [← within_append, List.takeWhile_append_dropWhile]
        _ = within a b (ts.dropWhile (· < a)) := by rw [none, Nat.zero_add]
        _ ≤ ((ts.dropWhile (· < a)).takeWhile (· ≤ b)).length :=
            within_le_takeWhile (sorted.sublist (List.dropWhile_suffix _).sublist) a b
  have counts := counted_in_interval (events ++ (ts.takeWhile (· < a)).map .hit) near
    (fun early later here d held => bounded (ts.takeWhile (· < a) ++ early)
      (later ++ (ts.dropWhile (· < a)).dropWhile (· ≤ b))
      (split.trans (by rw [here]; simp only [List.append_assoc]))
      d (by rw [← held, List.map_append, List.append_assoc])) inside
  omega

end FixedWindow

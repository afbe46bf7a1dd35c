/-
**The limiter's windows do not slide.**

`keyedLimiter` counts from the first call after a window has ended, so the calls around the end of a window
may be more than `max` within less than a window.

* `letThrough_eq` — which calls for a key return true.
* `sliding_window_iff` — when they are at most `max` in every interval no longer than the window: for one
  sequence of calls, and for all of them.
* `refresh_burst` — nineteen refreshes within two seconds.
-/

import Wuflow.Limits.Bursts
import Wuflow.Limits.Cleanup

namespace Wuflow

open FixedWindow (counters passed Bounded AdjoiningFit windows within bounded_iff bounded_always_iff)

section Keyed

variable {κ : Type} [DecidableEq κ] {limit window cleanupEvery start : Int} {key : κ}
  {calls : List (κ × Clock)}

/-- When the calls for `key` run. -/
def timesOf (key : κ) (calls : List (κ × Clock)) : List Int :=
  (calls.filter fun call => call.1 = key).map fun call => call.2.now

/-- When the calls for `key` run that return true. -/
def letThrough (rl : KeyedLimiter κ) (key : κ) (calls : List (κ × Clock)) : List Int :=
  ((calls.zip (rl.answers calls)).filter fun call => call.1.1 = key ∧ call.2 = some true).map
    fun call => call.1.2.now

/-- The counter of a key lets its own calls through. -/
theorem letThrough_independent (past calls : List (κ × Clock)) :
    ((calls.zip ((independentAnswers limit window past calls).map some)).filter
        fun call => call.1.1 = key ∧ call.2 = some true).map (fun call => call.1.2.now) =
      passed limit window (counters window callEvent past key) (timesOf key calls) := by
  induction calls generalizing past with
  | nil => simp [timesOf]
  | cons call calls ih =>
      obtain ⟨other, clock⟩ := call
      have next := ih (past ++ [(other, clock)])
      rw [FixedWindow.counters_hit (callEvent_apply other clock)] at next
      unfold independentAnswers
      rw [List.map_cons, List.zip_cons_cons]
      by_cases here : other = key
      · subst here
        rw [Function.update_self] at next
        have times : timesOf other ((other, clock) :: calls) = clock.now :: timesOf other calls := by
          simp [timesOf]
        rw [times, passed]
        by_cases allowed :
            FixedWindow.allows limit clock.now (counters window callEvent past other) = true
        · rw [if_pos allowed, List.filter_cons_of_pos (by simpa using allowed), List.map_cons, next]
        · rw [if_neg allowed, List.filter_cons_of_neg (by simpa using allowed), next]
      · rw [Function.update_of_ne (Ne.symm here)] at next
        have times : timesOf key ((other, clock) :: calls) = timesOf key calls := by
          simp [timesOf, here]
        rw [times, List.filter_cons_of_neg (by simp [here]), next]

/-- **Which calls for a key return true**: none if the limiter panics. -/
theorem letThrough_eq (clocked : Clocked start (calls.map Prod.snd)) :
    letThrough (newKeyedLimiter limit window cleanupEvery) key calls =
      if cleanupEvery = 0 then [] else passed limit window none (timesOf key calls) := by
  unfold letThrough
  rw [newKeyedLimiter_answers limit window cleanupEvery clocked]
  by_cases panics : cleanupEvery = 0
  · rw [if_pos panics]
    refine List.map_eq_nil_iff.mpr (List.filter_eq_nil_iff.mpr fun call member => ?_)
    obtain ⟨b, _, none⟩ := List.mem_map.mp (List.of_mem_zip member).2
    have nothing : call.2 = Option.none := by
      rw [← none]
      exact if_pos panics
    simp [nothing]
  · rw [if_neg panics]
    have present : (fun b => if cleanupEvery = 0 then none else some b) = (some : Bool → Option Bool) := by
      funext b
      exact if_neg panics
    rw [present]
    exact letThrough_independent [] calls

theorem clocked_sorted (clocked : Clocked start (calls.map Prod.snd)) :
    (∀ t ∈ timesOf key calls, start ≤ t) ∧ (timesOf key calls).Pairwise (· ≤ ·) := by
  induction calls generalizing start with
  | nil => simp [timesOf]
  | cons call calls ih =>
      obtain ⟨other, clock⟩ := call
      obtain ⟨after, order, rest⟩ : start ≤ clock.now ∧ clock.now ≤ clock.later ∧
        Clocked clock.later (calls.map Prod.snd) := clocked
      obtain ⟨later, sorted⟩ := ih rest
      by_cases here : other = key
      · have times : timesOf key ((other, clock) :: calls) = clock.now :: timesOf key calls := by
          simp [timesOf, here]
        rw [times]
        refine ⟨fun t member => ?_, List.pairwise_cons.mpr ⟨fun t member => ?_, sorted⟩⟩
        · rcases List.mem_cons.mp member with rfl | member
          · exact after
          · have := later t member
            omega
        · have := later t member
          omega
      · have times : timesOf key ((other, clock) :: calls) = timesOf key calls := by
          simp [timesOf, here]
        rw [times]
        refine ⟨fun t member => ?_, sorted⟩
        have := later t member
        omega

/-- The calls for `key` at `ts`. -/
def callsAt (key : κ) (ts : List Int) : List (κ × Clock) := ts.map fun t => (key, ⟨t, t⟩)

theorem timesOf_callsAt (key : κ) (ts : List Int) : timesOf key (callsAt key ts) = ts := by
  induction ts with
  | nil => rfl
  | cons t ts ih => simpa [timesOf, callsAt] using ih

omit [DecidableEq κ] in
theorem clocked_callsAt {ts : List Int} (after : ∀ t ∈ ts, start ≤ t) (sorted : ts.Pairwise (· ≤ ·)) :
    Clocked start ((callsAt key ts).map Prod.snd) := by
  induction ts generalizing start with
  | nil => trivial
  | cons t ts ih =>
      obtain ⟨first, sorted⟩ := List.pairwise_cons.mp sorted
      exact ⟨after t List.mem_cons_self, Int.le_refl t, ih first sorted⟩

theorem bounded_nil_iff : Bounded limit window [] ↔ window < 0 ∨ 0 ≤ limit := by
  constructor
  · intro bounded
    by_cases wide : window < 0
    · exact .inl wide
    · exact .inr (bounded 0 0 (Int.le_refl 0) (by omega))
  · rintro (narrow | natural) a b order short
    · omega
    · exact natural

/-- **When at most `max` calls return true in every interval no longer than the window**: for a sequence of
calls, if the calls of any two adjoining counting windows fit; and for all sequences, if only one call is let
through in a window, or the window has no length. -/
theorem sliding_window_iff (limit window cleanupEvery : Int) (key : κ) :
    (∀ (start : Int) (calls : List (κ × Clock)), Clocked start (calls.map Prod.snd) →
      (Bounded limit window (letThrough (newKeyedLimiter limit window cleanupEvery) key calls) ↔
        window < 0 ∨ (0 ≤ limit ∧ (cleanupEvery = 0 ∨ timesOf key calls = [] ∨
          (1 ≤ limit ∧ AdjoiningFit limit.toNat window (windows window (timesOf key calls))))))) ∧
    ((∀ (start : Int) (calls : List (κ × Clock)), Clocked start (calls.map Prod.snd) →
      Bounded limit window (letThrough (newKeyedLimiter limit window cleanupEvery) key calls)) ↔
        window < 0 ∨ (0 ≤ limit ∧ (cleanupEvery = 0 ∨ (1 ≤ limit ∧ (window = 0 ∨ limit = 1))))) := by
  constructor
  · intro start calls clocked
    rw [letThrough_eq clocked]
    by_cases panics : cleanupEvery = 0
    · rw [if_pos panics, bounded_nil_iff]
      simp [panics]
    · rw [if_neg panics, bounded_iff (clocked_sorted clocked).2]
      simp [panics]
  · constructor
    · intro always
      have empty := always 0 [] trivial
      rw [show letThrough (newKeyedLimiter limit window cleanupEvery) key [] = [] from rfl,
        bounded_nil_iff] at empty
      rcases empty with narrow | natural
      · exact .inl narrow
      by_cases panics : cleanupEvery = 0
      · exact .inr ⟨natural, .inl panics⟩
      have all := bounded_always_iff.mp fun ts sorted => by
        have after : ∀ t ∈ ts, ts.headD 0 ≤ t := by
          cases ts with
          | nil => exact fun _ none => nomatch none
          | cons t ts =>
              intro u member
              rcases List.mem_cons.mp member with rfl | member
              · exact Int.le_refl u
              · exact (List.pairwise_cons.mp sorted).1 u member
        have clocked := @clocked_callsAt κ (ts.headD 0) key ts after sorted
        have bounded := always _ _ clocked
        rwa [letThrough_eq clocked, if_neg panics, timesOf_callsAt] at bounded
      exact all.imp_right fun short => ⟨natural, .inr short⟩
    · intro short start calls clocked
      rw [letThrough_eq clocked]
      by_cases panics : cleanupEvery = 0
      · rw [if_pos panics, bounded_nil_iff]
        exact short.imp_right And.left
      · rw [if_neg panics]
        refine bounded_always_iff.mpr ?_ _ (clocked_sorted clocked).2
        exact short.imp_right fun ⟨_, rest⟩ => rest.resolve_left panics

end Keyed

def second : Int := 1000000000

/-- One refresh, nine at the end of its minute, and ten after it. -/
def refreshes : List (String × Clock) :=
  callsAt "192.0.2.1" (0 :: List.replicate 9 (59 * second) ++ List.replicate 10 (61 * second))

/-- The refreshes of the next minute do not fit. -/
theorem refreshes_overlap :
    ¬ AdjoiningFit 10 minute (windows minute (timesOf "192.0.2.1" refreshes)) := by
  intro fit
  have clocked : Clocked 0 (refreshes.map Prod.snd) := by decide +kernel
  have bounded := ((sliding_window_iff refreshIPMax refreshIPWindow rlCleanupEvery "192.0.2.1").1 0 refreshes
    clocked).mpr (.inr ⟨by decide, .inr (.inr ⟨by decide, fit⟩)⟩)
  have many : within (59 * second) (61 * second) (letThrough refreshLimiter "192.0.2.1" refreshes) = 19 := by
    decide +kernel
  have few := bounded (59 * second) (61 * second) (by decide) (by decide)
  rw [show newKeyedLimiter refreshIPMax refreshIPWindow rlCleanupEvery = refreshLimiter from rfl, many] at few
  exact absurd few (by decide)

/-- **Nineteen refreshes within two seconds.** -/
theorem refresh_burst : ¬ ∀ (key : String) (start : Int) (calls : List (String × Clock)),
    Clocked start (calls.map Prod.snd) →
    Bounded refreshIPMax refreshIPWindow (letThrough refreshLimiter key calls) := by
  intro bounded
  have many : within (59 * second) (61 * second) (letThrough refreshLimiter "192.0.2.1" refreshes) = 19 := by
    decide +kernel
  have few := bounded "192.0.2.1" 0 refreshes (by decide +kernel) (59 * second) (61 * second) (by decide)
    (by decide)
  rw [many] at few
  exact absurd few (by decide)

end Wuflow

/-
**How many hits a counter lets through in any interval.**

* `windows` — the counting windows of a sequence of hits; `passed_eq_flatMap` — the first hits of every
  window are let through.
* `windows_separated` — hits of windows that do not adjoin are further apart than the window.
* `bounded_iff` — at most `limit` hits are let through in every interval no longer than the window, iff that
  holds around the end of each window.
-/

import Mathlib.Algebra.Order.Group.Int
import Mathlib.Data.List.TakeWhile
import Wuflow.Limits.FixedWindow

namespace FixedWindow

/-! ### Counting windows -/

/-- The hits, by the windows they are counted in. -/
def windows (window : Int) : List Int → List (List Int)
  | [] => []
  | t :: ts =>
      (t :: ts.takeWhile (· ≤ t + window)) :: windows window (ts.dropWhile (· ≤ t + window))
termination_by ts => ts.length
decreasing_by exact Nat.lt_succ_of_le (List.dropWhile_suffix _).length_le

/-- The hits that are let through, from a counter on. -/
def passed (limit window : Int) : Option Counter → List Int → List Int
  | _, [] => []
  | counter, t :: ts =>
      if allows limit t counter then t :: passed limit window (some (hit window t counter)) ts
      else passed limit window (some (hit window t counter)) ts

variable {limit window : Int} {ts : List Int}

@[simp] theorem passed_nil (counter : Option Counter) : passed limit window counter [] = [] := by
  unfold passed
  rfl

theorem passed_cons_none (t : Int) (ts : List Int) :
    passed limit window none (t :: ts) = t :: passed limit window (some ⟨1, t + window⟩) ts := by
  rw [passed]
  exact if_pos rfl

/-- The rest of a window, and what follows. -/
theorem passed_some (n : Nat) (e : Int) (ts : List Int) :
    passed limit window (some ⟨n, e⟩) ts =
      (ts.takeWhile (· ≤ e)).take (limit.toNat - n) ++ passed limit window none (ts.dropWhile (· ≤ e)) := by
  induction ts generalizing n with
  | nil => simp
  | cons t ts ih =>
      by_cases inside : t ≤ e
      · have ahead : ¬ t > (⟨n, e⟩ : Counter).windowEnd := Int.not_lt.mpr inside
        rw [List.takeWhile_cons_of_pos (by simpa using inside),
          List.dropWhile_cons_of_pos (by simpa using inside),
          passed, allows_of_open ahead, hit_of_open ahead, ih]
        by_cases fits : (n : Int) + 1 ≤ limit
        · rw [if_pos (by simpa using fits), show limit.toNat - n = (limit.toNat - (n + 1)) + 1 by omega]
          rfl
        · rw [if_neg (by simpa using fits), show limit.toNat - n = 0 by omega,
            show limit.toNat - (n + 1) = 0 by omega]
          rfl
      · have ended : t > (⟨n, e⟩ : Counter).windowEnd := Int.not_le.mp inside
        rw [List.takeWhile_cons_of_neg (by simpa using inside),
          List.dropWhile_cons_of_neg (by simpa using inside),
          passed_cons_none, passed, allows_of_ended ended, hit_of_ended ended]
        simp

/-- **The first hits of every window are let through.** -/
theorem passed_eq_flatMap (limit window : Int) (ts : List Int) :
    passed limit window none ts = (windows window ts).flatMap (List.take (max 1 limit.toNat)) := by
  induction ts using windows.induct window with
  | case1 => simp [windows]
  | case2 t ts ih =>
      rw [passed_cons_none, passed_some, ih, windows, List.flatMap_cons,
        show max 1 limit.toNat = (limit.toNat - 1) + 1 by omega]
      rfl

theorem windows_flatten (window : Int) (ts : List Int) : (windows window ts).flatten = ts := by
  induction ts using windows.induct window with
  | case1 => simp [windows]
  | case2 t ts ih => rw [windows, List.flatten_cons, ih, List.cons_append, List.takeWhile_append_dropWhile]

/-! ### How far windows are apart -/

/-- The hits of each window are in order and at most `window` after its first; the next windows begin later. -/
def Separated (window : Int) : List (List Int) → Prop
  | [] => True
  | w :: ws => (∃ s rest, w = s :: rest ∧ (∀ x ∈ w, s ≤ x ∧ x ≤ s + window) ∧ ∀ y ∈ ws.flatten, s + window < y) ∧
      w.Pairwise (· ≤ ·) ∧ Separated window ws

theorem windows_separated (sorted : ts.Pairwise (· ≤ ·)) (wide : 0 ≤ window) :
    Separated window (windows window ts) := by
  induction ts using windows.induct window with
  | case1 =>
      rw [windows]
      trivial
  | case2 t ts ih =>
      obtain ⟨first, rest⟩ := List.pairwise_cons.mp sorted
      have begins : (t :: ts.takeWhile (· ≤ t + window)) <+: t :: ts :=
        (List.prefix_cons_inj t).mpr (List.takeWhile_prefix _)
      have ends : ts.dropWhile (· ≤ t + window) <:+ ts := List.dropWhile_suffix _
      have later : (ts.dropWhile (· ≤ t + window)).Pairwise (· ≤ ·) := rest.sublist ends.sublist
      rw [windows]
      refine ⟨⟨t, _, rfl, ?_, ?_⟩, sorted.sublist begins.sublist, ih later⟩
      · intro x member
        rcases List.mem_cons.mp member with rfl | member
        · omega
        · have inside := List.mem_takeWhile_imp (p := fun x => decide (x ≤ t + window)) member
          exact ⟨first x ((List.takeWhile_prefix _).subset member), of_decide_eq_true inside⟩
      · rw [windows_flatten]
        intro y member
        cases split : ts.dropWhile (· ≤ t + window) with
        | nil => exact nomatch split ▸ member
        | cons z zs =>
            have beyond : t + window < z := by
              have out := List.head?_dropWhile_not (fun x => decide (x ≤ t + window)) ts
              rw [split] at out
              simpa using out
            rw [split] at member later
            rcases List.mem_cons.mp member with rfl | member
            · exact beyond
            · exact Int.lt_of_lt_of_le beyond ((List.pairwise_cons.mp later).1 y member)

/-! ### Hits in an interval -/

/-- The number of `ts` from `a` to `b`. -/
def within (a b : Int) (ts : List Int) : Nat := ts.countP fun t => decide (a ≤ t ∧ t ≤ b)

theorem within_append (a b : Int) (ts us : List Int) : within a b (ts ++ us) = within a b ts + within a b us :=
  List.countP_append

theorem within_le_length (a b : Int) (ts : List Int) : within a b ts ≤ ts.length := List.countP_le_length

theorem within_eq_zero {a b : Int} {ts : List Int} (out : ∀ t ∈ ts, ¬ (a ≤ t ∧ t ≤ b)) : within a b ts = 0 :=
  List.countP_eq_zero.mpr fun t member => by simpa using out t member

theorem within_eq_length {a b : Int} {ts : List Int} (inside : ∀ t ∈ ts, a ≤ t ∧ t ≤ b) :
    within a b ts = ts.length :=
  List.countP_eq_length.mpr fun t member => by simpa using inside t member

/-- What is within an interval comes after what is before it. -/
theorem within_le_dropWhile (a b : Int) (ts : List Int) :
    within a b ts ≤ (ts.dropWhile (· < a)).length := by
  have before : within a b (ts.takeWhile (· < a)) = 0 := by
    refine within_eq_zero fun t member inside => ?_
    have early := List.mem_takeWhile_imp (p := fun t => decide (t < a)) member
    exact absurd (of_decide_eq_true early) (Int.not_lt.mpr inside.1)
  calc within a b ts
      = within a b (ts.takeWhile (· < a)) + within a b (ts.dropWhile (· < a)) := by
        rw [← within_append, List.takeWhile_append_dropWhile]
    _ ≤ (ts.dropWhile (· < a)).length := by
        rw [before, Nat.zero_add]
        exact within_le_length a b _

/-- What is within an interval comes before what is after it. -/
theorem within_le_takeWhile {ts : List Int} (sorted : ts.Pairwise (· ≤ ·)) (a b : Int) :
    within a b ts ≤ (ts.takeWhile (· ≤ b)).length := by
  have after : within a b (ts.dropWhile (· ≤ b)) = 0 := by
    refine within_eq_zero fun t member inside => ?_
    cases split : ts.dropWhile (· ≤ b) with
    | nil => exact nomatch split ▸ member
    | cons z zs =>
        have late : b < z := by
          have out := List.head?_dropWhile_not (fun t => decide (t ≤ b)) ts
          rw [split] at out
          simpa using out
        have order := sorted.sublist (List.dropWhile_suffix (· ≤ b)).sublist
        rw [split] at member order
        rcases List.mem_cons.mp member with rfl | member
        · omega
        · have := (List.pairwise_cons.mp order).1 t member
          omega
  calc within a b ts
      = within a b (ts.takeWhile (· ≤ b)) + within a b (ts.dropWhile (· ≤ b)) := by
        rw [← within_append, List.takeWhile_append_dropWhile]
    _ ≤ (ts.takeWhile (· ≤ b)).length := by
        rw [after, Nat.add_zero]
        exact within_le_length a b _

/-! ### Two adjoining windows -/

/-- Of two adjoining windows, from any hit `x` of the first to its end and from the start of the second to any
hit `y` at most `window` after `x`, there are at most `limit`. -/
def Fits (limit : Nat) (window : Int) (xs ys : List Int) : Prop :=
  ∀ before x after front y back, xs = before ++ x :: after → ys = front ++ y :: back → y - x ≤ window →
    (after.length + 1) + (front.length + 1) ≤ limit

theorem Fits.within_le {limit : Nat} {xs ys : List Int} (fits : Fits limit window xs ys)
    (short : xs.length ≤ limit) (short' : ys.length ≤ limit) (sorted : ys.Pairwise (· ≤ ·)) {a b : Int}
    (narrow : b - a ≤ window) : within a b xs + within a b ys ≤ limit := by
  have last := within_le_dropWhile a b xs
  have first := within_le_takeWhile sorted a b
  cases ending : xs.dropWhile (· < a) with
  | nil =>
      rw [ending] at last
      have all := within_le_length a b ys
      simp only [List.length_nil] at last
      omega
  | cons x after =>
      have reached : a ≤ x := by
        have out := List.head?_dropWhile_not (fun t => decide (t < a)) xs
        rw [ending] at out
        simpa using out
      have xsSplit : xs = xs.takeWhile (· < a) ++ x :: after := by
        rw [← ending, List.takeWhile_append_dropWhile]
      rcases List.eq_nil_or_concat (ys.takeWhile (· ≤ b)) with none | ⟨front, y, beginning⟩
      · rw [none] at first
        have all := within_le_length a b xs
        simp only [List.length_nil] at first
        omega
      · rw [List.concat_eq_append] at beginning
        have early : y ≤ b := by
          have member : y ∈ ys.takeWhile (· ≤ b) := by
            rw [beginning]
            exact List.mem_concat_self
          exact of_decide_eq_true (List.mem_takeWhile_imp (p := fun t => decide (t ≤ b)) member)
        have ysSplit : ys = front ++ y :: ys.dropWhile (· ≤ b) := by
          calc ys = ys.takeWhile (· ≤ b) ++ ys.dropWhile (· ≤ b) := List.takeWhile_append_dropWhile.symm
            _ = front ++ y :: ys.dropWhile (· ≤ b) := by
              rw [beginning, List.append_assoc]
              rfl
        have bound := fits _ _ _ _ _ _ xsSplit ysSplit (by omega)
        rw [ending] at last
        rw [beginning, List.length_append] at first
        simp only [List.length_cons, List.length_nil] at last first
        omega

/-- The hits that `Fits` counts are in one interval. -/
theorem fits_of_within_le {limit : Nat} {xs ys : List Int} (sorted : xs.Pairwise (· ≤ ·))
    (sorted' : ys.Pairwise (· ≤ ·)) (apart : ∀ x ∈ xs, ∀ y ∈ ys, x < y)
    (bounded : ∀ a b, a ≤ b → b - a ≤ window → within a b xs + within a b ys ≤ limit) :
    Fits limit window xs ys := by
  intro before x after front y back xsSplit ysSplit near
  subst xsSplit ysSplit
  have x_mem : x ∈ before ++ x :: after := List.mem_append_right _ List.mem_cons_self
  have y_mem : y ∈ front ++ y :: back := List.mem_append_right _ List.mem_cons_self
  have order : x < y := apart x x_mem y y_mem
  have rest : within x y (x :: after) = after.length + 1 := by
    refine within_eq_length fun t member => ?_
    have here : t ∈ before ++ x :: after := List.mem_append_right _ member
    refine ⟨?_, Int.le_of_lt (apart t here y y_mem)⟩
    rcases List.mem_cons.mp member with rfl | member
    · exact Int.le_refl t
    · exact (List.pairwise_cons.mp (List.pairwise_append.mp sorted).2.1).1 t member
  have start : within x y (front ++ [y]) = front.length + 1 := by
    rw [within_eq_length, List.length_append]
    · rfl
    · intro t member
      rcases List.mem_append.mp member with member | member
      · have here : t ∈ front ++ y :: back := List.mem_append_left _ member
        exact ⟨Int.le_of_lt (apart x x_mem t here),
          (List.pairwise_append.mp sorted').2.2 t member y List.mem_cons_self⟩
      · rw [List.mem_singleton.mp member]
        exact ⟨Int.le_of_lt order, Int.le_refl y⟩
  have all := bounded x y (Int.le_of_lt order) near
  rw [within_append, List.append_cons front y back, within_append, rest, start] at all
  omega

/-! ### All windows -/

/-- Any two adjoining windows fit, as far as their hits are let through. -/
def AdjoiningFit (limit : Nat) (window : Int) (ws : List (List Int)) : Prop :=
  ∀ w w', [w, w'] <:+: ws → Fits limit window (w.take limit) (w'.take limit)

theorem AdjoiningFit.tail {limit : Nat} {w : List Int} {ws : List (List Int)}
    (fit : AdjoiningFit limit window (w :: ws)) : AdjoiningFit limit window ws :=
  fun v v' inside => fit v v' (inside.trans (List.suffix_cons w ws).isInfix)

theorem within_flatMap_le {limit : Nat} {ws : List (List Int)} (apart : Separated window ws)
    (fit : AdjoiningFit limit window ws) {a b : Int} (narrow : b - a ≤ window) :
    within a b (ws.flatMap (List.take limit)) ≤ limit := by
  induction ws with
  | nil => exact Nat.zero_le limit
  | cons w ws ih =>
      obtain ⟨⟨s, rest, _, here, later⟩, _, next⟩ := apart
      rw [List.flatMap_cons, within_append]
      by_cases hits : ∃ x ∈ w.take limit, a ≤ x ∧ x ≤ b
      · -- only the next window can be reached from here
        obtain ⟨x, member, inside⟩ := hits
        have bound := (here x (List.take_subset _ _ member)).2
        cases ws with
        | nil =>
            refine le_trans ?_ (List.length_take_le limit w)
            exact within_le_length a b _
        | cons w' ws =>
            obtain ⟨⟨s', rest', begins', _, later'⟩, sorted', _⟩ := next
            have start : s + window < s' := later s' (List.mem_flatten_of_mem List.mem_cons_self
              (begins' ▸ List.mem_cons_self))
            have beyond : within a b (ws.flatMap (List.take limit)) = 0 := by
              refine within_eq_zero fun y among inside' => ?_
              obtain ⟨v, member', taken⟩ := List.mem_flatMap.mp among
              have far := later' y (List.mem_flatten_of_mem member' (List.take_subset _ _ taken))
              omega
            rw [List.flatMap_cons, within_append, beyond, Nat.add_zero]
            exact (fit w w' ⟨[], ws, rfl⟩).within_le (List.length_take_le limit w)
              (List.length_take_le limit w') (sorted'.sublist (List.take_sublist limit w')) narrow
      · have none : within a b (w.take limit) = 0 :=
          within_eq_zero fun x member inside => hits ⟨x, member, inside⟩
        rw [none, Nat.zero_add]
        exact ih next fit.tail

theorem Separated.of_append {before ws : List (List Int)} (apart : Separated window (before ++ ws)) :
    Separated window ws := by
  induction before with
  | nil => exact apart
  | cons w before ih => exact ih apart.2.2

theorem adjoiningFit_of_within_le {limit : Nat} {ws : List (List Int)} (apart : Separated window ws)
    (bounded : ∀ a b, a ≤ b → b - a ≤ window → within a b (ws.flatMap (List.take limit)) ≤ limit) :
    AdjoiningFit limit window ws := by
  rintro w w' ⟨before, after, rfl⟩
  rw [List.append_assoc] at apart
  obtain ⟨⟨s, rest, _, here, later⟩, sorted, _, sorted', _⟩ := apart.of_append
  refine fits_of_within_le (sorted.sublist (List.take_sublist limit w))
    (sorted'.sublist (List.take_sublist limit w')) (fun x member y member' => ?_) fun a b order narrow => ?_
  · have early := (here x (List.take_subset _ _ member)).2
    have late := later y (List.mem_flatten_of_mem List.mem_cons_self (List.take_subset _ _ member'))
    omega
  · have all := bounded a b order narrow
    rw [List.flatMap_append, List.flatMap_append, within_append, within_append, List.flatMap_cons,
      List.flatMap_cons, List.flatMap_nil, List.append_nil, within_append] at all
    omega

/-! ### The bound -/

/-- At most `limit` of the times are in an interval no longer than `window`. -/
def Bounded (limit window : Int) (ts : List Int) : Prop :=
  ∀ a b, a ≤ b → b - a ≤ window → (within a b ts : Int) ≤ limit

/-- **When the bound holds**: for adjoining windows. -/
theorem bounded_iff (sorted : ts.Pairwise (· ≤ ·)) :
    Bounded limit window (passed limit window none ts) ↔
      window < 0 ∨ (0 ≤ limit ∧
        (ts = [] ∨ 1 ≤ limit ∧ AdjoiningFit limit.toNat window (windows window ts))) := by
  by_cases wide : 0 ≤ window
  · have apart := windows_separated sorted wide
    constructor
    · intro bounded
      refine .inr ⟨le_trans (Int.natCast_nonneg _) (bounded 0 0 (Int.le_refl 0) (by omega)), ?_⟩
      cases ts with
      | nil => exact .inl rfl
      | cons t ts =>
          have first := bounded t t (Int.le_refl t) (by omega)
          have hit : 1 ≤ within t t (passed limit window none (t :: ts)) := by
            rw [passed_cons_none]
            exact List.countP_pos_iff.mpr ⟨t, List.mem_cons_self, by simp⟩
          refine .inr ⟨by omega, adjoiningFit_of_within_le apart fun a b order narrow => ?_⟩
          have here := bounded a b order narrow
          rw [passed_eq_flatMap, show max 1 limit.toNat = limit.toNat by omega] at here
          omega
    · rintro (narrow | ⟨natural, rfl | ⟨positive, fit⟩⟩)
      · omega
      · intro a b _ _
        rw [passed_nil]
        exact natural
      · intro a b _ narrow
        rw [passed_eq_flatMap, show max 1 limit.toNat = limit.toNat by omega]
        have here := within_flatMap_le apart fit narrow
        omega
  · refine iff_of_true (fun a b order narrow => ?_) (.inl (by omega))
    omega

/-- `limit` hits at the end of a window, and two at the start of the next one. -/
def burst (limit window : Int) : List Int :=
  0 :: (List.replicate (limit.toNat - 1) window ++ [window + 1, window + 1])

theorem burst_sorted (wide : 0 ≤ window) : (burst limit window).Pairwise (· ≤ ·) := by
  unfold burst
  rw [List.pairwise_cons, List.pairwise_append]
  refine ⟨fun t member => ?_, List.pairwise_replicate.mpr (.inr (Int.le_refl window)), by simp, ?_⟩
  · simp only [List.mem_append, List.mem_replicate, List.mem_cons, List.not_mem_nil, or_false] at member
    omega
  · intro t member u member'
    simp only [List.mem_replicate, List.mem_cons, List.not_mem_nil, or_false] at member member'
    omega

theorem passed_burst (wide : 0 ≤ window) (several : 2 ≤ limit) :
    passed limit window none (burst limit window) = burst limit window := by
  have inside : ∀ t ∈ List.replicate (limit.toNat - 1) window, decide (t ≤ window) = true := fun t member =>
    decide_eq_true (Int.le_of_eq (List.mem_replicate.mp member).2)
  have again : (window + 1 ≤ window + 1 + window) := by omega
  unfold burst
  rw [passed_cons_none, passed_some, Int.zero_add, List.takeWhile_append_of_pos inside,
    List.dropWhile_append_of_pos inside, List.takeWhile_cons_of_neg (by simp),
    List.dropWhile_cons_of_neg (by simp), List.append_nil, List.take_of_length_le (by simp),
    passed_cons_none, passed_some, List.takeWhile_cons_of_pos (by simpa using again),
    List.dropWhile_cons_of_pos (by simpa using again)]
  rw [List.takeWhile_nil, List.dropWhile_nil, passed_nil, List.take_of_length_le (by simp; omega)]
  rfl

/-- **When the bound holds for all sequences**: one hit in a window, or windows of no length. -/
theorem bounded_always_iff :
    (∀ ts : List Int, ts.Pairwise (· ≤ ·) → Bounded limit window (passed limit window none ts)) ↔
      window < 0 ∨ (1 ≤ limit ∧ (window = 0 ∨ limit = 1)) := by
  constructor
  · intro always
    by_contra other
    have one := (bounded_iff (List.pairwise_singleton _ 0)).mp (always [0] (List.pairwise_singleton _ 0))
    have several : 0 < window ∧ 2 ≤ limit := by
      rcases one with narrow | ⟨_, none | ⟨positive, _⟩⟩
      · omega
      · exact nomatch none
      · omega
    have sorted : (burst limit window).Pairwise (· ≤ ·) := burst_sorted (Int.le_of_lt several.1)
    have bounded := always _ sorted window (window + 1) (by omega) (by omega)
    rw [passed_burst (Int.le_of_lt several.1) several.2] at bounded
    have all : within window (window + 1) (burst limit window) = limit.toNat + 1 := by
      unfold burst
      rw [show (0 : Int) :: (List.replicate (limit.toNat - 1) window ++ [window + 1, window + 1]) =
        [0] ++ (List.replicate (limit.toNat - 1) window ++ [window + 1, window + 1]) from rfl, within_append,
        within_eq_zero (by simp; omega), within_eq_length]
      · simp
        omega
      · intro t member
        simp only [List.mem_append, List.mem_replicate, List.mem_cons, List.not_mem_nil, or_false] at member
        omega
    omega
  · intro short ts sorted
    refine (bounded_iff sorted).mpr ?_
    rcases short with narrow | ⟨positive, short⟩
    · exact .inl narrow
    · by_cases wide : window < 0
      · exact .inl wide
      refine .inr ⟨by omega, .inr ⟨positive, ?_⟩⟩
      intro w w' inside before x after front y back split split' near
      exfalso
      have apart := windows_separated sorted (Int.not_lt.mp wide)
      obtain ⟨earlier, rest, whole⟩ := inside
      rw [← whole, List.append_assoc] at apart
      obtain ⟨⟨s, rest', begins, here, later⟩, _⟩ := apart.of_append
      have y_mem : y ∈ w' := List.take_subset _ _ (split' ▸ List.mem_append_right _ List.mem_cons_self)
      have late := later y (List.mem_flatten_of_mem List.mem_cons_self y_mem)
      have x_mem : x ∈ w.take limit.toNat := split ▸ List.mem_append_right _ List.mem_cons_self
      rcases short with none | single
      · have early := (here x (List.take_subset _ _ x_mem)).2
        omega
      · rw [single, begins, show (s :: rest').take (Int.toNat 1) = [s] from rfl, List.mem_singleton] at x_mem
        omega

end FixedWindow

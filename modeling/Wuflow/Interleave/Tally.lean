/-
**Who a pending continuation belongs to, and how much it can still do.**

On an event loop (`EventLoop.Machine`) what a call has left pending is its own: the continuations of a key
are counted, and a machine that keeps the count at one while the key is alive, and at none before and
after, neither forgets a call nor resumes it twice. With a weight for each continuation that a resumption
lowers, the calls bound the moves; and if no state is stuck, every run can be brought to rest.

* `Owned.moved` — the count is kept when what comes balances what goes.
* `Run.bounded` — the resumptions of a run, and what they leave to do, by the number of its calls.
* `Run.rests` — every run goes on to one with nothing pending.
-/

import Wuflow.Interleave.EventLoop
import Mathlib.Data.Bool.Count
import Mathlib.Algebra.Order.BigOperators.Group.List

namespace EventLoop

variable {S Call Task Answer Key : Type} [DecidableEq Key]

/-! ### Keys -/

/-- The number of continuations of a key. -/
def owned (key : Task → Option Key) (k : Key) (pending : List Task) : Nat :=
  pending.countP fun t => key t = some k

/-- **A key that is alive has one continuation**, and any other has none. -/
def Owned (key : Task → Option Key) (live : Key → Bool) (pending : List Task) : Prop :=
  ∀ k, owned key k pending = (live k).toNat

section Keys

variable {key : Task → Option Key} {live live' : Key → Bool} {pending before after new : List Task} {t u : Task}
  {k : Key}

theorem owned_cons (key : Task → Option Key) (k : Key) (t : Task) (rest : List Task) :
    owned key k (t :: rest) = owned key k [t] + owned key k rest := by
  unfold owned
  rw [← List.countP_append, List.singleton_append]

theorem owned_single (key : Task → Option Key) (k : Key) (t : Task) :
    owned key k [t] = if key t = some k then 1 else 0 := by
  unfold owned
  rw [List.countP_singleton]
  simp only [decide_eq_true_eq]

/-- What a call leaves pending brings its keys to life. -/
theorem Owned.called (held : Owned key live pending)
    (balance : ∀ k, owned key k new + (live k).toNat = (live' k).toNat) : Owned key live' (pending ++ new) := by
  intro k
  have here : owned key k (pending ++ new) = owned key k pending + owned key k new := List.countP_append
  rw [here, held k, ← balance k, Nat.add_comm]

/-- **What comes balances what goes.** -/
theorem Owned.moved (held : Owned key live (before ++ t :: after))
    (balance : ∀ k, owned key k new + (live k).toNat = (live' k).toNat + owned key k [t]) :
    Owned key live' (before ++ after ++ new) := by
  intro k
  have first := held k
  have here : owned key k (before ++ after ++ new) = owned key k (before ++ after) + owned key k new :=
    List.countP_append
  unfold owned at first
  rw [countP_pending] at first
  have balanced := balance k
  rw [owned_single] at balanced
  simp only [decide_eq_true_eq] at first
  unfold owned at here balanced ⊢
  omega

theorem Owned.alive (held : Owned key live pending) (member : t ∈ pending) (of : key t = some k) :
    live k = true := by
  have some : 0 < owned key k pending := List.countP_pos_iff.mpr ⟨t, member, decide_eq_true of⟩
  rw [held k] at some
  cases living : live k with
  | true => rfl
  | false =>
      rw [living] at some
      exact absurd some (Nat.lt_irrefl 0)

/-- A continuation makes way for others of the same keys. -/
theorem Owned.kept (held : Owned key live (before ++ t :: after)) (same : ∀ k, live' k = live k)
    (heirs : ∀ k, owned key k new = owned key k [t]) : Owned key live' (before ++ after ++ new) :=
  held.moved fun k => by rw [heirs k, same k, Nat.add_comm]

/-- The last continuation of a key goes, and the key with it. -/
theorem Owned.ended (held : Owned key live (before ++ t :: after)) (of : key t = some k)
    (gone : ∀ j, live' j = (live j && decide (j ≠ k))) (none : ∀ j, owned key j new = 0) :
    Owned key live' (before ++ after ++ new) := by
  refine held.moved fun j => ?_
  rw [none j, gone j, owned_single, of]
  by_cases here : j = k
  · subst here
    rw [held.alive (mem_pending.mpr (.inl rfl)) of]
    simp
  · rw [if_neg fun same => here (Option.some.inj same).symm]
    simp [here]

theorem Owned.task (held : Owned key live pending) (living : live k = true) : ∃ t ∈ pending, key t = some k := by
  have some : 0 < owned key k pending := by
    rw [held k, living]
    exact Nat.one_pos
  obtain ⟨t, member, of⟩ := List.countP_pos_iff.mp some
  exact ⟨t, member, of_decide_eq_true of⟩

/-- The other continuations are of other keys. -/
theorem Owned.alone (held : Owned key live (before ++ t :: after)) (of : key t = some k) :
    ∀ u ∈ before ++ after, key u ≠ some k := by
  have one : (before ++ t :: after).countP (fun t => key t = some k) ≤ 1 := (held k).le.trans (Bool.toNat_le _)
  exact fun u member same => not_of_countP_le_one one (decide_eq_true of) u member (decide_eq_true same)

end Keys

/-! ### Weights -/

/-- What the continuations can still do. -/
def load (weight : Task → Nat) (pending : List Task) : Nat := (pending.map weight).sum

/-- A call leaves at most `most` to do, and a resumption less than it takes. -/
structure Wanes (m : Machine S Call Task Answer) (weight : Task → Nat) (most : Nat) : Prop where
  call : ∀ c s s' new, m.call c s = some (s', new) → load weight new ≤ most
  resume : ∀ t a s s' new, m.resume t a s = some (s', new) → load weight new < weight t

def Move.isCall : Move Call Task Answer → Bool
  | .call _ => true
  | .resume _ _ => false

section Weights

variable {m : Machine S Call Task Answer} {weight : Task → Nat} {most : Nat}
  {allowed : S → List Task → Move Call Task Answer → Prop} {start s : S} {past : List (Move Call Task Answer)}
  {pending : List Task}

theorem load_append (weight : Task → Nat) (pending new : List Task) :
    load weight (pending ++ new) = load weight pending + load weight new := by
  unfold load
  rw [List.map_append, List.sum_append]

theorem load_pending (weight : Task → Nat) (before after : List Task) (t : Task) :
    load weight (before ++ t :: after) = load weight (before ++ after) + weight t := by
  unfold load
  rw [List.map_append, List.map_append, List.map_cons, List.sum_append, List.sum_append, List.sum_cons]
  omega

/-- **The calls of a run bound its resumptions**, and what these leave to do. -/
theorem Run.bounded (wanes : Wanes m weight most) (run : Run m allowed start past s pending) :
    past.countP (!·.isCall) + load weight pending ≤ most * past.countP (·.isCall) := by
  refine run.invariant
    (fun past _ pending => past.countP (!·.isCall) + load weight pending ≤ most * past.countP (·.isCall))
    (Nat.le_refl _) fun past s pending move s' pending' _ _ here bound => ?_
  cases here with
  | call acts =>
      have added := wanes.call _ _ _ _ acts
      rw [List.countP_cons_of_neg Bool.false_ne_true, List.countP_cons_of_pos rfl, load_append, Nat.mul_add,
        Nat.mul_one]
      omega
  | resume acts =>
      have less := wanes.resume _ _ _ _ _ acts
      rw [load_pending] at bound
      rw [List.countP_cons_of_pos rfl, List.countP_cons_of_neg Bool.false_ne_true, load_append]
      omega

/-- **A run that is never stuck comes to rest**: if from any state with something pending some moves of
the right kind leave less to do, such moves leave nothing. `like` is what these moves keep of the state. -/
theorem Run.rests (weight : Task → Nat) (kind : Move Call Task Answer → Prop) (like : S → S → Prop)
    (refl : ∀ s, like s s) (trans : ∀ s s' s'', like s s' → like s' s'' → like s s'')
    (goesOn : ∀ past s pending, Run m allowed start past s pending → pending ≠ [] →
      ∃ later s' pending', (∀ move ∈ later, kind move) ∧ like s s' ∧
        Run m allowed start (later ++ past) s' pending' ∧ load weight pending' < load weight pending)
    (run : Run m allowed start past s pending) :
    ∃ later s', (∀ move ∈ later, kind move) ∧ like s s' ∧ Run m allowed start (later ++ past) s' [] := by
  induction left : load weight pending using Nat.strong_induction_on generalizing past s pending with
  | _ n ih =>
      by_cases rest : pending = []
      · subst rest
        exact ⟨[], s, nofun, refl s, run⟩
      · obtain ⟨later, s', pending', right, alike, further, less⟩ := goesOn past s pending run rest
        obtain ⟨last, s'', kinds, alike', done⟩ := ih _ (left ▸ less) further rfl
        rw [← List.append_assoc] at done
        refine ⟨last ++ later, s'', fun move member => ?_, trans s s' s'' alike alike', done⟩
        rcases List.mem_append.mp member with late | early
        · exact kinds move late
        · exact right move early

end Weights

end EventLoop

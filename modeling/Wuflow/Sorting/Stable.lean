/-
**Stable sorting by a number.**

`List.insertionSort` is stable, so sorting and leaving elements out may be done in either order, and the
sorted list is determined by the numbers and, among equal ones, by the list that is sorted.

* `filter_insertionSort` — what is left of a sorted list is the sorted rest.
* `before_sortBy` — which of two elements comes first in the sorted list.
* `sortBy_eq_iff` — two numberings sort a list alike exactly if they agree on every pair.
* `sortBy_renumbered_iff` — the same for a numbering that only moves some elements to their places in a
  given list: it is enough to compare those with the rest.
-/

import Mathlib.Data.List.Sort

namespace Sorting

variable {α : Type} {r : α → α → Prop} [DecidableRel r]

/-- An element that is left out. -/
theorem filter_orderedInsert_of_not {p : α → Bool} {a : α} (out : p a = false) (l : List α) :
    (l.orderedInsert r a).filter p = l.filter p := by
  induction l with
  | nil => exact List.filter_cons_of_neg (Bool.eq_false_iff.mp out)
  | cons b l ih =>
      by_cases before : r a b
      · rw [List.orderedInsert_cons_of_le r l before]
        exact List.filter_cons_of_neg (Bool.eq_false_iff.mp out)
      · rw [List.orderedInsert_of_not_le r l before, List.filter_cons, List.filter_cons, ih]

/-- An element that stays. -/
theorem filter_orderedInsert [IsTrans α r] {p : α → Bool} {a : α} (stays : p a = true) {l : List α}
    (sorted : l.Pairwise r) : (l.orderedInsert r a).filter p = (l.filter p).orderedInsert r a := by
  induction l with
  | nil => exact List.filter_cons_of_pos stays
  | cons b l ih =>
      obtain ⟨least, sorted⟩ := List.pairwise_cons.mp sorted
      by_cases before : r a b
      · rw [List.orderedInsert_cons_of_le r l before, List.filter_cons_of_pos stays]
        -- it comes before everything that stays
        cases rest : (b :: l).filter p with
        | nil => rfl
        | cons c rest' =>
            have member : c ∈ b :: l := (List.mem_filter.mp (rest ▸ List.mem_cons_self)).1
            have first : r a c := by
              rcases List.mem_cons.mp member with rfl | member
              · exact before
              · exact trans_of r before (least c member)
            rw [List.orderedInsert_cons_of_le r rest' first]
      · rw [List.orderedInsert_of_not_le r l before]
        cases kept : p b with
        | false => rw [List.filter_cons_of_neg (Bool.eq_false_iff.mp kept), ih sorted,
            List.filter_cons_of_neg (Bool.eq_false_iff.mp kept)]
        | true => rw [List.filter_cons_of_pos kept, ih sorted, List.filter_cons_of_pos kept,
            List.orderedInsert_of_not_le r _ before]

/-- **Sorting and leaving out commute.** -/
theorem filter_insertionSort [Std.Total r] [IsTrans α r] (p : α → Bool) (l : List α) :
    (l.insertionSort r).filter p = (l.filter p).insertionSort r := by
  induction l with
  | nil => rfl
  | cons a l ih =>
      rw [List.insertionSort_cons]
      cases stays : p a with
      | false =>
          rw [filter_orderedInsert_of_not stays, ih,
            List.filter_cons_of_neg (Bool.eq_false_iff.mp stays)]
      | true =>
          rw [filter_orderedInsert stays (List.pairwise_insertionSort r l), ih,
            List.filter_cons_of_pos stays, List.insertionSort_cons]

/-! ### Which comes first -/

variable [DecidableEq α]

/-- The first of two elements of a list comes before the other. -/
def Before (l : List α) (a b : α) : Prop := l.idxOf a < l.idxOf b

theorem Before.asymm {l : List α} {a b : α} (before : Before l a b) : ¬ Before l b a :=
  Nat.lt_asymm before

theorem before_total {l : List α} {a b : α} (member : a ∈ l) (differ : a ≠ b) :
    Before l a b ∨ Before l b a := by
  have places : l.idxOf a ≠ l.idxOf b := fun same => differ ((List.idxOf_inj member).mp same)
  exact Nat.lt_or_gt_of_ne places

theorem before_cons {l : List α} {a b c : α} :
    Before (c :: l) a b ↔ (c = a ∧ c ≠ b) ∨ (c ≠ a ∧ c ≠ b ∧ Before l a b) := by
  unfold Before
  by_cases first : c = a
  · subst first
    by_cases second : c = b
    · subst second
      simp
    · simp [List.idxOf_cons_ne l second, second]
  · by_cases second : c = b
    · subst second
      simp [List.idxOf_cons_ne l first]
    · simp [List.idxOf_cons_ne l first, List.idxOf_cons_ne l second, first, second]

/-- Leaving out others does not change which comes first. -/
theorem before_filter {p : α → Bool} {l : List α} {a b : α} (first : p a = true) (second : p b = true) :
    Before (l.filter p) a b ↔ Before l a b := by
  induction l with
  | nil => exact Iff.rfl
  | cons c l ih =>
      rw [before_cons]
      cases kept : p c with
      | true => rw [List.filter_cons_of_pos kept, before_cons, ih]
      | false =>
          have notFirst : c ≠ a := fun same => by rw [same, first] at kept; exact nomatch kept
          have notSecond : c ≠ b := fun same => by rw [same, second] at kept; exact nomatch kept
          rw [List.filter_cons_of_neg (Bool.eq_false_iff.mp kept), ih]
          simp [notFirst, notSecond]

/-- The elements of a list in their order. -/
theorem pairwise_before {l : List α} (nodup : l.Nodup) : l.Pairwise (Before l) := by
  refine List.pairwise_iff_getElem.mpr fun i j hi hj earlier => ?_
  unfold Before
  rwa [nodup.idxOf_getElem, nodup.idxOf_getElem]

/-- What holds of a list in order. -/
theorem Before.holds {related : α → α → Prop} {l : List α} (pairwise : l.Pairwise related) {a b : α}
    (second : b ∈ l) (before : Before l a b) : related a b := by
  have bound := List.idxOf_lt_length_of_mem second
  have here := List.pairwise_iff_getElem.mp pairwise _ _ (lt_trans before bound) bound before
  rwa [List.getElem_idxOf, List.getElem_idxOf] at here

/-- A sublist keeps which comes first. -/
theorem before_sublist {l m : List α} (inside : l.Sublist m) (nodup : m.Nodup) {a b : α}
    (first : a ∈ l) (second : b ∈ l) : Before l a b ↔ Before m a b := by
  have ordered : l.Pairwise (Before m) := (pairwise_before nodup).sublist inside
  refine ⟨Before.holds ordered second, fun before => ?_⟩
  have differ : a ≠ b := fun same => before.asymm (same ▸ before)
  refine (before_total first differ).resolve_right fun after => ?_
  exact before.asymm (after.holds ordered first)

/-- A map that is injective on a list keeps which comes first. -/
theorem before_map {β : Type} [DecidableEq β] {f : α → β} {l : List α}
    (injective : ∀ a ∈ l, ∀ b ∈ l, f a = f b → a = b) {a b : α} (first : a ∈ l) (second : b ∈ l) :
    Before (l.map f) (f a) (f b) ↔ Before l a b := by
  have place : ∀ m : List α, (∀ c ∈ m, c ∈ l) → ∀ c ∈ l, (m.map f).idxOf (f c) = m.idxOf c := by
    intro m within c member
    induction m with
    | nil => rfl
    | cons d m ih =>
        rw [List.map_cons, List.idxOf_cons, List.idxOf_cons, ih fun e inside => within e (.tail d inside)]
        by_cases same : d = c
        · simp [same]
        · have differ : f d ≠ f c := fun found => same (injective d (within d List.mem_cons_self) c member found)
          rw [beq_false_of_ne same, beq_false_of_ne differ]
  unfold Before
  rw [place l (fun _ inside => inside) a first, place l (fun _ inside => inside) b second]

/-- **A list is determined by its elements and which of two comes first.** -/
theorem eq_of_before {l m : List α} (same : l.Perm m) (nodup : l.Nodup)
    (agree : ∀ a ∈ l, ∀ b ∈ l, Before l a b → Before m a b) : l = m := by
  have ordered : l.Pairwise (Before m) :=
    (pairwise_before nodup).imp_of_mem fun {a b} first second before => agree a first b second before
  exact same.eq_of_pairwise (fun a b _ _ before after => absurd after before.asymm) ordered
    (pairwise_before (same.nodup_iff.mp nodup))

/-! ### Sorting by a number -/

/-- The list, sorted by a number of each element. -/
def sortBy (key : α → Int) (l : List α) : List α := l.insertionSort fun a b => key a ≤ key b

/-- The element comes first by its number, or has the same number and comes first in the list. -/
def Precedes (key : α → Int) (l : List α) (a b : α) : Prop :=
  key a < key b ∨ (key a = key b ∧ Before l a b)

section Keys

variable {key key' : α → Int} {l : List α} {a b : α}

instance keyTotal (key : α → Int) : Std.Total fun a b : α => key a ≤ key b :=
  ⟨fun a b => le_total (key a) (key b)⟩

instance keyTrans (key : α → Int) : IsTrans α fun a b : α => key a ≤ key b := ⟨fun _ _ _ => le_trans⟩

omit [DecidableEq α] in
theorem perm_sortBy (key : α → Int) (l : List α) : (sortBy key l).Perm l := List.perm_insertionSort _ l

omit [DecidableEq α] in
theorem filter_sortBy (key : α → Int) (p : α → Bool) (l : List α) :
    (sortBy key l).filter p = sortBy key (l.filter p) := filter_insertionSort p l

/-- Elements with one number keep their order. -/
theorem before_sortBy_of_eq (same : key a = key b) : Before (sortBy key l) a b ↔ Before l a b := by
  have chosen : (decide (key a = key b)) = true := decide_eq_true same
  have kept : ∀ m : List α, Before (m.filter fun c => decide (key c = key b)) a b ↔ Before m a b :=
    fun m => before_filter chosen (decide_eq_true rfl)
  rw [← kept (sortBy key l), ← kept l, filter_sortBy]
  unfold sortBy
  rw [List.Pairwise.insertionSort_eq]
  refine List.Pairwise.imp_of_mem (fun {c d} first second _ => ?_) (List.pairwise_of_forall fun _ _ => trivial)
  have left := of_decide_eq_true (List.mem_filter.mp first).2
  have right := of_decide_eq_true (List.mem_filter.mp second).2
  exact le_of_eq (left.trans right.symm)

theorem before_sortBy_of_lt (less : key a < key b) (first : a ∈ l) : Before (sortBy key l) a b := by
  have differ : a ≠ b := fun same => absurd less (same ▸ lt_irrefl _)
  have member : a ∈ sortBy key l := (perm_sortBy key l).mem_iff.mpr first
  rcases before_total member differ with before | after
  · exact before
  · -- then the smaller one would come second
    have sorted : (sortBy key l).Pairwise fun a b => key a ≤ key b := List.pairwise_insertionSort _ l
    exact absurd less (not_lt.mpr (after.holds sorted member))

/-- **Which of two elements comes first in the sorted list.** -/
theorem before_sortBy (first : a ∈ l) (second : b ∈ l) :
    Before (sortBy key l) a b ↔ Precedes key l a b := by
  rcases lt_trichotomy (key a) (key b) with less | same | more
  · exact iff_of_true (before_sortBy_of_lt less first) (.inl less)
  · rw [before_sortBy_of_eq same]
    unfold Precedes
    constructor
    · exact fun before => .inr ⟨same, before⟩
    · rintro (less | ⟨_, before⟩)
      · exact absurd less (same ▸ lt_irrefl _)
      · exact before
  · refine iff_of_false (before_sortBy_of_lt more second).asymm ?_
    rintro (less | ⟨same, _⟩)
    · exact lt_asymm less more
    · exact absurd more (same ▸ lt_irrefl _)

theorem precedes_total (key : α → Int) (member : a ∈ l) (differ : a ≠ b) :
    Precedes key l a b ∨ Precedes key l b a := by
  rcases lt_trichotomy (key a) (key b) with less | same | more
  · exact .inl (.inl less)
  · exact (before_total member differ).imp (fun before => .inr ⟨same, before⟩)
      fun after => .inr ⟨same.symm, after⟩
  · exact .inr (.inl more)

theorem Precedes.asymm (precedes : Precedes key l a b) : ¬ Precedes key l b a := by
  rintro (less | ⟨same, after⟩)
  · rcases precedes with more | ⟨same, _⟩
    · exact lt_asymm less more
    · exact absurd less (same ▸ lt_irrefl _)
  · rcases precedes with more | ⟨_, before⟩
    · exact absurd more (same ▸ lt_irrefl _)
    · exact before.asymm after

/-- **Which element is the first of the sorted list.** -/
theorem head?_sortBy (member : a ∈ l) :
    (sortBy key l).head? = some a ↔ ∀ b ∈ l, b ≠ a → Precedes key l a b := by
  have inside : a ∈ sortBy key l := (perm_sortBy key l).mem_iff.mpr member
  constructor
  · intro first b other differ
    obtain ⟨rest, sorted⟩ := List.head?_eq_some_iff.mp first
    rw [← before_sortBy member other, sorted, before_cons]
    exact .inl ⟨rfl, differ.symm⟩
  · intro least
    cases sorted : sortBy key l with
    | nil => exact absurd inside (sorted ▸ List.not_mem_nil)
    | cons b rest =>
        by_cases same : b = a
        · rw [same]
          rfl
        · have other : b ∈ l := (perm_sortBy key l).mem_iff.mp (sorted ▸ List.mem_cons_self)
          have before := (before_sortBy member other).mpr (least b other same)
          rw [sorted, before_cons] at before
          rcases before with ⟨found, _⟩ | ⟨_, wrong, _⟩
          · exact absurd found same
          · exact absurd rfl wrong

/-- **Which element is the last of the sorted list.** -/
theorem getLast?_sortBy (nodup : l.Nodup) (member : a ∈ l) :
    (sortBy key l).getLast? = some a ↔ ∀ b ∈ l, b ≠ a → Precedes key l b a := by
  have inside : a ∈ sortBy key l := (perm_sortBy key l).mem_iff.mpr member
  have distinct : (sortBy key l).Nodup := (perm_sortBy key l).nodup_iff.mpr nodup
  constructor
  · intro last b other differ
    obtain ⟨init, sorted⟩ := List.getLast?_eq_some_iff.mp last
    have within : b ∈ init := by
      have found : b ∈ sortBy key l := (perm_sortBy key l).mem_iff.mpr other
      rw [sorted] at found
      exact (List.mem_append.mp found).resolve_right fun single => differ (List.mem_singleton.mp single)
    rw [← before_sortBy other member]
    refine (before_total ((perm_sortBy key l).mem_iff.mpr other) differ).resolve_right fun after => ?_
    have pairs := pairwise_before distinct
    rw [sorted, List.pairwise_append] at pairs
    rw [sorted] at after
    exact after.asymm (pairs.2.2 b within a (List.mem_singleton.mpr rfl))
  · intro greatest
    rcases List.eq_nil_or_concat (sortBy key l) with none | ⟨init, b, sorted⟩
    · exact absurd inside (none ▸ List.not_mem_nil)
    · rw [List.concat_eq_append] at sorted
      by_cases same : b = a
      · rw [sorted, same]
        exact List.getLast?_concat
      · have found : b ∈ sortBy key l := sorted ▸ List.mem_append_right _ (List.mem_singleton.mpr rfl)
        have other : b ∈ l := (perm_sortBy key l).mem_iff.mp found
        have before := (before_sortBy other member).mpr (greatest b other same)
        have within : a ∈ init := by
          rw [sorted] at inside
          exact (List.mem_append.mp inside).resolve_right fun single =>
            same (List.mem_singleton.mp single).symm
        have pairs := pairwise_before distinct
        rw [sorted, List.pairwise_append] at pairs
        rw [sorted] at before
        exact absurd (pairs.2.2 a within b (List.mem_singleton.mpr rfl)) before.asymm

/-- **Two numberings sort a list alike exactly if they agree on every pair.** -/
theorem sortBy_eq_iff (nodup : l.Nodup) : sortBy key' l = sortBy key l ↔
    ∀ a ∈ l, ∀ b ∈ l, (Precedes key' l a b ↔ Precedes key l a b) := by
  constructor
  · intro same a first b second
    rw [← before_sortBy first second, same, before_sortBy first second]
  · intro agree
    refine eq_of_before ((perm_sortBy key' l).trans (perm_sortBy key l).symm)
      ((perm_sortBy key' l).nodup_iff.mpr nodup) fun a first b second before => ?_
    have first := (perm_sortBy key' l).mem_iff.mp first
    have second := (perm_sortBy key' l).mem_iff.mp second
    rw [before_sortBy first second, ← agree a first b second, ← before_sortBy first second]
    exact before

/-- **Renumbering some of the elements** by their order leaves the sorted list as it is exactly if it leaves
each of them on the same side of each other element. -/
theorem sortBy_renumbered_iff (nodup : l.Nodup) (shown : α → Bool)
    (hidden : ∀ a ∈ l, shown a = false → key' a = key a)
    (ordered : ∀ a ∈ l, ∀ b ∈ l, shown a = true → shown b = true →
      (key' a < key' b ↔ Precedes key l a b)) :
    sortBy key' l = sortBy key l ↔ ∀ a ∈ l, ∀ b ∈ l, shown a = false → shown b = true →
      (Precedes key' l a b ↔ Precedes key l a b) := by
  rw [sortBy_eq_iff nodup]
  refine ⟨fun agree a first b second _ _ => agree a first b second, fun agree a first b second => ?_⟩
  by_cases same : a = b
  · subst same
    exact iff_of_false (fun precedes => precedes.asymm precedes) fun precedes => precedes.asymm precedes
  cases left : shown a with
  | false =>
      cases right : shown b with
      | false =>
          unfold Precedes
          rw [hidden a first left, hidden b second right]
      | true => exact agree a first b second left right
  | true =>
      cases right : shown b with
      | false =>
          -- the other way round
          have flipped := agree b second a first right left
          constructor
          · intro precedes
            refine (precedes_total key first same).resolve_right fun after => ?_
            exact precedes.asymm (flipped.mpr after)
          · intro precedes
            refine (precedes_total key' first same).resolve_right fun after => ?_
            exact precedes.asymm (flipped.mp after)
      | true =>
          have less := ordered a first b second left right
          have more := ordered b second a first right left
          constructor
          · rintro (earlier | ⟨tie, _⟩)
            · exact less.mp earlier
            · -- two shown elements have no tie
              rcases precedes_total key first same with precedes | after
              · exact precedes
              · exact absurd (more.mpr after) (tie ▸ lt_irrefl _)
          · exact fun precedes => .inl (less.mpr precedes)

end Keys

end Sorting

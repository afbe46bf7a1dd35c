/-
**Tables with an AUTOINCREMENT key.**

A `Table ρ` holds rows of type `ρ` under integer keys, in insertion order, together with the
sequence number the next key is taken from. The invariant is part of the type: keys are pairwise
distinct, positive and never above the sequence, so a key that was given out once is never given
out again (`get?_insert`, `Table.Evolves`).

* `get?`, `insert`, `update`, `delete`, `count` — the operations, each read back by its `get?` lemma.
* `Table.Evolves kept t t'` — `t'` came from `t` by such operations with every surviving row related
  by `kept` to what it was. Reflexive, transitive, and true of each operation; so a fact about an old
  key that `kept` carries over is never lost to a new row (`Evolves.pinned`).
* `Table.SameOn part t t'` — the two tables have the same rows of one kind; the frame of an operation
  that selects none of them.
* `Table.All fact t` — every row has the fact; kept by each operation whose new rows have it.
-/

import Mathlib.Data.List.Nodup
import Mathlib.Data.List.Lookmap
import Mathlib.Tactic.Common
import Mathlib.Tactic.Linarith

namespace Relational

/-- A table with an AUTOINCREMENT primary key. -/
structure Table (ρ : Type) where
  entries : List (Int × ρ)
  seq : Int
  nodup : (entries.map Prod.fst).Nodup
  bounded : ∀ entry ∈ entries, 0 < entry.1 ∧ entry.1 ≤ seq
  seq_nonneg : 0 ≤ seq

namespace Table

variable {ρ : Type}

/-! ### Looking up in a list of keyed rows -/

theorem lookup_mem {entries : List (Int × ρ)} {id : Int} {row : ρ}
    (found : entries.lookup id = some row) : (id, row) ∈ entries := by
  induction entries with
  | nil => cases found
  | cons entry entries ih =>
      obtain ⟨key, value⟩ := entry
      by_cases same : id = key
      · subst same
        simp only [List.lookup_cons, beq_self_eq_true] at found
        cases found
        exact List.mem_cons_self
      · have differ : (id == key) = false := beq_false_of_ne same
        simp only [List.lookup_cons, differ] at found
        exact List.mem_cons_of_mem _ (ih found)

theorem lookup_of_mem {entries : List (Int × ρ)} (nodup : (entries.map Prod.fst).Nodup) {id : Int}
    {row : ρ} (member : (id, row) ∈ entries) : entries.lookup id = some row := by
  induction entries with
  | nil => cases member
  | cons entry entries ih =>
      obtain ⟨key, value⟩ := entry
      rw [List.map_cons, List.nodup_cons] at nodup
      rcases List.mem_cons.mp member with same | inside
      · cases same
        simp
      · have differ : (id == key) = false := by
          refine beq_false_of_ne fun same => nodup.1 ?_
          exact List.mem_map.mpr ⟨(id, row), inside, same⟩
        simp only [List.lookup_cons, differ]
        exact ih nodup.2 inside

theorem lookup_map (entries : List (Int × ρ)) (f : Int → ρ → ρ) (id : Int) :
    (entries.map fun entry => (entry.1, f entry.1 entry.2)).lookup id =
      (entries.lookup id).map (f id) := by
  induction entries with
  | nil => rfl
  | cons entry entries ih =>
      obtain ⟨key, value⟩ := entry
      by_cases same : id = key
      · subst same
        simp
      · have differ : (id == key) = false := beq_false_of_ne same
        simp only [List.map_cons, List.lookup_cons, differ]
        exact ih

theorem lookup_append_single (entries : List (Int × ρ)) (key : Int) (row : ρ) (id : Int) :
    (entries ++ [(key, row)]).lookup id =
      (entries.lookup id).or (if id = key then some row else none) := by
  induction entries with
  | nil =>
      by_cases same : id = key
      · simp [same]
      · have differ : (id == key) = false := beq_false_of_ne same
        simp [List.lookup_cons, same, differ]
  | cons entry entries ih =>
      obtain ⟨first, value⟩ := entry
      by_cases same : id = first
      · subst same
        simp
      · have differ : (id == first) = false := beq_false_of_ne same
        simp only [List.cons_append, List.lookup_cons, differ]
        exact ih

/-! ### The operations -/

/-- No rows, no key given out yet. -/
def empty : Table ρ := ⟨[], 0, List.nodup_nil, nofun, le_rfl⟩

/-- The row under a key. -/
def get? (t : Table ρ) (id : Int) : Option ρ := t.entries.lookup id

/-- The key the next row gets. -/
def nextId (t : Table ρ) : Int := t.seq + 1

theorem get?_le_seq {t : Table ρ} {id : Int} {row : ρ} (found : t.get? id = some row) :
    0 < id ∧ id ≤ t.seq := t.bounded _ (lookup_mem found)

theorem get?_eq_none_of_lt {t : Table ρ} {id : Int} (above : t.seq < id) : t.get? id = none := by
  cases found : t.get? id with
  | none => rfl
  | some row => exact absurd (get?_le_seq found).2 (by omega)

/-- A new row under the next key. -/
def insert (t : Table ρ) (row : ρ) : Table ρ where
  entries := t.entries ++ [(t.nextId, row)]
  seq := t.nextId
  nodup := by
    rw [List.map_append, List.nodup_append]
    refine ⟨t.nodup, List.nodup_singleton _, ?_⟩
    rintro key member _ last rfl
    rw [List.map_cons, List.map_nil, List.mem_singleton] at last
    obtain ⟨entry, inside, rfl⟩ := List.mem_map.mp member
    have := (t.bounded entry inside).2
    rw [last] at this
    unfold nextId at this
    omega
  bounded := by
    intro entry member
    have := t.seq_nonneg
    unfold nextId
    rcases List.mem_append.mp member with member | member
    · have := t.bounded entry member
      exact ⟨this.1, by omega⟩
    · rw [List.mem_singleton] at member
      subst member
      show 0 < t.nextId ∧ t.nextId ≤ t.seq + 1
      unfold nextId
      exact ⟨by omega, le_rfl⟩
  seq_nonneg := by
    have := t.seq_nonneg
    unfold nextId
    omega

/-- Change the selected rows. -/
def update (t : Table ρ) (selects : Int → ρ → Bool) (change : ρ → ρ) : Table ρ where
  entries := t.entries.map fun entry =>
    (entry.1, if selects entry.1 entry.2 then change entry.2 else entry.2)
  seq := t.seq
  nodup := by
    rw [List.map_map]
    exact t.nodup
  bounded := by
    intro entry member
    obtain ⟨old, inside, rfl⟩ := List.mem_map.mp member
    exact t.bounded old inside
  seq_nonneg := t.seq_nonneg

/-- Remove the selected rows. -/
def delete (t : Table ρ) (selects : Int → ρ → Bool) : Table ρ where
  entries := t.entries.filter fun entry => !selects entry.1 entry.2
  seq := t.seq
  nodup := List.Nodup.sublist (List.Sublist.map _ List.filter_sublist) t.nodup
  bounded := fun entry member => t.bounded entry (List.mem_filter.mp member).1
  seq_nonneg := t.seq_nonneg

/-- How many rows are selected. -/
def count (t : Table ρ) (selects : Int → ρ → Bool) : Int :=
  (t.entries.countP fun entry => selects entry.1 entry.2 : Nat)

/-- The row under `id` exists and is selected. -/
def holds (t : Table ρ) (id : Int) (selects : ρ → Bool) : Bool :=
  match t.get? id with
  | some row => selects row
  | none => false

/-- Some row is selected. -/
def any (t : Table ρ) (selects : Int → ρ → Bool) : Bool :=
  t.entries.any fun entry => selects entry.1 entry.2

/-- The rows in key order of insertion. -/
def rows (t : Table ρ) : List ρ := t.entries.map Prod.snd

/-! ### What the operations do to the rows -/

theorem mem_entries_iff {t : Table ρ} {id : Int} {row : ρ} :
    (id, row) ∈ t.entries ↔ t.get? id = some row :=
  ⟨fun member => lookup_of_mem t.nodup member, fun found => lookup_mem found⟩

@[simp] theorem get?_empty (id : Int) : (empty : Table ρ).get? id = none := rfl

@[simp] theorem seq_insert (t : Table ρ) (row : ρ) : (t.insert row).seq = t.seq + 1 := rfl

@[simp] theorem seq_update (t : Table ρ) (selects : Int → ρ → Bool) (change : ρ → ρ) :
    (t.update selects change).seq = t.seq := rfl

@[simp] theorem seq_delete (t : Table ρ) (selects : Int → ρ → Bool) :
    (t.delete selects).seq = t.seq := rfl

theorem get?_insert (t : Table ρ) (row : ρ) (id : Int) :
    (t.insert row).get? id = if id = t.seq + 1 then some row else t.get? id := by
  have general := lookup_append_single t.entries t.nextId row id
  by_cases new : id = t.seq + 1
  · have absent : t.get? id = none := get?_eq_none_of_lt (by omega)
    rw [if_pos new]
    show (t.entries ++ [(t.nextId, row)]).lookup id = some row
    rw [general, show t.entries.lookup id = none from absent]
    simp [new, nextId]
  · rw [if_neg new]
    show (t.entries ++ [(t.nextId, row)]).lookup id = t.get? id
    rw [general, if_neg (by simpa [nextId] using new), Option.or_none]
    rfl

theorem get?_insert_self (t : Table ρ) (row : ρ) : (t.insert row).get? (t.seq + 1) = some row := by
  rw [get?_insert, if_pos rfl]

theorem get?_insert_of_le (t : Table ρ) (row : ρ) {id : Int} (old : id ≤ t.seq) :
    (t.insert row).get? id = t.get? id := by
  rw [get?_insert, if_neg (by omega)]

theorem get?_update (t : Table ρ) (selects : Int → ρ → Bool) (change : ρ → ρ) (id : Int) :
    (t.update selects change).get? id =
      (t.get? id).map fun row => if selects id row then change row else row :=
  lookup_map t.entries (fun key row => if selects key row then change row else row) id

/-- Nothing selected, nothing changed. -/
theorem update_of_none {t : Table ρ} {selects : Int → ρ → Bool} {change : ρ → ρ}
    (none : ∀ id row, t.get? id = some row → selects id row = false) : t.update selects change = t := by
  have entries : (t.update selects change).entries = t.entries := by
    show t.entries.map _ = t.entries
    conv_rhs => rw [← List.map_id t.entries]
    refine List.map_congr_left fun entry member => ?_
    rw [none entry.1 entry.2 (mem_entries_iff.mp member)]
    rfl
  cases t
  unfold update at entries ⊢
  simp only at entries
  simp only [entries]

/-- Nothing selected, nothing removed. -/
theorem delete_of_none {t : Table ρ} {selects : Int → ρ → Bool}
    (none : ∀ id row, t.get? id = some row → selects id row = false) : t.delete selects = t := by
  have entries : t.entries.filter (fun entry => !selects entry.1 entry.2) = t.entries := by
    refine List.filter_eq_self.mpr fun entry member => ?_
    rw [none entry.1 entry.2 (mem_entries_iff.mp member)]
    rfl
  cases t
  unfold delete
  simp only at entries
  simp only [entries]

theorem get?_delete_eq_some {t : Table ρ} {selects : Int → ρ → Bool} {id : Int} {row : ρ} :
    (t.delete selects).get? id = some row ↔ t.get? id = some row ∧ selects id row = false := by
  rw [← mem_entries_iff, ← mem_entries_iff]
  show (id, row) ∈ t.entries.filter _ ↔ _
  rw [List.mem_filter]
  simp

theorem get?_delete (t : Table ρ) (selects : Int → ρ → Bool) (id : Int) :
    (t.delete selects).get? id = (t.get? id).filter fun row => !selects id row := by
  apply Option.ext
  intro row
  rw [get?_delete_eq_some, Option.filter_eq_some_iff, Bool.not_eq_true']

theorem count_eq_zero_iff {t : Table ρ} {selects : Int → ρ → Bool} :
    t.count selects = 0 ↔ ∀ id row, t.get? id = some row → selects id row = false := by
  unfold count
  rw [Int.natCast_eq_zero, List.countP_eq_zero]
  constructor
  · intro none id row found
    exact Bool.eq_false_iff.mpr (none (id, row) (mem_entries_iff.mpr found))
  · rintro none ⟨id, row⟩ member
    exact Bool.eq_false_iff.mp (none id row (mem_entries_iff.mp member))

theorem any_eq_true_iff {t : Table ρ} {selects : Int → ρ → Bool} :
    t.any selects = true ↔ ∃ id row, t.get? id = some row ∧ selects id row = true := by
  unfold any
  rw [List.any_eq_true]
  constructor
  · rintro ⟨⟨id, row⟩, member, chosen⟩
    exact ⟨id, row, mem_entries_iff.mp member, chosen⟩
  · rintro ⟨id, row, found, chosen⟩
    exact ⟨(id, row), mem_entries_iff.mpr found, chosen⟩

theorem holds_eq_true_iff {t : Table ρ} {id : Int} {selects : ρ → Bool} :
    t.holds id selects = true ↔ ∃ row, t.get? id = some row ∧ selects row = true := by
  unfold holds
  cases t.get? id with
  | none => simp
  | some row => simp

/-! ### Evolution: keys are not reused -/

/-- Every row of `t'` under a key `t` had already given out was in `t`, related by `kept`. -/
structure Evolves (kept : Int → ρ → ρ → Prop) (t t' : Table ρ) : Prop where
  seq_le : t.seq ≤ t'.seq
  old : ∀ id row', id ≤ t.seq → t'.get? id = some row' → ∃ row, t.get? id = some row ∧ kept id row row'

namespace Evolves

variable {kept : Int → ρ → ρ → Prop}

theorem refl (reflexive : ∀ id row, kept id row row) (t : Table ρ) : Evolves kept t t :=
  ⟨le_rfl, fun id row' _ found => ⟨row', found, reflexive id row'⟩⟩

theorem trans (transitive : ∀ id a b c, kept id a b → kept id b c → kept id a c) {t u v : Table ρ}
    (first : Evolves kept t u) (second : Evolves kept u v) : Evolves kept t v := by
  refine ⟨le_trans first.seq_le second.seq_le, fun id row'' given found => ?_⟩
  obtain ⟨row', found', later⟩ := second.old id row'' (le_trans given first.seq_le) found
  obtain ⟨row, found, earlier⟩ := first.old id row' given found'
  exact ⟨row, found, transitive id row row' row'' earlier later⟩

theorem insert (reflexive : ∀ id row, kept id row row) (t : Table ρ) (row : ρ) :
    Evolves kept t (t.insert row) := by
  refine ⟨by rw [seq_insert]; omega, fun id row' given found => ?_⟩
  rw [get?_insert_of_le t row given] at found
  exact ⟨row', found, reflexive id row'⟩

theorem update (t : Table ρ) (selects : Int → ρ → Bool) (change : ρ → ρ)
    (unselected : ∀ id row, kept id row row)
    (selected : ∀ id row, t.get? id = some row → selects id row = true → kept id row (change row)) :
    Evolves kept t (t.update selects change) := by
  refine ⟨le_rfl, fun id row' _ found => ?_⟩
  rw [get?_update] at found
  obtain ⟨row, here, rfl⟩ := Option.map_eq_some_iff.mp found
  refine ⟨row, here, ?_⟩
  split
  · exact selected id row here ‹_›
  · exact unselected id row

theorem delete (reflexive : ∀ id row, kept id row row) (t : Table ρ) (selects : Int → ρ → Bool) :
    Evolves kept t (t.delete selects) :=
  ⟨le_rfl, fun id row' _ found => ⟨row', (get?_delete_eq_some.mp found).1, reflexive id row'⟩⟩

/-- **A key once given out keeps its facts**: what held of the row under an old key, and is carried
over by `kept`, holds of whatever row is there now. -/
theorem pinned {t t' : Table ρ} (evolves : Evolves kept t t') {fact : ρ → Prop} {id : Int}
    (carried : ∀ row row', kept id row row' → fact row → fact row') (given : id ≤ t.seq)
    (before : ∀ row, t.get? id = some row → fact row) :
    id ≤ t'.seq ∧ ∀ row', t'.get? id = some row' → fact row' := by
  refine ⟨le_trans given evolves.seq_le, fun row' found => ?_⟩
  obtain ⟨row, here, related⟩ := evolves.old id row' given found
  exact carried row row' related (before row here)

/-- A key whose row is gone stays empty. -/
theorem gone {t t' : Table ρ} (evolves : Evolves kept t t') {id : Int} (given : id ≤ t.seq)
    (absent : t.get? id = none) : t'.get? id = none := by
  cases found : t'.get? id with
  | none => rfl
  | some row' =>
      obtain ⟨row, here, _⟩ := evolves.old id row' given found
      rw [absent] at here
      cases here

end Evolves

/-! ### Frames -/

/-- The two tables have the same rows of the kind `part`. -/
def SameOn (part : Int → ρ → Prop) (t t' : Table ρ) : Prop :=
  ∀ id row, part id row → (t.get? id = some row ↔ t'.get? id = some row)

namespace SameOn

variable {part : Int → ρ → Prop} {t u v : Table ρ}

theorem refl (t : Table ρ) : SameOn part t t := fun _ _ _ => Iff.rfl

theorem trans (first : SameOn part t u) (second : SameOn part u v) : SameOn part t v :=
  fun id row inside => (first id row inside).trans (second id row inside)

theorem symm (same : SameOn part t u) : SameOn part u t :=
  fun id row inside => (same id row inside).symm

theorem mono {smaller : Int → ρ → Prop} (inside : ∀ id row, smaller id row → part id row)
    (same : SameOn part t u) : SameOn smaller t u := fun id row here => same id row (inside id row here)

theorem insert {row : ρ} (outside : ¬ part (t.seq + 1) row) : SameOn part t (t.insert row) := by
  intro id row' inside
  rw [get?_insert]
  by_cases new : id = t.seq + 1
  · rw [if_pos new, get?_eq_none_of_lt (by omega)]
    constructor
    · exact nofun
    · rintro ⟨⟩
      exact absurd (new ▸ inside) outside
  · rw [if_neg new]

theorem update {selects : Int → ρ → Bool} {change : ρ → ρ}
    (outside : ∀ id row, t.get? id = some row → selects id row = true →
      ¬ part id row ∧ ¬ part id (change row)) : SameOn part t (t.update selects change) := by
  intro id row' inside
  rw [get?_update]
  cases found : t.get? id with
  | none => exact Iff.rfl
  | some row =>
      cases chosen : selects id row with
      | false => simp [chosen]
      | true =>
          obtain ⟨before, after⟩ := outside id row found chosen
          constructor
          · rintro ⟨⟩
            exact absurd inside before
          · simp only [Option.map_some, chosen, if_true]
            rintro ⟨⟩
            exact absurd inside after

theorem delete {selects : Int → ρ → Bool}
    (outside : ∀ id row, t.get? id = some row → selects id row = true → ¬ part id row) :
    SameOn part t (t.delete selects) := by
  intro id row inside
  rw [get?_delete_eq_some]
  constructor
  · intro found
    refine ⟨found, ?_⟩
    by_contra chosen
    exact outside id row found (Bool.not_eq_false _ ▸ chosen) inside
  · exact fun both => both.1

end SameOn

/-! ### Facts about every row -/

/-- Every row has the fact. -/
def All (fact : ρ → Prop) (t : Table ρ) : Prop := ∀ id row, t.get? id = some row → fact row

namespace All

variable {fact : ρ → Prop} {t : Table ρ}

theorem empty : All fact (Table.empty : Table ρ) := fun _ _ found => nomatch found

theorem insert (all : All fact t) {row : ρ} (holds : fact row) : All fact (t.insert row) := by
  intro id row' found
  rw [get?_insert] at found
  split at found
  · cases found
    exact holds
  · exact all id row' found

theorem update (all : All fact t) {selects : Int → ρ → Bool} {change : ρ → ρ}
    (keeps : ∀ id row, selects id row = true → fact row → fact (change row)) :
    All fact (t.update selects change) := by
  intro id row' found
  rw [get?_update] at found
  obtain ⟨row, here, rfl⟩ := Option.map_eq_some_iff.mp found
  split
  · exact keeps id row ‹_› (all id row here)
  · exact all id row here

theorem delete (all : All fact t) {selects : Int → ρ → Bool} : All fact (t.delete selects) :=
  fun id row found => all id row (get?_delete_eq_some.mp found).1

end All

end Table

end Relational

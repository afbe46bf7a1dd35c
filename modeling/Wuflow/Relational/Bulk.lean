/-
**Whole tables at once.**

* `Table.map` — every row replaced by what is read from it, under the same key; it commutes with the
  operations of a table (`map_insertAll`, `map_update`).
* `Table.adjust` — every row replaced by what is read from it and its key.
* `Table.insertAll` — rows inserted one after the other. The rows of new keys are those of the list, in
  order (`get?_insertAll`); rows that are told apart get one key each (`insertAll_once`).
-/

import Wuflow.Relational.Table

namespace Relational.Table

variable {ρ σ : Type}

/-! ### Reading every row -/

def map (t : Table ρ) (f : ρ → σ) : Table σ where
  entries := t.entries.map fun entry => (entry.1, f entry.2)
  seq := t.seq
  nodup := by
    rw [List.map_map]
    exact t.nodup
  bounded := by
    intro entry member
    obtain ⟨old, inside, rfl⟩ := List.mem_map.mp member
    exact t.bounded old inside
  seq_nonneg := t.seq_nonneg

@[simp] theorem seq_map (t : Table ρ) (f : ρ → σ) : (t.map f).seq = t.seq := rfl

/-- A table is its entries and its sequence. -/
theorem eq_of_entries {t t' : Table ρ} (entries : t.entries = t'.entries) (seq : t.seq = t'.seq) :
    t = t' := by
  cases t
  cases t'
  cases entries
  cases seq
  rfl

theorem map_insert (t : Table ρ) (f : ρ → σ) (row : ρ) :
    (t.insert row).map f = (t.map f).insert (f row) :=
  eq_of_entries (List.map_append ..) rfl

theorem map_update (t : Table ρ) (f : ρ → σ) {selects : Int → ρ → Bool} {selects' : Int → σ → Bool}
    {change : ρ → ρ} {change' : σ → σ} (same : ∀ id row, selects' id (f row) = selects id row)
    (changes : ∀ row, f (change row) = change' (f row)) :
    (t.update selects change).map f = (t.map f).update selects' change' := by
  refine eq_of_entries ?_ rfl
  show (t.entries.map _).map _ = (t.entries.map _).map _
  rw [List.map_map, List.map_map]
  refine List.map_congr_left fun entry _ => ?_
  show (entry.1, f (if _ then _ else _)) = (entry.1, if selects' entry.1 (f entry.2) then _ else _)
  rw [same]
  cases selects entry.1 entry.2
  · rfl
  · exact congrArg _ (changes entry.2)

/-! ### Changing every row by its key -/

def adjust (t : Table ρ) (f : Int → ρ → ρ) : Table ρ where
  entries := t.entries.map fun entry => (entry.1, f entry.1 entry.2)
  seq := t.seq
  nodup := by
    rw [List.map_map]
    exact t.nodup
  bounded := by
    intro entry member
    obtain ⟨old, inside, rfl⟩ := List.mem_map.mp member
    exact t.bounded old inside
  seq_nonneg := t.seq_nonneg

theorem get?_adjust (t : Table ρ) (f : Int → ρ → ρ) (id : Int) :
    (t.adjust f).get? id = (t.get? id).map (f id) := lookup_map t.entries f id

theorem adjust_id (t : Table ρ) : (t.adjust fun _ row => row) = t :=
  eq_of_entries (List.map_id _) rfl

theorem adjust_adjust (t : Table ρ) (f g : Int → ρ → ρ) :
    (t.adjust f).adjust g = t.adjust fun id row => g id (f id row) := by
  refine eq_of_entries ?_ rfl
  show (t.entries.map _).map _ = t.entries.map _
  rw [List.map_map]
  rfl

theorem update_eq_adjust (t : Table ρ) (selects : Int → ρ → Bool) (change : ρ → ρ) :
    t.update selects change = t.adjust fun id row => if selects id row then change row else row := rfl

theorem adjust_congr {t : Table ρ} {f g : Int → ρ → ρ}
    (same : ∀ id row, t.get? id = some row → f id row = g id row) : t.adjust f = t.adjust g := by
  refine eq_of_entries (List.map_congr_left fun entry member => ?_) rfl
  exact congrArg (Prod.mk entry.1) (same entry.1 entry.2 (mem_entries_iff.mp member))

/-- A condition on one key selects no row unless the row under the key meets it. -/
theorem count_key_eq_zero (t : Table ρ) (id : Int) (selects : ρ → Bool) :
    t.count (fun key row => key == id && selects row) = 0 ↔ ¬ t.holds id selects = true := by
  rw [count_eq_zero_iff, holds_eq_true_iff]
  constructor
  · rintro none ⟨row, found, chosen⟩
    have here := none id row found
    simp [chosen] at here
  · intro none key row found
    by_contra chosen
    obtain ⟨same, chosen⟩ := Bool.and_eq_true_iff.mp (Bool.eq_true_of_not_eq_false chosen)
    exact none ⟨row, beq_iff_eq.mp same ▸ found, chosen⟩

/-! ### Inserting a list of rows -/

def insertAll (t : Table ρ) (rows : List ρ) : Table ρ := rows.foldl insert t

theorem map_insertAll (t : Table ρ) (f : ρ → σ) (rows : List ρ) :
    (t.insertAll rows).map f = (t.map f).insertAll (rows.map f) := by
  induction rows generalizing t with
  | nil => rfl
  | cons row rows ih =>
      show ((t.insert row).insertAll rows).map f = ((t.map f).insert (f row)).insertAll (rows.map f)
      rw [ih, map_insert]

theorem get?_insertAll_of_le (t : Table ρ) (rows : List ρ) {id : Int} (old : id ≤ t.seq) :
    (t.insertAll rows).get? id = t.get? id := by
  induction rows generalizing t with
  | nil => rfl
  | cons row rows ih =>
      show ((t.insert row).insertAll rows).get? id = _
      rw [ih (t.insert row) (by rw [seq_insert]; omega), get?_insert_of_le t row old]

/-- The new keys hold the rows of the list, in order. -/
theorem get?_insertAll (t : Table ρ) (rows : List ρ) (n : Nat) :
    (t.insertAll rows).get? (t.seq + 1 + n) = rows[n]? := by
  induction rows generalizing t n with
  | nil => exact get?_eq_none_of_lt (show t.seq < _ by omega)
  | cons row rows ih =>
      show ((t.insert row).insertAll rows).get? _ = _
      cases n with
      | zero =>
          rw [get?_insertAll_of_le _ _ (by rw [seq_insert]; simp), List.getElem?_cons_zero]
          simpa using get?_insert_self t row
      | succ n =>
          have next := ih (t.insert row) n
          rw [seq_insert] at next
          rw [List.getElem?_cons_succ, ← next]
          congr 1
          push_cast
          omega

theorem get?_insertAll_new {t : Table ρ} {rows : List ρ} {id : Int} {row : ρ} (new : t.seq < id) :
    (t.insertAll rows).get? id = some row ↔ ∃ n : Nat, id = t.seq + 1 + n ∧ rows[n]? = some row := by
  constructor
  · intro found
    have place : id = t.seq + 1 + ((id - t.seq - 1).toNat : Int) := by omega
    refine ⟨_, place, ?_⟩
    rwa [place, get?_insertAll] at found
  · rintro ⟨n, rfl, found⟩
    rwa [get?_insertAll]

/-- **Each of the rows gets one key**, when the rows are told apart by `tag`. -/
theorem insertAll_once {κ : Type} {t : Table ρ} {rows : List ρ} {tag : ρ → κ}
    (apart : (rows.map tag).Nodup) {row : ρ} (member : row ∈ rows) :
    ∃ id, t.seq < id ∧ (t.insertAll rows).get? id = some row ∧
      ∀ other row', t.seq < other → (t.insertAll rows).get? other = some row' → tag row' = tag row →
        other = id := by
  obtain ⟨n, here⟩ := List.mem_iff_getElem?.mp member
  refine ⟨t.seq + 1 + n, by omega, by rw [get?_insertAll, here], fun other row' new found same => ?_⟩
  obtain ⟨k, rfl, there⟩ := (get?_insertAll_new new).mp found
  have tags : (rows.map tag)[k]? = (rows.map tag)[n]? := by
    rw [List.getElem?_map, List.getElem?_map, here, there, Option.map_some, Option.map_some, same]
  have bound : k < (rows.map tag).length := by
    rw [List.length_map]
    exact (List.getElem?_eq_some_iff.mp there).1
  rw [(List.getElem?_inj bound apart).mp tags]

theorem mem_of_get?_insertAll {t : Table ρ} {rows : List ρ} {id : Int} {row : ρ} (new : t.seq < id)
    (found : (t.insertAll rows).get? id = some row) : row ∈ rows := by
  obtain ⟨n, _, here⟩ := (get?_insertAll_new new).mp found
  exact List.mem_of_getElem? here

end Relational.Table

/-
**Items in named buckets.**

An item is put at the end of the first bucket that has a name, or is lost (`put`); one that repeats an
earlier item is left out first (`List.eraseDupsBy`).

* `contents_putAll` — what the buckets hold in the end, and `stored_putAll` how many items they got.
* `exists_mem_firsts`, `pairwise_firsts`, `filter_firsts` — what is left when repetitions are left out.
* `group_perm`, `flatMap_filter_perm` — grouping by a key, and splitting by a list of keys, neither lose nor
  repeat an item.
-/

import Mathlib.Data.List.Basic

namespace Buckets

/-! ### Buckets -/

structure Bucket (ι α : Type) where
  id : ι
  items : List α := []

section Buckets

variable {ι α : Type} [DecidableEq ι]

/-- Put an item into the first bucket with a name. -/
def put (target : ι) (a : α) : List (Bucket ι α) → Option (List (Bucket ι α))
  | [] => none
  | bucket :: rest =>
      if bucket.id = target then some ({ bucket with items := bucket.items ++ [a] } :: rest)
      else (put target a rest).map (bucket :: ·)

/-- The items of the first bucket with a name. -/
def contents (buckets : List (Bucket ι α)) (id : ι) : Option (List α) :=
  (buckets.find? fun bucket => bucket.id = id).map (·.items)

variable {target id : ι} {a : α} {buckets buckets' : List (Bucket ι α)}

theorem contents_cons_self (bucket : Bucket ι α) (rest : List (Bucket ι α)) (same : bucket.id = id) :
    contents (bucket :: rest) id = some bucket.items := by
  unfold contents
  rw [List.find?_cons_of_pos (by simpa using same)]
  rfl

theorem contents_cons_of_ne (bucket : Bucket ι α) (rest : List (Bucket ι α)) (other : bucket.id ≠ id) :
    contents (bucket :: rest) id = contents rest id := by
  unfold contents
  rw [List.find?_cons_of_neg (by simpa using other)]

theorem contents_isSome_iff : (contents buckets id).isSome = true ↔ id ∈ buckets.map Bucket.id := by
  unfold contents
  rw [Option.isSome_map, List.find?_isSome, List.mem_map]
  simp only [decide_eq_true_eq]

/-- Buckets that are still empty. -/
theorem contents_of_empty (empty : ∀ bucket ∈ buckets, bucket.items = []) :
    contents buckets id = if id ∈ buckets.map Bucket.id then some [] else none := by
  unfold contents
  cases found : buckets.find? fun bucket => bucket.id = id with
  | none =>
      have lost : id ∉ buckets.map Bucket.id := fun member => by
        obtain ⟨bucket, among, same⟩ := List.mem_map.mp member
        exact List.find?_eq_none.mp found bucket among (decide_eq_true same)
      rw [if_neg lost]
      rfl
  | some bucket =>
      have among := List.mem_of_find?_eq_some found
      have test := List.find?_some found
      have same : bucket.id = id := by simpa using test
      rw [if_pos (same ▸ List.mem_map_of_mem among), Option.map_some, empty bucket among]

/-- An item is lost where no bucket has the name. -/
theorem put_eq_none_iff : put target a buckets = none ↔ target ∉ buckets.map Bucket.id := by
  induction buckets with
  | nil => exact ⟨fun _ => List.not_mem_nil, fun _ => rfl⟩
  | cons bucket rest ih =>
      rw [put, List.map_cons, List.mem_cons, not_or, ← ih]
      by_cases here : bucket.id = target
      · rw [if_pos here]
        exact ⟨nofun, fun both => absurd here.symm both.1⟩
      · rw [if_neg here, Option.map_eq_none_iff]
        exact ⟨fun lost => ⟨fun same => here same.symm, lost⟩, fun both => both.2⟩

theorem ids_put (stored : put target a buckets = some buckets') :
    buckets'.map Bucket.id = buckets.map Bucket.id := by
  induction buckets generalizing buckets' with
  | nil => exact nomatch stored
  | cons bucket rest ih =>
      rw [put] at stored
      by_cases here : bucket.id = target
      · rw [if_pos here] at stored
        cases stored
        rfl
      · rw [if_neg here] at stored
        obtain ⟨rest', inner, rfl⟩ := Option.map_eq_some_iff.mp stored
        rw [List.map_cons, List.map_cons, ih inner]

/-- **One item.** -/
theorem contents_put (stored : put target a buckets = some buckets') :
    contents buckets' id = (contents buckets id).map (· ++ if target = id then [a] else []) := by
  induction buckets generalizing buckets' with
  | nil => exact nomatch stored
  | cons bucket rest ih =>
      rw [put] at stored
      by_cases here : bucket.id = target
      · rw [if_pos here] at stored
        cases stored
        by_cases same : bucket.id = id
        · rw [contents_cons_self ⟨bucket.id, bucket.items ++ [a]⟩ rest same,
            contents_cons_self bucket rest same,
            if_pos (here.symm.trans same)]
          rfl
        · rw [contents_cons_of_ne ⟨bucket.id, bucket.items ++ [a]⟩ rest same,
            contents_cons_of_ne bucket rest same,
            if_neg (here ▸ same)]
          simp
      · rw [if_neg here] at stored
        obtain ⟨rest', inner, rfl⟩ := Option.map_eq_some_iff.mp stored
        by_cases same : bucket.id = id
        · have apart : target ≠ id := fun equal => here (same.trans equal.symm)
          rw [contents_cons_self _ _ same, contents_cons_self _ _ same, if_neg apart]
          simp
        · rw [contents_cons_of_ne _ _ same, contents_cons_of_ne _ _ same, ih inner]

/-- The buckets, and how many items were not lost. -/
def store (target : α → ι) (state : List (Bucket ι α) × Nat) (a : α) : List (Bucket ι α) × Nat :=
  match put (target a) a state.1 with
  | some buckets => (buckets, state.2 + 1)
  | none => state

def putAll (target : α → ι) (state : List (Bucket ι α) × Nat) (items : List α) : List (Bucket ι α) × Nat :=
  items.foldl (store target) state

variable {state : List (Bucket ι α) × Nat} {items : List α} (target : α → ι)

theorem ids_store : (store target state a).1.map Bucket.id = state.1.map Bucket.id := by
  unfold store
  split
  next stored => exact ids_put stored
  next => rfl

theorem contents_store :
    contents (store target state a).1 id =
      (contents state.1 id).map (· ++ if target a = id then [a] else []) := by
  unfold store
  split
  next stored => exact contents_put stored
  next lost =>
    cases here : contents state.1 id with
    | none => rfl
    | some items =>
        have known : id ∈ state.1.map Bucket.id := contents_isSome_iff.mp (by rw [here]; rfl)
        have apart : target a ≠ id := fun same => put_eq_none_iff.mp lost (same ▸ known)
        rw [if_neg apart]
        simp

/-- **What the buckets hold in the end.** -/
theorem contents_putAll :
    contents (putAll target state items).1 id =
      (contents state.1 id).map (· ++ items.filter fun a => target a = id) := by
  induction items generalizing state with
  | nil =>
      unfold putAll
      simp
  | cons a items ih =>
      have step := @ih (store target state a)
      unfold putAll at step ⊢
      rw [List.foldl_cons, step, contents_store, Option.map_map]
      refine congrArg (fun f => Option.map f _) (funext fun before => ?_)
      by_cases here : target a = id
      · simp [here]
      · simp [here]

/-- **How many items were not lost.** -/
theorem stored_putAll :
    (putAll target state items).2 =
      state.2 + items.countP fun a => decide (target a ∈ state.1.map Bucket.id) := by
  induction items generalizing state with
  | nil => rfl
  | cons a items ih =>
      have step := @ih (store target state a)
      unfold putAll at step ⊢
      rw [List.foldl_cons, step, ids_store, List.countP_cons]
      have one : (store target state a).2 =
          state.2 + if decide (target a ∈ state.1.map Bucket.id) = true then 1 else 0 := by
        unfold store
        split
        next stored =>
          have known : target a ∈ state.1.map Bucket.id := by
            by_contra unknown
            exact nomatch (put_eq_none_iff.mpr unknown).symm.trans stored
          rw [if_pos (decide_eq_true known)]
        next lost => rw [if_neg (by simpa using put_eq_none_iff.mp lost), Nat.add_zero]
      omega

end Buckets

/-! ### Repetitions -/

section Repetitions

variable {α : Type} {repeats : α → α → Bool}

variable (repeats) in
/-- Induction along `List.eraseDupsBy`: the rest of a list without what repeats its first item. -/
theorem firsts_induction {motive : List α → Prop} (nil : motive [])
    (cons : ∀ a l, motive (l.filter fun b => repeats b a = false) → motive (a :: l)) (l : List α) :
    motive l := by
  induction length : l.length using Nat.strongRecOn generalizing l with
  | ind n ih =>
      cases l with
      | nil => exact nil
      | cons a l =>
          have shorter := List.length_filter_le (fun b => repeats b a = false) l
          exact cons a l (ih _ (by rw [← length, List.length_cons]; omega) _ rfl)

theorem mem_of_mem_firsts {l : List α} {a : α} (member : a ∈ l.eraseDupsBy repeats) : a ∈ l := by
  induction l using firsts_induction repeats with
  | nil => exact member
  | cons b l ih =>
      rw [List.eraseDupsBy_cons] at member
      rcases List.mem_cons.mp member with rfl | member
      · exact List.mem_cons_self
      · exact List.mem_cons_of_mem b (List.mem_of_mem_filter (ih member))

variable (repeats) in
/-- An item is left, or it repeats one that is. -/
theorem exists_mem_firsts {l : List α} {a : α} (member : a ∈ l) :
    a ∈ l.eraseDupsBy repeats ∨ ∃ b ∈ l.eraseDupsBy repeats, repeats a b = true := by
  induction l using firsts_induction repeats with
  | nil => exact absurd member List.not_mem_nil
  | cons b l ih =>
      rw [List.eraseDupsBy_cons]
      rcases List.mem_cons.mp member with rfl | member
      · exact .inl List.mem_cons_self
      · by_cases again : repeats a b = true
        · exact .inr ⟨b, List.mem_cons_self, again⟩
        · rcases ih (List.mem_filter.mpr ⟨member, by simpa using again⟩) with left | ⟨c, left, again⟩
          · exact .inl (List.mem_cons_of_mem b left)
          · exact .inr ⟨c, List.mem_cons_of_mem b left, again⟩

/-- No item that is left repeats an earlier one. -/
theorem pairwise_firsts (l : List α) : (l.eraseDupsBy repeats).Pairwise fun a b => repeats b a = false := by
  induction l using firsts_induction repeats with
  | nil => exact .nil
  | cons a l ih =>
      rw [List.eraseDupsBy_cons]
      refine .cons (fun b member => ?_) ih
      exact of_decide_eq_true (List.mem_filter.mp (mem_of_mem_firsts member)).2

/-- Items that repeat nothing are all left. -/
theorem filter_firsts {p : α → Bool} (single : ∀ a b, p b = true → repeats b a = false) (l : List α) :
    (l.eraseDupsBy repeats).filter p = l.filter p := by
  induction l using firsts_induction repeats with
  | nil => rfl
  | cons a l ih =>
      have rest : (l.filter fun b => repeats b a = false).filter p = l.filter p := by
        rw [List.filter_filter]
        refine List.filter_congr fun b _ => ?_
        by_cases kept : p b = true
        · simp [kept, single a b kept]
        · simp [kept]
      rw [List.eraseDupsBy_cons, List.filter_cons, List.filter_cons, ih, rest]

theorem firsts_sublist (l : List α) : (l.eraseDupsBy repeats).Sublist l := by
  induction l using firsts_induction repeats with
  | nil => exact .slnil
  | cons a l ih =>
      rw [List.eraseDupsBy_cons]
      exact (ih.trans List.filter_sublist).cons_cons a

/-- Which items are left determines the filter on the list. -/
theorem filter_eq_filter_iff {p q : α → Bool} {l : List α} :
    l.filter p = l.filter q ↔ ∀ a ∈ l, p a = q a := by
  constructor
  · intro same a member
    rw [Bool.eq_iff_iff]
    have left : a ∈ l.filter p ↔ a ∈ l ∧ p a = true := List.mem_filter
    have left' : a ∈ l.filter q ↔ a ∈ l ∧ q a = true := List.mem_filter
    rw [same] at left
    exact ⟨fun kept => (left'.mp (left.mpr ⟨member, kept⟩)).2,
      fun kept => (left.mp (left'.mpr ⟨member, kept⟩)).2⟩
  · exact fun same => List.filter_congr same

end Repetitions

/-! ### Groups -/

section Groups

variable {ι α : Type} [DecidableEq ι] {target : ι} {a : α} {buckets buckets' : List (Bucket ι α)}

theorem put_perm (stored : put target a buckets = some buckets') :
    (buckets'.flatMap Bucket.items).Perm (buckets.flatMap Bucket.items ++ [a]) := by
  induction buckets generalizing buckets' with
  | nil => exact nomatch stored
  | cons bucket rest ih =>
      rw [put] at stored
      by_cases here : bucket.id = target
      · rw [if_pos here] at stored
        cases stored
        simp only [List.flatMap_cons, List.append_assoc]
        exact List.perm_append_comm.append_left _
      · rw [if_neg here] at stored
        obtain ⟨rest', inner, rfl⟩ := Option.map_eq_some_iff.mp stored
        simp only [List.flatMap_cons, List.append_assoc]
        exact (ih inner).append_left _

/-- Put an item into the bucket of its key, which is opened for the first one. -/
def place (key : α → ι) (buckets : List (Bucket ι α)) (a : α) : List (Bucket ι α) :=
  (put (key a) a buckets).getD (buckets ++ [{ id := key a, items := [a] }])

/-- Group the items by their keys. -/
def group (key : α → ι) (items : List α) : List (Bucket ι α) := items.foldl (place key) []

theorem place_perm (key : α → ι) (buckets : List (Bucket ι α)) (a : α) :
    ((place key buckets a).flatMap Bucket.items).Perm (buckets.flatMap Bucket.items ++ [a]) := by
  unfold place
  cases stored : put (key a) a buckets with
  | some buckets' => exact put_perm stored
  | none =>
      rw [Option.getD_none, List.flatMap_append]
      exact List.Perm.refl _

/-- **The groups hold each item once.** -/
theorem group_perm (key : α → ι) (items : List α) : ((group key items).flatMap Bucket.items).Perm items := by
  suffices general : ∀ buckets, ((items.foldl (place key) buckets).flatMap Bucket.items).Perm
      (buckets.flatMap Bucket.items ++ items) from general []
  induction items with
  | nil =>
      intro buckets
      rw [List.append_nil]
      exact List.Perm.refl _
  | cons a items ih =>
      intro buckets
      refine (ih (place key buckets a)).trans ?_
      rw [List.append_cons]
      exact (place_perm key buckets a).append_right items

/-- Two filters that share nothing. -/
theorem filter_or_perm {p q : α → Bool} (l : List α) (apart : ∀ a ∈ l, p a = true → q a = false) :
    (l.filter p ++ l.filter q).Perm (l.filter fun a => p a || q a) := by
  have first : (l.filter fun a => p a || q a).filter p = l.filter p := by
    rw [List.filter_filter]
    refine List.filter_congr fun a _ => ?_
    cases p a <;> rfl
  have second : ((l.filter fun a => p a || q a).filter fun a => !p a) = l.filter q := by
    rw [List.filter_filter]
    refine List.filter_congr fun a member => ?_
    cases here : p a with
    | true => rw [apart a member here]; rfl
    | false => simp
  rw [← first, ← second]
  exact List.filter_append_perm _ _

/-- **The items of a list of keys**, one key after the other. -/
theorem flatMap_filter_perm (key : α → ι) (l : List α) {keys : List ι} (nodup : keys.Nodup) :
    (keys.flatMap fun k => l.filter fun a => key a = k).Perm (l.filter fun a => decide (key a ∈ keys)) := by
  induction keys with
  | nil => simp
  | cons k keys ih =>
      obtain ⟨absent, nodup⟩ := List.nodup_cons.mp nodup
      rw [List.flatMap_cons]
      refine ((ih nodup).append_left _).trans ((filter_or_perm l fun a _ here => ?_).trans ?_)
      · exact decide_eq_false fun member => absent (of_decide_eq_true here ▸ member)
      · refine List.Perm.of_eq (List.filter_congr fun a _ => ?_)
        rw [← Bool.decide_or]
        exact decide_eq_decide.mpr List.mem_cons.symm

end Groups

end Buckets

/-
**Joined texts** can be taken apart again, if the separator does not occur in the pieces
(`intercalate_inj`), and so can decimal numbers (`toString_inj`). Numbers without leading zeros are written
in one way (`toDigits_ofDigitChars`).
-/

import Mathlib.Data.List.Basic
import Mathlib.Data.List.Induction

namespace Join

variable {sep : Char} {pieces others : List (List Char)}

/-- The parts before and after the first separator. -/
theorem append_cons_inj {α : Type} {sep : α} {front other rest rest' : List α} (free : sep ∉ front)
    (freeOther : sep ∉ other) (same : front ++ sep :: rest = other ++ sep :: rest') :
    front = other ∧ rest = rest' := by
  rcases List.append_eq_append_iff.mp same with ⟨between, longer, tail⟩ | ⟨between, longer, tail⟩
  · cases between with
    | nil => exact ⟨(longer.trans (List.append_nil front)).symm, (List.cons.inj tail).2⟩
    | cons c between =>
        rw [(List.cons.inj tail).1, longer] at freeOther
        exact absurd (List.mem_append_right _ List.mem_cons_self) freeOther
  · cases between with
    | nil => exact ⟨longer.trans (List.append_nil other), (List.cons.inj tail).2.symm⟩
    | cons c between =>
        rw [(List.cons.inj tail).1, longer] at free
        exact absurd (List.mem_append_right _ List.mem_cons_self) free

/-- What is joined can be taken apart again. -/
theorem intercalate_inj (free : ∀ piece ∈ pieces, sep ∉ piece) (freeOthers : ∀ piece ∈ others, sep ∉ piece)
    (some_ : pieces ≠ []) (someOther : others ≠ [])
    (same : [sep].intercalate pieces = [sep].intercalate others) : pieces = others := by
  rw [← List.splitOn_intercalate sep free some_, same, List.splitOn_intercalate sep freeOthers someOther]

theorem mem_intercalate {c : Char} (member : c ∈ [sep].intercalate pieces) :
    c = sep ∨ ∃ piece ∈ pieces, c ∈ piece := by
  induction pieces with
  | nil => exact nomatch member
  | cons piece pieces ih =>
      cases pieces with
      | nil =>
          rw [List.intercalate_singleton] at member
          exact .inr ⟨piece, List.mem_singleton_self piece, member⟩
      | cons other pieces =>
          rw [List.intercalate_cons_cons] at member
          rcases List.mem_append.mp member with first | rest
          · rcases List.mem_append.mp first with inside | here
            · exact .inr ⟨piece, List.mem_cons_self, inside⟩
            · exact .inl (List.mem_singleton.mp here)
          · obtain here | ⟨piece', among, inside⟩ := ih rest
            · exact .inl here
            · exact .inr ⟨piece', List.mem_cons_of_mem _ among, inside⟩

/-- Splitting what is joined splits the pieces. -/
theorem splitOn_intercalate (some_ : pieces ≠ []) :
    ([sep].intercalate pieces).splitOn sep = pieces.flatMap fun piece => piece.splitOn sep := by
  induction pieces with
  | nil => exact absurd rfl some_
  | cons piece pieces ih =>
      cases pieces with
      | nil => rw [List.intercalate_singleton, List.flatMap_singleton]
      | cons other pieces =>
          rw [List.intercalate_cons_cons, List.append_assoc, List.singleton_append,
            List.splitOn_append_cons_self, ih (List.cons_ne_nil _ _)]
          exact List.flatMap_cons.symm

/-! ### Decimal numbers -/

theorem toDigits_inj {a b : Nat} (same : Nat.toDigits 10 a = Nat.toDigits 10 b) : a = b := by
  rw [← @Nat.ofDigitChars_ten_toDigits a, same, Nat.ofDigitChars_ten_toDigits]

theorem digitChar_of_isDigit {c : Char} (digit : c.isDigit = true) :
    ∃ d < 10, c = d.digitChar ∧ c.toNat - '0'.toNat = d := by
  obtain ⟨low, high⟩ := Char.isDigit_iff_toNat.mp digit
  have bounds : 48 ≤ c.toNat ∧ c.toNat ≤ 57 := ⟨low, high⟩
  refine ⟨c.toNat - 48, by omega, Char.toNat_inj.mp ?_, rfl⟩
  rw [Nat.toNat_digitChar_of_lt_ten (by omega)]
  omega

/-- A number written without leading zeros has its own digits. -/
theorem toDigits_ofDigitChars {digits : List Char} (some_ : digits ≠ [])
    (decimal : ∀ c ∈ digits, c.isDigit = true) (leading : digits.head? = some '0' → digits.length = 1) :
    Nat.toDigits 10 (Nat.ofDigitChars 10 digits 0) = digits := by
  induction digits using List.reverseRecOn with
  | nil => exact absurd rfl some_
  | append_singleton digits c ih =>
      obtain ⟨d, small, rfl, value⟩ := digitChar_of_isDigit (decimal c (by simp))
      rw [Nat.ofDigitChars_append, Nat.ofDigitChars_cons_digitChar_of_lt_ten small, Nat.ofDigitChars_nil]
      by_cases first : digits = []
      · rw [first, Nat.ofDigitChars_nil, Nat.mul_zero, Nat.zero_add, Nat.toDigits_of_lt_base small]
        rfl
      · have noZero : digits.head? ≠ some '0' := fun zero => by
          have long := List.length_pos_iff.mpr first
          have one := leading (by rw [List.head?_append, zero]; rfl)
          rw [List.length_append] at one
          exact absurd one (by simp; omega)
        have rest := ih first (fun c member => decimal c (List.mem_append_left _ member))
          fun zero => absurd zero noZero
        have positive : 0 < Nat.ofDigitChars 10 digits 0 := Nat.pos_of_ne_zero fun zero => by
          rw [zero] at rest
          exact noZero (rest ▸ rfl)
        rw [← Nat.toDigits_append_toDigits (by decide) positive small, rest, Nat.toDigits_of_lt_base small]

/-- Only zero starts with a zero. -/
theorem length_of_head_toDigits {n : Nat} (zero : (Nat.toDigits 10 n).head? = some '0') :
    (Nat.toDigits 10 n).length = 1 := by
  induction n using Nat.strongRecOn with
  | ind n ih =>
      by_cases small : n < 10
      · rw [Nat.toDigits_of_lt_base small]
        rfl
      · have more := Nat.toDigits_of_base_le (b := 10) (by decide) (Nat.not_lt.mp small)
        rw [more, List.head?_append_of_ne_nil _ Nat.toDigits_ne_nil] at zero
        have one := ih (n / 10) (by omega) zero
        obtain ⟨c, single⟩ := List.length_eq_one_iff.mp one
        rw [single] at zero
        cases zero
        have : n / 10 = 0 := toDigits_inj single
        omega

/-- A sign and digits. -/
theorem toList_toString (a : Int) :
    (toString a).toList = if 0 ≤ a then Nat.toDigits 10 a.toNat else '-' :: Nat.toDigits 10 (-a).toNat := by
  rw [Int.toString_eq_repr, Int.repr_eq_if]
  by_cases natural : 0 ≤ a
  · rw [if_pos natural, if_pos natural, Nat.toList_repr]
  · rw [if_neg natural, if_neg natural, String.toList_append, Nat.toList_repr]
    rfl

theorem mem_toString {a : Int} {c : Char} (member : c ∈ (toString a).toList) :
    c = '-' ∨ c.isDigit = true := by
  have digit : ∀ n, c ∈ Nat.toDigits 10 n → c.isDigit = true := fun n =>
    Nat.isDigit_of_mem_toDigits (by decide) (by decide)
  rw [toList_toString] at member
  by_cases natural : 0 ≤ a
  · rw [if_pos natural] at member
    exact .inr (digit _ member)
  · rw [if_neg natural] at member
    exact (List.mem_cons.mp member).imp_right (digit _)

theorem toString_inj {a b : Int} (same : toString a = toString b) : a = b := by
  have digits : ∀ n, '-' ∉ Nat.toDigits 10 n := fun n minus =>
    absurd (Nat.isDigit_of_mem_toDigits (by decide) (by decide) minus) (by decide)
  have texts := congrArg String.toList same
  rw [toList_toString, toList_toString] at texts
  by_cases natural : 0 ≤ a
  · by_cases natural' : 0 ≤ b
    · rw [if_pos natural, if_pos natural'] at texts
      have := toDigits_inj texts
      omega
    · rw [if_pos natural, if_neg natural'] at texts
      exact absurd (texts ▸ List.mem_cons_self) (digits a.toNat)
  · by_cases natural' : 0 ≤ b
    · rw [if_neg natural, if_pos natural'] at texts
      exact absurd (texts ▸ List.mem_cons_self) (digits b.toNat)
    · rw [if_neg natural, if_neg natural'] at texts
      have := toDigits_inj (List.cons.inj texts).2
      omega

end Join

/-
**UTF-16**: the code units of a text, as JavaScript's strings hold them.

* `codePoints_encode` — iterating over the units of a text gives its code points, and `utf8Length_encode`
  counts its UTF-8 bytes.
* `encode_injective` — the units determine the text.
* `encode_infix_iff` — ASCII texts stand in the units just where they stand in the text.
-/

import Mathlib.Algebra.GroupWithZero.Nat
import Mathlib.Data.List.Infix
import Mathlib.Data.String.Basic

namespace Utf16

/-- The unit of a character of the first plane. -/
def unit (c : Char) : UInt16 := UInt16.ofNat c.toNat

def encodeChar (c : Char) : List UInt16 :=
  if c.toNat < 0x10000 then [unit c]
  else
    [UInt16.ofNat (0xD800 + (c.toNat - 0x10000) / 0x400), UInt16.ofNat (0xDC00 + (c.toNat - 0x10000) % 0x400)]

def encode (text : List Char) : List UInt16 := text.flatMap encodeChar

def isHigh (u : UInt16) : Bool := 0xD800 ≤ u.toNat && u.toNat < 0xDC00

def isLow (u : UInt16) : Bool := 0xDC00 ≤ u.toNat && u.toNat < 0xE000

/-- The code points of a string: a surrogate without its partner is one by itself. -/
def codePoints : List UInt16 → List Nat
  | [] => []
  | [u] => [u.toNat]
  | u :: v :: rest =>
      if isHigh u && isLow v then
        (0x10000 + (u.toNat - 0xD800) * 0x400 + (v.toNat - 0xDC00)) :: codePoints rest
      else u.toNat :: codePoints (v :: rest)

/-- The UTF-8 bytes of a code point; `TextEncoder` writes U+FFFD for a lone surrogate, which has three too. -/
def utf8Size (point : Nat) : Nat :=
  if point < 0x80 then 1 else if point < 0x800 then 2 else if point < 0x10000 then 3 else 4

def utf8Length (units : List UInt16) : Nat := ((codePoints units).map utf8Size).sum

/-! ### Characters -/

/-- Characters are no surrogates. -/
theorem char_range (c : Char) : c.toNat < 0xD800 ∨ 0xDFFF < c.toNat ∧ c.toNat < 0x110000 := c.valid

theorem unit_toNat {c : Char} (small : c.toNat < 0x10000) : (unit c).toNat = c.toNat := by
  unfold unit
  rw [UInt16.toNat_ofNat']
  omega

theorem isHigh_unit {c : Char} (small : c.toNat < 0x10000) : isHigh (unit c) = false := by
  have range := char_range c
  unfold isHigh
  rw [unit_toNat small]
  simp only [Bool.and_eq_false_iff, decide_eq_false_iff_not]
  omega

theorem codePoints_cons {u : UInt16} (single : isHigh u = false) (rest : List UInt16) :
    codePoints (u :: rest) = u.toNat :: codePoints rest := by
  cases rest with
  | nil => rfl
  | cons v rest => rw [codePoints, single, Bool.false_and, if_neg Bool.false_ne_true]

theorem codePoints_encodeChar_append (c : Char) (rest : List UInt16) :
    codePoints (encodeChar c ++ rest) = c.toNat :: codePoints rest := by
  unfold encodeChar
  by_cases small : c.toNat < 0x10000
  · rw [if_pos small, List.singleton_append, codePoints_cons (isHigh_unit small), unit_toNat small]
  · have range := char_range c
    have high : (UInt16.ofNat (0xD800 + (c.toNat - 0x10000) / 0x400)).toNat =
        0xD800 + (c.toNat - 0x10000) / 0x400 := by
      rw [UInt16.toNat_ofNat']
      omega
    have low : (UInt16.ofNat (0xDC00 + (c.toNat - 0x10000) % 0x400)).toNat =
        0xDC00 + (c.toNat - 0x10000) % 0x400 := by
      rw [UInt16.toNat_ofNat']
      omega
    have paired : (isHigh (UInt16.ofNat (0xD800 + (c.toNat - 0x10000) / 0x400)) &&
        isLow (UInt16.ofNat (0xDC00 + (c.toNat - 0x10000) % 0x400))) = true := by
      unfold isHigh isLow
      rw [high, low]
      simp only [Bool.and_eq_true, decide_eq_true_iff]
      omega
    rw [if_neg small, List.cons_append, List.singleton_append, codePoints, if_pos paired, high, low]
    refine congrArg (· :: codePoints rest) ?_
    omega

/-! ### Texts -/

/-- **Iterating over the units of a text.** -/
theorem codePoints_encode (text : List Char) : codePoints (encode text) = text.map Char.toNat := by
  induction text with
  | nil => rfl
  | cons c text ih =>
      unfold encode at ih ⊢
      rw [List.flatMap_cons, codePoints_encodeChar_append, ih]
      rfl

/-- **The units determine the text.** -/
theorem encode_injective {text other : List Char} (same : encode text = encode other) : text = other := by
  have points := codePoints_encode text
  rw [same, codePoints_encode] at points
  exact List.map_injective_iff.mpr (fun _ _ => Char.toNat_inj.mp) points.symm

theorem utf8Size_toNat (c : Char) : utf8Size c.toNat = c.utf8Size := by
  have size : c.utf8Size =
      if c.toNat ≤ 0x7F then 1 else if c.toNat ≤ 0x7FF then 2 else if c.toNat ≤ 0xFFFF then 3 else 4 := rfl
  rw [size]
  unfold utf8Size
  simp only [Nat.lt_succ_iff]

/-- **The UTF-8 bytes of a text.** -/
theorem utf8Length_encode (s : String) : utf8Length (encode s.toList) = s.utf8ByteSize := by
  unfold utf8Length
  rw [codePoints_encode, List.map_map, ← String.utf8Len_toList]
  generalize s.toList = text
  induction text with
  | nil => rfl
  | cons c text ih =>
      rw [List.map_cons, List.sum_cons, ih, String.utf8Len_cons, Nat.add_comm]
      exact congrArg _ (utf8Size_toNat c)

/-! ### ASCII texts -/

theorem unit_inj {c d : Char} (small : c.toNat < 0x10000) (small' : d.toNat < 0x10000)
    (same : unit c = unit d) : c = d := by
  have values := congrArg UInt16.toNat same
  rw [unit_toNat small, unit_toNat small'] at values
  exact Char.toNat_inj.mp values

theorem encode_cons_small {c : Char} (small : c.toNat < 0x10000) (text : List Char) :
    encode (c :: text) = unit c :: encode text := by
  unfold encode
  rw [List.flatMap_cons, encodeChar, if_pos small]
  rfl

/-- Two surrogates, none of which is the unit of a character. -/
theorem encode_cons_large {c : Char} (large : ¬ c.toNat < 0x10000) :
    ∃ u v, (∀ text, encode (c :: text) = u :: v :: encode text) ∧
      ∀ d : Char, d.toNat < 0x80 → unit d ≠ u ∧ unit d ≠ v := by
  have range := char_range c
  have units : ∃ u v, encodeChar c = [u, v] ∧ ∀ d : Char, d.toNat < 0x80 → unit d ≠ u ∧ unit d ≠ v := by
    rw [encodeChar, if_neg large]
    refine ⟨_, _, rfl, fun d ascii => ⟨fun same => ?_, fun same => ?_⟩⟩
    all_goals
      have values := congrArg UInt16.toNat same
      rw [unit_toNat (by omega), UInt16.toNat_ofNat'] at values
      omega
  obtain ⟨u, v, pair, apart⟩ := units
  refine ⟨u, v, fun text => ?_, apart⟩
  unfold encode
  rw [List.flatMap_cons, pair]
  rfl

theorem encode_prefix_iff {part text : List Char} (ascii : ∀ c ∈ part, c.toNat < 0x80) :
    encode part <+: encode text ↔ part <+: text := by
  induction part generalizing text with
  | nil => exact ⟨fun _ => List.nil_prefix, fun _ => List.nil_prefix⟩
  | cons c part ih =>
      have here := ascii c List.mem_cons_self
      have rest : ∀ text, encode part <+: encode text ↔ part <+: text := fun text =>
        ih fun d member => ascii d (List.mem_cons_of_mem c member)
      rw [encode_cons_small (by omega)]
      cases text with
      | nil => exact ⟨fun start => absurd (List.prefix_nil.mp start) (List.cons_ne_nil _ _),
          fun start => absurd (List.prefix_nil.mp start) (List.cons_ne_nil _ _)⟩
      | cons d text =>
          by_cases small : d.toNat < 0x10000
          · rw [encode_cons_small small, List.cons_prefix_cons, List.cons_prefix_cons, rest text]
            exact and_congr_left fun _ => ⟨unit_inj (by omega) small, congrArg unit⟩
          · obtain ⟨u, v, same, apart⟩ := encode_cons_large small
            rw [same, List.cons_prefix_cons, List.cons_prefix_cons]
            refine ⟨fun start => absurd start.1 (apart c here).1, fun start => ?_⟩
            rw [start.1] at here
            omega

/-- **ASCII texts stand in the units just where they stand in the text.** -/
theorem encode_infix_iff {part text : List Char} (some_ : part ≠ []) (ascii : ∀ c ∈ part, c.toNat < 0x80) :
    encode part <:+: encode text ↔ part <:+: text := by
  induction text with
  | nil =>
      rw [show encode [] = [] from rfl, List.infix_nil, List.infix_nil]
      exact ⟨fun same => encode_injective same, fun same => by rw [same]; rfl⟩
  | cons d text ih =>
      rw [List.infix_cons_iff, ← ih, ← encode_prefix_iff ascii]
      by_cases small : d.toNat < 0x10000
      · rw [encode_cons_small small, List.infix_cons_iff]
      · obtain ⟨u, v, same, apart⟩ := encode_cons_large small
        obtain ⟨c, part, rfl⟩ := List.exists_cons_of_ne_nil some_
        have here := ascii c List.mem_cons_self
        rw [same, encode_cons_small (by omega), List.infix_cons_iff, List.infix_cons_iff,
          List.cons_prefix_cons, List.cons_prefix_cons]
        constructor
        · exact fun found => found.imp_right fun found =>
            found.resolve_left fun start => (apart c here).2 start.1
        · exact fun found => found.imp_right .inr

end Utf16

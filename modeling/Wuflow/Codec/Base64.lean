/-
**Base64 with the standard alphabet and padding.**

`encode` writes three bytes as four characters and pads the last group with `=`. `decode` skips line
breaks, needs complete groups with padding only at the end, and ignores the bits that the last group has
left over, as a decoder that is not strict does.

* `decode_encode` — the round trip.
* `encode_injective` — an encoding belongs to one text.
-/

import Mathlib.Data.List.Basic
import Mathlib.Tactic.Common

namespace Base64

/-! ### The alphabet -/

/-- The character of a six-bit value: `A`–`Z`, `a`–`z`, `0`–`9`, `+`, `/`. -/
def digit (n : Nat) : UInt8 :=
  if n < 26 then UInt8.ofNat (n + 65)
  else if n < 52 then UInt8.ofNat (n + 71)
  else if n < 62 then UInt8.ofNat (n - 4)
  else if n = 62 then 43
  else 47

/-- The value of a character of the alphabet. -/
def value (c : UInt8) : Option Nat :=
  if 65 ≤ c ∧ c ≤ 90 then some (c.toNat - 65)
  else if 97 ≤ c ∧ c ≤ 122 then some (c.toNat - 71)
  else if 48 ≤ c ∧ c ≤ 57 then some (c.toNat + 4)
  else if c = 43 then some 62
  else if c = 47 then some 63
  else none

/-- The padding character `=`. -/
def pad : UInt8 := 61

def isLineBreak (c : UInt8) : Bool := c == 10 || c == 13

/-! ### Encoding -/

/-- Groups of three bytes, most significant bits first. -/
def encode : List UInt8 → List UInt8
  | [] => []
  | [a] => [digit (a.toNat / 4), digit (a.toNat % 4 * 16), pad, pad]
  | [a, b] =>
      [digit (a.toNat / 4), digit (a.toNat % 4 * 16 + b.toNat / 16), digit (b.toNat % 16 * 4), pad]
  | a :: b :: c :: rest =>
      digit (a.toNat / 4) :: digit (a.toNat % 4 * 16 + b.toNat / 16) ::
        digit (b.toNat % 16 * 4 + c.toNat / 64) :: digit (c.toNat % 64) :: encode rest

/-! ### Decoding -/

/-- The three bytes of four values. -/
def firstByte (v w : Nat) : UInt8 := UInt8.ofNat (v * 4 + w / 16)

def secondByte (w x : Nat) : UInt8 := UInt8.ofNat (w % 16 * 16 + x / 4)

def thirdByte (x y : Nat) : UInt8 := UInt8.ofNat (x % 4 * 64 + y)

/-- Decode groups of four characters. -/
def decodeGroups : List UInt8 → Option (List UInt8)
  | [] => some []
  | [a, b, c, d] =>
      if d = pad then
        if c = pad then do
          let v ← value a
          let w ← value b
          return [firstByte v w]
        else do
          let v ← value a
          let w ← value b
          let x ← value c
          return [firstByte v w, secondByte w x]
      else do
        let v ← value a
        let w ← value b
        let x ← value c
        let y ← value d
        return [firstByte v w, secondByte w x, thirdByte x y]
  | a :: b :: c :: d :: rest => do
      let v ← value a
      let w ← value b
      let x ← value c
      let y ← value d
      let bytes ← decodeGroups rest
      return firstByte v w :: secondByte w x :: thirdByte x y :: bytes
  | _ => none

def decode (text : List UInt8) : Option (List UInt8) :=
  decodeGroups (text.filter fun c => !isLineBreak c)

/-! ### The round trip -/

theorem value_digit {n : Nat} (small : n < 64) : value (digit n) = some n := by
  have all : ∀ n : Fin 64, value (digit n) = some n.val := by decide
  exact all ⟨n, small⟩

theorem digit_plain {n : Nat} (small : n < 64) :
    digit n ≠ pad ∧ isLineBreak (digit n) = false := by
  have all : ∀ n : Fin 64, digit n ≠ pad ∧ isLineBreak (digit n) = false := by decide
  exact all ⟨n, small⟩

section Bytes

variable (a b c : UInt8)

theorem firstByte_split : firstByte (a.toNat / 4) (a.toNat % 4 * 16 + b.toNat / 16) = a := by
  have := b.toNat_lt
  unfold firstByte
  rw [show a.toNat / 4 * 4 + (a.toNat % 4 * 16 + b.toNat / 16) / 16 = a.toNat by omega]
  exact UInt8.ofNat_toNat

theorem firstByte_last : firstByte (a.toNat / 4) (a.toNat % 4 * 16) = a := by
  unfold firstByte
  rw [show a.toNat / 4 * 4 + a.toNat % 4 * 16 / 16 = a.toNat by omega]
  exact UInt8.ofNat_toNat

theorem secondByte_split :
    secondByte (a.toNat % 4 * 16 + b.toNat / 16) (b.toNat % 16 * 4 + c.toNat / 64) = b := by
  have := b.toNat_lt
  have := c.toNat_lt
  unfold secondByte
  rw [show (a.toNat % 4 * 16 + b.toNat / 16) % 16 * 16 + (b.toNat % 16 * 4 + c.toNat / 64) / 4 =
    b.toNat by omega]
  exact UInt8.ofNat_toNat

theorem secondByte_last : secondByte (a.toNat % 4 * 16 + b.toNat / 16) (b.toNat % 16 * 4) = b := by
  have := b.toNat_lt
  unfold secondByte
  rw [show (a.toNat % 4 * 16 + b.toNat / 16) % 16 * 16 + b.toNat % 16 * 4 / 4 = b.toNat by omega]
  exact UInt8.ofNat_toNat

theorem thirdByte_split : thirdByte (b.toNat % 16 * 4 + c.toNat / 64) (c.toNat % 64) = c := by
  have := c.toNat_lt
  unfold thirdByte
  rw [show (b.toNat % 16 * 4 + c.toNat / 64) % 4 * 64 + c.toNat % 64 = c.toNat by omega]
  exact UInt8.ofNat_toNat

end Bytes

/-- An encoding has no line breaks to skip. -/
theorem encode_plain (bytes : List UInt8) : ∀ c ∈ encode bytes, isLineBreak c = false := by
  induction bytes using encode.induct with
  | case1 => exact fun c member => absurd member List.not_mem_nil
  | case2 a =>
      have := a.toNat_lt
      simp only [encode, List.forall_mem_cons]
      exact ⟨(digit_plain (by omega)).2, (digit_plain (by omega)).2, rfl, rfl,
        fun c member => absurd member List.not_mem_nil⟩
  | case3 a b =>
      have := a.toNat_lt
      have := b.toNat_lt
      simp only [encode, List.forall_mem_cons]
      exact ⟨(digit_plain (by omega)).2, (digit_plain (by omega)).2, (digit_plain (by omega)).2, rfl,
        fun c member => absurd member List.not_mem_nil⟩
  | case4 a b c rest ih =>
      have := a.toNat_lt
      have := b.toNat_lt
      have := c.toNat_lt
      simp only [encode, List.forall_mem_cons]
      exact ⟨(digit_plain (by omega)).2, (digit_plain (by omega)).2, (digit_plain (by omega)).2,
        (digit_plain (by omega)).2, ih⟩

theorem decodeGroups_encode (bytes : List UInt8) : decodeGroups (encode bytes) = some bytes := by
  induction bytes using encode.induct with
  | case1 => rfl
  | case2 a =>
      have := a.toNat_lt
      simp only [encode, decodeGroups, value_digit (show a.toNat / 4 < 64 by omega),
        value_digit (show a.toNat % 4 * 16 < 64 by omega), if_true, Option.bind_eq_bind,
        Option.bind_some, firstByte_last]
      rfl
  | case3 a b =>
      have := a.toNat_lt
      have := b.toNat_lt
      have third : b.toNat % 16 * 4 < 64 := by omega
      simp only [encode, decodeGroups, value_digit (show a.toNat / 4 < 64 by omega),
        value_digit (show a.toNat % 4 * 16 + b.toNat / 16 < 64 by omega), value_digit third, if_true,
        if_neg (digit_plain third).1, Option.bind_eq_bind, Option.bind_some, firstByte_split,
        secondByte_last]
      rfl
  | case4 a b c rest ih =>
      have := a.toNat_lt
      have := b.toNat_lt
      have := c.toNat_lt
      have first : a.toNat / 4 < 64 := by omega
      have second : a.toNat % 4 * 16 + b.toNat / 16 < 64 := by omega
      have third : b.toNat % 16 * 4 + c.toNat / 64 < 64 := by omega
      have fourth : c.toNat % 64 < 64 := by omega
      cases same : encode rest with
      | nil =>
          rw [same] at ih
          cases ih
          simp only [encode, decodeGroups, value_digit first, value_digit second, value_digit third,
            value_digit fourth, if_neg (digit_plain fourth).1, Option.bind_eq_bind, Option.bind_some,
            firstByte_split, secondByte_split, thirdByte_split]
          rfl
      | cons head tail =>
          simp only [encode]
          rw [same] at ih ⊢
          simp only [decodeGroups, value_digit first, value_digit second, value_digit third,
            value_digit fourth, ih, Option.bind_eq_bind, Option.bind_some, firstByte_split,
            secondByte_split, thirdByte_split]
          rfl

/-- **Decoding undoes encoding.** -/
theorem decode_encode (bytes : List UInt8) : decode (encode bytes) = some bytes := by
  have plain : (encode bytes).filter (fun c => !isLineBreak c) = encode bytes :=
    List.filter_eq_self.mpr fun c member => by rw [encode_plain bytes c member]; rfl
  unfold decode
  rw [plain]
  exact decodeGroups_encode bytes

/-- **An encoding belongs to one text.** -/
theorem encode_injective {a b : List UInt8} (same : encode a = encode b) : a = b := by
  have decoded := decode_encode a
  rw [same, decode_encode] at decoded
  exact (Option.some.inj decoded).symm

/-- Four characters for three bytes. -/
theorem length_encode (bytes : List UInt8) : (encode bytes).length = (bytes.length + 2) / 3 * 4 := by
  induction bytes using encode.induct with
  | case1 => rfl
  | case2 a => simp [encode]
  | case3 a b => simp [encode]
  | case4 a b c rest ih =>
      simp only [encode, List.length_cons, ih]
      omega

end Base64

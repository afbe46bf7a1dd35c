/-
**Ranges of IP addresses** (`net/netip`).

* `Prefix.contains_iff` — a range contains the addresses of its family that have its leading bits.
* `network_agree` — `Addr.Prefix` keeps these bits.
* `parsePrefix_iff` — which texts `ParsePrefix` reads as a range.
-/

import Wuflow.Net.Addr

namespace Netip

open Join (length_of_head_toDigits toDigits_ofDigitChars)

/-! ### Leading bits -/

namespace Addr

def bitLen : Addr → Nat
  | .v4 _ => 32
  | .v6 .. => 128

def zone : Addr → String
  | .v4 _ => ""
  | .v6 _ _ zone => zone

/-- The bit at a place, counted from the front. -/
def bit : Addr → Nat → Bool
  | .v4 a, i => a.getMsbD i
  | .v6 hi lo _, i => if i < 64 then hi.getMsbD i else lo.getMsbD (i - 64)

/-- Two addresses of one family have the same first bits. -/
structure Agree (n : Nat) (x y : Addr) : Prop where
  family : x.bitLen = y.bitLen
  bits : ∀ i < n, x.bit i = y.bit i

theorem Agree.refl (n : Nat) (x : Addr) : Agree n x x := ⟨rfl, fun _ _ => rfl⟩

theorem Agree.trans {n : Nat} {x y z : Addr} (first : Agree n x y) (second : Agree n y z) : Agree n x z :=
  ⟨first.family.trans second.family, fun i inside => (first.bits i inside).trans (second.bits i inside)⟩

theorem Agree.symm {n : Nat} {x y : Addr} (agree : Agree n x y) : Agree n y x :=
  ⟨agree.family.symm, fun i inside => (agree.bits i inside).symm⟩

theorem bit_front {hi lo : BitVec 64} {zone : String} {i : Nat} (front : i < 64) :
    (v6 hi lo zone).bit i = hi.getMsbD i := if_pos front

theorem bit_back {hi lo : BitVec 64} {zone : String} {i : Nat} (back : ¬ i < 64) :
    (v6 hi lo zone).bit i = lo.getMsbD (i - 64) := if_neg back

/-- IPv6 addresses agree half by half. -/
theorem agree_v6_iff {n : Nat} (fits : n ≤ 128) {hi lo hi' lo' : BitVec 64} {zone zone' : String} :
    Agree n (v6 hi lo zone) (v6 hi' lo' zone') ↔
      (∀ i < 64, i < n → hi.getMsbD i = hi'.getMsbD i) ∧
        ∀ i < 64, i < n - 64 → lo.getMsbD i = lo'.getMsbD i := by
  constructor
  · intro agree
    constructor
    · intro i front inside
      have here := agree.bits i inside
      rwa [bit_front front, bit_front front] at here
    · intro i small inside
      have back : ¬ i + 64 < 64 := by omega
      have here := agree.bits (i + 64) (by omega)
      rwa [bit_back back, bit_back back, Nat.add_sub_cancel] at here
  · rintro ⟨first, second⟩
    refine ⟨rfl, fun i inside => ?_⟩
    by_cases front : i < 64
    · rw [bit_front front, bit_front front]
      exact first i front inside
    · rw [bit_back front, bit_back front]
      exact second (i - 64) (by omega) (by omega)

end Addr

section Words

variable {w : Nat}

theorem eq_zero_iff_getMsbD {x : BitVec w} : x = 0 ↔ ∀ i < w, x.getMsbD i = false := by
  constructor
  · rintro rfl i _
    exact BitVec.getMsbD_zero
  · intro clear
    exact BitVec.eq_of_getMsbD_eq fun i inside => (clear i inside).trans BitVec.getMsbD_zero.symm

/-- The differing bits of two words. -/
theorem xor_getMsbD_iff {x y : BitVec w} {i : Nat} :
    (x ^^^ y).getMsbD i = false ↔ x.getMsbD i = y.getMsbD i := by
  rw [BitVec.getMsbD_xor]
  exact bne_eq_false_iff_eq

theorem shift_eq_zero_iff {x : BitVec w} {k : Nat} :
    x >>> k = 0 ↔ ∀ i < w - k, x.getMsbD i = false := by
  rw [eq_zero_iff_getMsbD]
  simp only [BitVec.getMsbD_ushiftRight]
  constructor
  · intro clear i inside
    have here := clear (i + k) (by omega)
    simpa [show ¬ i + k < k by omega, show i + k < w by omega] using here
  · intro clear i inside
    by_cases small : i < k
    · simp [small]
    · simp [clear (i - k) (by omega)]

theorem mask_getMsbD (n i : Nat) :
    (mask6 n).1.getMsbD i = decide (i < n ∧ i < 64) ∧
      (mask6 n).2.getMsbD i = decide (i < n - 64 ∧ i < 64) := by
  unfold mask6
  constructor
  · rw [BitVec.getMsbD_not, BitVec.getMsbD_ushiftRight, BitVec.getMsbD_allOnes, Bool.eq_iff_iff]
    by_cases small : i < n
    · simp [small]
    · have below : i < 64 → i < 64 ∧ i - n < 64 := fun inside => by omega
      simpa [small] using below
  · rw [BitVec.getMsbD_shiftLeft, BitVec.getMsbD_allOnes, Bool.eq_iff_iff, decide_eq_true_eq,
      decide_eq_true_eq]
    omega

/-- Two words that agree where the masks are set. -/
theorem and_mask_iff {x y : BitVec 64} {n : Nat} :
    ((x ^^^ y) &&& (mask6 n).1 = 0 ↔ ∀ i < 64, i < n → x.getMsbD i = y.getMsbD i) ∧
      ((x ^^^ y) &&& (mask6 n).2 = 0 ↔ ∀ i < 64, i < n - 64 → x.getMsbD i = y.getMsbD i) := by
  constructor
  all_goals
    rw [eq_zero_iff_getMsbD]
    refine forall₂_congr fun i inside => ?_
    rw [BitVec.getMsbD_and, ← xor_getMsbD_iff]
    simp only [mask_getMsbD, inside, and_true]
    rw [Bool.and_eq_false_iff, decide_eq_false_iff_not, or_iff_not_imp_right, Classical.not_not]

end Words

/-! ### Ranges -/

/-- **What a range contains.** -/
theorem Prefix.contains_iff {p : Prefix} (fits : p.bits ≤ p.addr.bitLen) {x : Addr} (zoneless : x.zone = "") :
    p.contains x = true ↔ Addr.Agree p.bits x p.addr := by
  obtain ⟨addr, n⟩ := p
  cases x with
  | v4 a =>
      cases addr with
      | v4 b =>
          have small : n ≤ 32 := fits
          have same : (Prefix.mk (.v4 b) n).contains (.v4 a) = ((a ^^^ b) >>> (32 - n) == 0) := rfl
          rw [same, beq_iff_eq, shift_eq_zero_iff, Nat.sub_sub_self small]
          simp only [xor_getMsbD_iff]
          exact ⟨fun bits => ⟨rfl, bits⟩, fun agree => agree.bits⟩
      | v6 hi lo zone => exact ⟨nofun, fun agree => nomatch agree.family⟩
  | v6 hi lo zone =>
      cases addr with
      | v4 b => exact ⟨nofun, fun agree => nomatch agree.family⟩
      | v6 hi' lo' zone' =>
          have small : n ≤ 128 := fits
          have same : (Prefix.mk (.v6 hi' lo' zone') n).contains (.v6 hi lo zone) =
            (zone == "" && (hi ^^^ hi') &&& (mask6 n).1 == 0 && (lo ^^^ lo') &&& (mask6 n).2 == 0) := rfl
          rw [same, show zone = "" from zoneless, beq_self_eq_true, Bool.true_and, Bool.and_eq_true, beq_iff_eq,
            beq_iff_eq, and_mask_iff.1, and_mask_iff.2, Addr.agree_v6_iff small]

/-- **Clearing the other bits** keeps the leading ones. -/
theorem network_agree {addr : Addr} {n : Nat} (fits : n ≤ addr.bitLen) :
    Addr.Agree n (addr.network n).addr addr := by
  cases addr with
  | v4 a =>
      have small : n ≤ 32 := fits
      refine ⟨rfl, fun i inside => ?_⟩
      have set : (BitVec.truncate 32 (mask6 (n + 96)).2).getMsbD i = true := by
        rw [BitVec.truncate, BitVec.getMsbD_setWidth, (mask_getMsbD _ _).2, decide_eq_true (by omega),
          decide_eq_true ⟨by omega, by omega⟩, Bool.and_true]
      show (a &&& (BitVec.truncate 32 (mask6 (n + 96)).2)).getMsbD i = a.getMsbD i
      rw [BitVec.getMsbD_and, set, Bool.and_true]
  | v6 hi lo zone =>
      refine (Addr.agree_v6_iff fits).mpr ⟨fun i small inside => ?_, fun i small inside => ?_⟩
      · rw [BitVec.getMsbD_and, (mask_getMsbD n i).1, decide_eq_true ⟨inside, small⟩, Bool.and_true]
      · rw [BitVec.getMsbD_and, (mask_getMsbD n i).2, decide_eq_true ⟨inside, small⟩, Bool.and_true]

/-! ### Reading a range -/

/-- The number after the slash: decimal, without leading zeros. -/
def prefixBits (digits : List Char) : Option Nat :=
  if digits ≠ [] ∧ digits.all Char.isDigit ∧ (digits.head? = some '0' → digits.length = 1) then
    some (Nat.ofDigitChars 10 digits 0)
  else none

/-- `ParsePrefix`: an address without zone and, after the last slash, a number of bits that it has. -/
def parsePrefix (s : String) : Option Prefix :=
  let ip := (s.toList.rdropWhile (· ≠ '/')).dropLast
  let bits := s.toList.rtakeWhile (· ≠ '/')
  if '/' ∉ s.toList then none
  else match parseAddr (String.ofList ip), prefixBits bits with
    | some addr, some n => if addr.zone = "" ∧ n ≤ addr.bitLen then some { addr, bits := n } else none
    | _, _ => none

theorem prefixBits_iff {digits : List Char} {n : Nat} :
    prefixBits digits = some n ↔ digits = Nat.toDigits 10 n := by
  unfold prefixBits
  constructor
  · intro read
    split at read
    next valid =>
      have value : Nat.ofDigitChars 10 digits 0 = n := Option.some.inj read
      rw [← value, toDigits_ofDigitChars valid.1 (List.all_eq_true.mp valid.2.1) valid.2.2]
    next => exact nomatch read
  · rintro rfl
    have decimal : (Nat.toDigits 10 n).all Char.isDigit = true := List.all_eq_true.mpr fun c member =>
      Nat.isDigit_of_mem_toDigits (by decide) (by decide) member
    rw [if_pos ⟨Nat.toDigits_ne_nil, decimal, length_of_head_toDigits⟩, Nat.ofDigitChars_ten_toDigits]

theorem parsePrefix_append {ip bits : List Char} (slashless : '/' ∉ bits) :
    parsePrefix (String.ofList (ip ++ '/' :: bits)) =
      match parseAddr (String.ofList ip), prefixBits bits with
      | some addr, some n => if addr.zone = "" ∧ n ≤ addr.bitLen then some { addr, bits := n } else none
      | _, _ => none := by
  have others : ∀ c ∈ bits.reverse, decide (c ≠ '/') = true := fun c member =>
    decide_eq_true fun slash => slashless (slash ▸ List.mem_reverse.mp member)
  have reversed : (ip ++ '/' :: bits).reverse = bits.reverse ++ '/' :: ip.reverse := by simp
  have front : (ip ++ '/' :: bits).rdropWhile (· ≠ '/') = ip ++ ['/'] := by
    rw [List.rdropWhile, reversed, List.dropWhile_append_of_pos others,
      List.dropWhile_cons_of_neg (by decide)]
    simp
  have back : (ip ++ '/' :: bits).rtakeWhile (· ≠ '/') = bits := by
    rw [List.rtakeWhile, reversed, List.takeWhile_append_of_pos others,
      List.takeWhile_cons_of_neg (by decide),
      List.append_nil, List.reverse_reverse]
  unfold parsePrefix
  rw [String.toList_ofList, front, back, List.dropLast_concat]
  exact if_neg (Classical.not_not.mpr (List.mem_append_right ip List.mem_cons_self))

/-- **What `ParsePrefix` reads.** -/
theorem parsePrefix_iff {s : String} {addr : Addr} {n : Nat} :
    parsePrefix s = some { addr, bits := n } ↔
      ∃ ip, s = ip ++ "/" ++ toString n ∧ parseAddr ip = some addr ∧ addr.zone = "" ∧ n ≤ addr.bitLen := by
  constructor
  · intro read
    have slash : '/' ∈ s.toList := by
      by_contra slashless
      unfold parsePrefix at read
      rw [if_pos slashless] at read
      exact nomatch read
    obtain ⟨back, front, reversed, slashless⟩ := List.eq_append_cons_of_mem (List.mem_reverse.mpr slash)
    have split : s = String.ofList (front.reverse ++ '/' :: back.reverse) := by
      rw [← String.ofList_toList (s := s), ← List.reverse_reverse s.toList, reversed]
      simp
    rw [split, parsePrefix_append (mt List.mem_reverse.mp slashless)] at read
    split at read
    next addr' n' parsed bits =>
      split at read
      next valid =>
        cases read
        refine ⟨String.ofList front.reverse, ?_, parsed, valid⟩
        rw [split, prefixBits_iff.mp bits, ← String.toList_inj]
        simp
      next => exact nomatch read
    next => exact nomatch read
  · rintro ⟨ip, rfl, parsed, valid⟩
    have slashless : '/' ∉ Nat.toDigits 10 n := fun slash =>
      absurd (Nat.isDigit_of_mem_toDigits (by decide) (by decide) slash) (by decide)
    have split : ip ++ "/" ++ toString n = String.ofList (ip.toList ++ '/' :: Nat.toDigits 10 n) := by
      rw [← String.toList_inj]
      simp
    rw [split, parsePrefix_append slashless, String.ofList_toList, parsed, prefixBits_iff.mpr rfl]
    exact if_pos valid

end Netip

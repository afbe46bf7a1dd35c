/-
**IP addresses and their texts** (`net/netip`).

* `parseAddr`, `Addr.text` — reading and writing an address.
* `Prefix.contains`, `Addr.network` — networks.
* `Addr.text_v4_inj`, `networkText_inj` — the texts of IPv4 addresses and of IPv6 networks of 64 bits are
  unambiguous.
-/

import Mathlib.Data.List.DropRight
import Wuflow.Codec.Join

namespace Netip

open Join (intercalate_inj mem_intercalate toDigits_inj)

/-- An address: IPv4, or IPv6 with its two halves and its zone. -/
inductive Addr
  | v4 (bits : BitVec 32)
  | v6 (hi lo : BitVec 64) (zone : String)
deriving DecidableEq

/-! ### Reading -/

/-- A field of an IPv4 address: a decimal number up to 255 without leading zeros. -/
def octet (digits : List Char) : Option Nat :=
  let value := Nat.ofDigitChars 10 digits 0
  if digits ≠ [] ∧ digits.all Char.isDigit ∧ (digits.head? = some '0' → digits.length = 1) ∧ value ≤ 255 then
    some value
  else none

/-- The four fields of an IPv4 address. -/
def fields4 (text : List Char) : Option (BitVec 32) :=
  match (text.splitOn '.').mapM octet with
  | some [a, b, c, d] => some (BitVec.ofNat 32 (((a * 256 + b) * 256 + c) * 256 + d))
  | _ => none

def isHex (c : Char) : Bool := c.isDigit || ('a' ≤ c && c ≤ 'f') || ('A' ≤ c && c ≤ 'F')

def hexDigit (c : Char) : Nat :=
  if c.isDigit then c.toNat - '0'.toNat
  else if 'a' ≤ c then c.toNat - 'a'.toNat + 10 else c.toNat - 'A'.toNat + 10

def hexValue (digits : List Char) : Nat := digits.foldl (fun value c => value * 16 + hexDigit c) 0

/-- The fields of an IPv6 address: those that have been read, where `::` stood, and what is left to read.
At most `n` more fields fit. -/
def fields6 : Nat → List Nat → Option Nat → List Char → Option (List Nat × Option Nat × List Char)
  | 0, read, ellipsis, text => some (read, ellipsis, text)
  | n + 1, read, ellipsis, text =>
      let digits := text.takeWhile isHex
      let rest := text.drop digits.length
      if digits = [] ∨ 4 < digits.length then none
      else if rest.head? = some '.' then
        -- an IPv4 address in the place of the last two fields
        if (ellipsis = none ∧ read.length ≠ 6) ∨ 6 < read.length then none
        else (fields4 text).map fun bits : BitVec 32 =>
          (read ++ [(bits >>> 16).toNat, bits.toNat % 65536], ellipsis, [])
      else
        let read := read ++ [hexValue digits]
        match rest with
        | [] => some (read, ellipsis, [])
        | ':' :: ':' :: rest =>
            if ellipsis.isSome then none
            else if rest = [] then some (read, some read.length, [])
            else fields6 n read (some read.length) rest
        | [':'] => none
        | ':' :: rest => fields6 n read ellipsis rest
        | _ => none

/-- Eight fields: `::` stands for at least one field of zeros. -/
def expand : List Nat × Option Nat × List Char → Option (List Nat)
  | (read, ellipsis, []) =>
      match ellipsis with
      | none => if read.length = 8 then some read else none
      | some i =>
          if read.length < 8 then some (read.take i ++ List.replicate (8 - read.length) 0 ++ read.drop i)
          else none
  | _ => none

def half (a b c d : Nat) : BitVec 64 := BitVec.ofNat 64 (((a * 65536 + b) * 65536 + c) * 65536 + d)

def parse6 (text : List Char) (zone : String) : Option Addr :=
  let fields := match text with
    | [':', ':'] => some (List.replicate 8 0)
    | ':' :: ':' :: rest => fields6 8 [] (some 0) rest >>= expand
    | _ => fields6 8 [] none text >>= expand
  match fields with
  | some [a, b, c, d, e, f, g, h] => some (.v6 (half a b c d) (half e f g h) zone)
  | _ => none

/-- `ParseAddr`: the first `.`, `:` or `%` tells how to go on. -/
def parseAddr (s : String) : Option Addr :=
  match s.toList.find? (fun c => c = '.' || c = ':' || c = '%') with
  | some '.' => (fields4 s.toList).map .v4
  | some ':' =>
      match s.toList.dropWhile (· ≠ '%') with
      | [] => parse6 s.toList ""
      | _ :: zone => if zone = [] then none else parse6 (s.toList.takeWhile (· ≠ '%')) (String.ofList zone)
  | _ => none

namespace Addr

def withZone : Addr → String → Addr
  | .v4 bits, _ => .v4 bits
  | .v6 hi lo _, zone => .v6 hi lo zone

/-- An IPv4 address in an IPv6 one, `::ffff:a.b.c.d`. -/
def is4In6 : Addr → Bool
  | .v4 _ => false
  | .v6 hi lo _ => hi == 0 && lo >>> 32 == 0xffff

def unmap : Addr → Addr
  | .v4 bits => .v4 bits
  | .v6 hi lo zone =>
      if (Addr.v6 hi lo zone).is4In6 then .v4 (lo.truncate 32) else .v6 hi lo zone

/-! ### Writing -/

end Addr

def octets (bits : BitVec 32) : List Nat :=
  [bits.toNat / 16777216, bits.toNat / 65536 % 256, bits.toNat / 256 % 256, bits.toNat % 256]

def text4 (bits : BitVec 32) : List Char := ['.'].intercalate ((octets bits).map (Nat.toDigits 10))

/-- The four fields of a half. -/
def quarters (bits : BitVec 64) : List Nat :=
  [bits.toNat / 281474976710656, bits.toNat / 4294967296 % 65536, bits.toNat / 65536 % 65536,
    bits.toNat % 65536]

/-- A field in hexadecimal, without leading zeros. -/
def hexText (x : Nat) : List Char :=
  (if 0x1000 ≤ x then [(x / 0x1000).digitChar] else []) ++
    (if 0x100 ≤ x then [(x / 0x100 % 16).digitChar] else []) ++
    (if 0x10 ≤ x then [(x / 0x10 % 16).digitChar] else []) ++ [(x % 16).digitChar]

/-- How many zeros there are from `i` on. -/
def zerosFrom (fields : List Nat) (i : Nat) : Nat := ((fields.drop i).takeWhile (· = 0)).length

/-- The first of the longest runs of at least two zeros: where it starts and how long it is. -/
def zeroRun (fields : List Nat) : Option (Nat × Nat) :=
  (List.range fields.length).foldl (fun best i =>
    if 2 ≤ zerosFrom fields i ∧ (best.map Prod.snd).getD 0 < zerosFrom fields i then
      some (i, zerosFrom fields i) else best) none

def joined (fields : List Nat) : List Char := [':'].intercalate (fields.map hexText)

def text6 (fields : List Nat) : List Char :=
  match zeroRun fields with
  | none => joined fields
  | some (start, length) => joined (fields.take start) ++ "::".toList ++ joined (fields.drop (start + length))

def zoneText (zone : String) : List Char := if zone = "" then [] else '%' :: zone.toList

/-- `Addr.String`. -/
def Addr.text : Addr → String
  | .v4 bits => String.ofList (text4 bits)
  | .v6 hi lo zone =>
      if (Addr.v6 hi lo zone).is4In6 then
        String.ofList ("::ffff:".toList ++ text4 (lo.truncate 32) ++ zoneText zone)
      else String.ofList (text6 (quarters hi ++ quarters lo) ++ zoneText zone)

/-! ### Networks -/

/-- An address and the number of its leading bits that are the network's. -/
structure Prefix where
  addr : Addr
  bits : Nat
deriving DecidableEq

/-- `mask6`. -/
def mask6 (n : Nat) : BitVec 64 × BitVec 64 :=
  (~~~(BitVec.allOnes 64 >>> n), BitVec.allOnes 64 <<< (128 - n))

/-- `Addr.Prefix`, for a number of bits that the address has. -/
def Addr.network (addr : Addr) (bits : Nat) : Prefix :=
  match addr with
  | .v4 a => { addr := .v4 (a &&& (mask6 (bits + 96)).2.truncate 32), bits }
  | .v6 hi lo _ => { addr := .v6 (hi &&& (mask6 bits).1) (lo &&& (mask6 bits).2) "", bits }

/-- `Prefix.Contains`. -/
def Prefix.contains (p : Prefix) : Addr → Bool
  | .v4 a =>
      match p.addr with
      | .v4 b => (a ^^^ b) >>> (32 - p.bits) == 0
      | .v6 .. => false
  | .v6 hi lo zone =>
      match p.addr with
      | .v4 _ => false
      | .v6 hi' lo' _ =>
          zone == "" && (hi ^^^ hi') &&& (mask6 p.bits).1 == 0 && (lo ^^^ lo') &&& (mask6 p.bits).2 == 0

/-- `Prefix.String`. -/
def Prefix.text (p : Prefix) : String := p.addr.text ++ "/" ++ toString p.bits


/-! ### Unambiguous texts -/

theorem hexDigit_digitChar {d : Nat} (small : d < 16) : hexDigit d.digitChar = d := by
  have all : ∀ d : Fin 16, hexDigit d.val.digitChar = d.val := by decide
  exact all ⟨d, small⟩

theorem hexValue_hexText {x : Nat} (small : x < 65536) : hexValue (hexText x) = x := by
  have last : hexDigit (x % 16).digitChar = x % 16 := hexDigit_digitChar (by omega)
  have second : hexDigit (x / 0x10 % 16).digitChar = x / 0x10 % 16 := hexDigit_digitChar (by omega)
  have third : hexDigit (x / 0x100 % 16).digitChar = x / 0x100 % 16 := hexDigit_digitChar (by omega)
  have first : hexDigit (x / 0x1000).digitChar = x / 0x1000 := hexDigit_digitChar (by omega)
  unfold hexText hexValue
  by_cases four : 0x1000 ≤ x
  · have three : 0x100 ≤ x := by omega
    have two : 0x10 ≤ x := by omega
    simp only [four, three, two, if_true, List.cons_append, List.nil_append, List.foldl_cons, List.foldl_nil,
      first, second, third, last]
    omega
  · by_cases three : 0x100 ≤ x
    · have two : 0x10 ≤ x := by omega
      simp only [four, three, two, if_true, if_false, List.cons_append, List.nil_append, List.foldl_cons,
        List.foldl_nil, second, third, last]
      omega
    · by_cases two : 0x10 ≤ x
      · simp only [four, three, two, if_true, if_false, List.cons_append, List.nil_append, List.foldl_cons,
          List.foldl_nil, second, last]
        omega
      · simp only [four, three, two, if_false, List.nil_append, List.foldl_cons, List.foldl_nil, last]
        omega

theorem isHex_digitChar {d : Nat} (small : d < 16) : isHex d.digitChar = true := by
  have all : ∀ d : Fin 16, isHex d.val.digitChar = true := by decide
  exact all ⟨d, small⟩

theorem isHex_of_mem_hexText {x : Nat} (small : x < 65536) {c : Char} (member : c ∈ hexText x) :
    isHex c = true := by
  unfold hexText at member
  simp only [List.mem_append, List.mem_ite_nil_right, List.mem_singleton] at member
  obtain ((⟨_, rfl⟩ | ⟨_, rfl⟩) | ⟨_, rfl⟩) | rfl := member
  all_goals exact isHex_digitChar (by omega)

theorem octets_inj {a b : BitVec 32} (same : octets a = octets b) : a = b := by
  unfold octets at same
  simp only [List.cons.injEq, and_true] at same
  refine BitVec.eq_of_toNat_eq ?_
  omega

theorem quarters_inj {a b : BitVec 64} (same : quarters a = quarters b) : a = b := by
  unfold quarters at same
  simp only [List.cons.injEq, and_true] at same
  refine BitVec.eq_of_toNat_eq ?_
  omega

theorem isDigit_of_mem_octets {bits : BitVec 32} {piece : List Char}
    (member : piece ∈ (octets bits).map (Nat.toDigits 10)) {c : Char} (inside : c ∈ piece) :
    c.isDigit = true := by
  obtain ⟨value, _, rfl⟩ := List.mem_map.mp member
  exact Nat.isDigit_of_mem_toDigits (by decide) (by decide) inside

theorem text4_inj {a b : BitVec 32} (same : text4 a = text4 b) : a = b := by
  have free : ∀ bits, ∀ piece ∈ (octets bits).map (Nat.toDigits 10), '.' ∉ piece := fun bits piece member dot =>
    absurd (isDigit_of_mem_octets member dot) (by decide)
  refine octets_inj (List.map_injective_iff.mpr (fun _ _ => toDigits_inj) ?_)
  exact intercalate_inj (free a) (free b) (List.cons_ne_nil _ _) (List.cons_ne_nil _ _) same

/-- The texts of IPv4 addresses are unambiguous. -/
theorem Addr.text_v4_inj {a b : BitVec 32} (same : (Addr.v4 a).text = (Addr.v4 b).text) : a = b :=
  text4_inj (String.ofList_inj.mp same)

/-! ### The characters of texts -/

theorem mem_text_v4 {bits : BitVec 32} {c : Char} (member : c ∈ (Addr.v4 bits).text.toList) :
    c = '.' ∨ c.isDigit = true := by
  have inside : c ∈ text4 bits := by
    rwa [show (Addr.v4 bits).text = String.ofList (text4 bits) from rfl, String.toList_ofList] at member
  obtain separator | ⟨piece, among, inside⟩ := mem_intercalate inside
  · exact .inl separator
  · exact .inr (isDigit_of_mem_octets among inside)

theorem mem_joined {fields : List Nat} (small : ∀ x ∈ fields, x < 65536) {c : Char}
    (member : c ∈ joined fields) : c = ':' ∨ isHex c = true := by
  obtain separator | ⟨piece, among, inside⟩ := mem_intercalate member
  · exact .inl separator
  · obtain ⟨x, here, rfl⟩ := List.mem_map.mp among
    exact .inr (isHex_of_mem_hexText (small x here) inside)

/-! ### Networks of 64 bits -/

/-- The first fields, without the zeros they end with. -/
def significant (hi : BitVec 64) : List Nat := (quarters hi).rdropWhile (· = 0)

theorem zeroRun_half (a b c d : Nat) :
    zeroRun ([a, b, c, d] ++ [0, 0, 0, 0]) =
      some (([a, b, c, d].rdropWhile (· = 0)).length, 8 - ([a, b, c, d].rdropWhile (· = 0)).length) := by
  by_cases fourth : d = 0
  · by_cases third : c = 0
    · by_cases second : b = 0
      · by_cases first : a = 0
        · subst first second third fourth
          decide
        · subst second third fourth
          simp [zeroRun, zerosFrom, List.range_succ, List.rdropWhile, first]
      · subst third fourth
        by_cases first : a = 0
        · simp [zeroRun, zerosFrom, List.range_succ, List.rdropWhile, first, second]
        · simp [zeroRun, zerosFrom, List.range_succ, List.rdropWhile, first, second]
    · subst fourth
      by_cases first : a = 0 <;> by_cases second : b = 0 <;>
        simp [zeroRun, zerosFrom, List.range_succ, List.rdropWhile, first, second, third]
  · by_cases first : a = 0 <;> by_cases second : b = 0 <;> by_cases third : c = 0 <;>
      simp [zeroRun, zerosFrom, List.range_succ, List.rdropWhile, first, second, third, fourth]

theorem text6_half (hi : BitVec 64) :
    text6 (quarters hi ++ quarters 0) = joined (significant hi) ++ "::".toList := by
  have run := zeroRun_half (hi.toNat / 281474976710656) (hi.toNat / 4294967296 % 65536)
    (hi.toNat / 65536 % 65536) (hi.toNat % 65536)
  unfold text6
  rw [show quarters hi ++ quarters 0 = quarters hi ++ [0, 0, 0, 0] from rfl,
    show zeroRun (quarters hi ++ [0, 0, 0, 0]) =
      some ((significant hi).length, 8 - (significant hi).length) from run]
  have isPrefix : significant hi <+: quarters hi ++ [0, 0, 0, 0] :=
    (List.rdropWhile_prefix _ _).trans (List.prefix_append _ _)
  have short : (significant hi).length ≤ 8 := isPrefix.length_le
  dsimp only
  rw [← List.prefix_iff_eq_take.mp isPrefix, Nat.add_sub_cancel' short, List.drop_of_length_le (Nat.le_refl 8)]
  exact List.append_nil _

theorem joined_free {fields : List Nat} (small : ∀ x ∈ fields, x < 65536) :
    ∀ piece ∈ fields.map hexText, ':' ∉ piece := by
  intro piece member colon
  obtain ⟨x, inside, rfl⟩ := List.mem_map.mp member
  exact absurd (isHex_of_mem_hexText (small x inside) colon) (by decide)

theorem joined_cons_ne_nil (x : Nat) (rest : List Nat) : joined (x :: rest) ≠ [] := by
  have ends : hexText x ≠ [] := by
    unfold hexText
    simp
  intro empty
  cases rest with
  | nil => exact ends ((List.intercalate_singleton ..).symm.trans empty)
  | cons y rest =>
      unfold joined at empty
      rw [List.map_cons, List.map_cons, List.intercalate_cons_cons, List.append_assoc] at empty
      exact ends (List.append_eq_nil_iff.mp empty).1

theorem map_hexValue {fields : List Nat} (small : ∀ x ∈ fields, x < 65536) :
    (fields.map hexText).map hexValue = fields := by
  rw [List.map_map]
  exact (List.map_congr_left fun x member => hexValue_hexText (small x member)).trans (List.map_id _)

theorem joined_inj {fields others : List Nat} (small : ∀ x ∈ fields, x < 65536)
    (smallOthers : ∀ x ∈ others, x < 65536) (same : joined fields = joined others) : fields = others := by
  cases fields with
  | nil =>
      cases others with
      | nil => rfl
      | cons y others => exact absurd same.symm (joined_cons_ne_nil y others)
  | cons x fields =>
      cases others with
      | nil => exact absurd same (joined_cons_ne_nil x fields)
      | cons y others =>
          have texts := intercalate_inj (joined_free small) (joined_free smallOthers)
            (List.cons_ne_nil _ _) (List.cons_ne_nil _ _) same
          rw [← map_hexValue small, texts, map_hexValue smallOthers]

theorem significant_small {hi : BitVec 64} {x : Nat} (member : x ∈ significant hi) : x < 65536 := by
  have inside := (List.rdropWhile_prefix _ _).subset member
  have bound := hi.isLt
  simp only [quarters, List.mem_cons, List.not_mem_nil, or_false] at inside
  omega

/-- A half is its significant fields and zeros. -/
theorem significant_append (hi : BitVec 64) :
    significant hi ++ List.replicate (4 - (significant hi).length) 0 = quarters hi := by
  have all : ∀ x ∈ (quarters hi).reverse.takeWhile (fun x => decide (x = 0)), x = 0 := by
    intro x member
    have zero := List.mem_takeWhile_imp (p := fun x => decide (x = 0)) member
    exact of_decide_eq_true zero
  have parts : significant hi ++ ((quarters hi).reverse.takeWhile (fun x => decide (x = 0))).reverse =
      quarters hi := by
    unfold significant List.rdropWhile
    rw [← List.reverse_append, List.takeWhile_append_dropWhile, List.reverse_reverse]
  have lengths := congrArg List.length parts
  rw [List.length_append, List.length_reverse, show (quarters hi).length = 4 from rfl] at lengths
  calc significant hi ++ List.replicate (4 - (significant hi).length) 0
      = significant hi ++ (List.replicate
          ((quarters hi).reverse.takeWhile (fun x => decide (x = 0))).length 0).reverse := by
        rw [List.reverse_replicate]
        congr 2
        omega
    _ = quarters hi := by rw [← List.eq_replicate_iff.mpr ⟨rfl, all⟩, parts]

theorem network_text (hi lo : BitVec 64) (zone : String) :
    ((Addr.v6 hi lo zone).network 64).text =
      String.ofList (joined (significant hi) ++ "::/64".toList) := by
  have masked : (Addr.v6 hi lo zone).network 64 = { addr := .v6 hi 0 "", bits := 64 } := by
    have kept : hi &&& (mask6 64).1 = hi := BitVec.and_allOnes
    have dropped : lo &&& (mask6 64).2 = 0 := BitVec.and_zero
    unfold Addr.network
    dsimp only
    rw [kept, dropped]
  have plain : (Addr.v6 hi 0 "").is4In6 = false := Bool.and_false _
  rw [masked]
  unfold Prefix.text Addr.text
  dsimp only
  rw [plain, text6_half]
  have digits : Nat.toDigits 10 64 = ['6', '4'] := by decide
  refine String.toList_inj.mp ?_
  simp [zoneText, digits]

theorem mem_network_text {hi lo : BitVec 64} {zone : String} {c : Char}
    (member : c ∈ ((Addr.v6 hi lo zone).network 64).text.toList) : c = ':' ∨ c = '/' ∨ isHex c = true := by
  rw [network_text, String.toList_ofList] at member
  rcases List.mem_append.mp member with field | ending
  · obtain colon | digit := mem_joined (fun x => significant_small) field
    · exact .inl colon
    · exact .inr (.inr digit)
  · have all : "::/64".toList.all (fun c => decide (c = ':' ∨ c = '/' ∨ isHex c = true)) = true := by decide
    exact of_decide_eq_true (List.all_eq_true.mp all c ending)

theorem colon_mem_network_text (hi lo : BitVec 64) (zone : String) :
    ':' ∈ ((Addr.v6 hi lo zone).network 64).text.toList := by
  rw [network_text, String.toList_ofList]
  exact List.mem_append_right _ (by decide)

/-- **The texts of IPv6 networks of 64 bits are unambiguous.** -/
theorem network_text_eq_iff {hi lo hi' lo' : BitVec 64} {zone zone' : String} :
    ((Addr.v6 hi lo zone).network 64).text = ((Addr.v6 hi' lo' zone').network 64).text ↔ hi = hi' := by
  rw [network_text, network_text, String.ofList_inj, List.append_left_inj]
  constructor
  · intro same
    have parts := joined_inj (fun x => significant_small) (fun x => significant_small) same
    refine quarters_inj ?_
    rw [← significant_append, parts, significant_append]
  · rintro rfl
    rfl

end Netip

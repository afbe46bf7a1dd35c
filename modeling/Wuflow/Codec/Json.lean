/-
**JSON objects of text members.**

An `Encoder` writes such an object and chooses how each character is escaped; the choice has to be one
that readers undo (`Escapes`), which is a field of the type. `decodeObject` reads the object back and
accepts any white space between its parts.

* `Encoder.decodeObject_object` — what an encoder writes is read back, whichever encoder it was.
* `sqliteEncoder` — the escapes of `json_object`: the quote, the backslash and control characters.
* `goEncoder` — the escapes of `encoding/json`, which also escapes `<`, `>`, `&` and the two line
  separators.
-/

import Mathlib.Data.List.Basic
import Mathlib.Data.Option.Basic
import Mathlib.Tactic.Common

namespace Json

/-! ### Characters -/

def quoteMark : Char := '\x22'

def backslash : Char := '\x5c'

/-- The value of a hexadecimal digit. -/
def hexValue (c : Char) : Option Nat :=
  if '0' ≤ c ∧ c ≤ '9' then some (c.toNat - 48)
  else if 'a' ≤ c ∧ c ≤ 'f' then some (c.toNat - 87)
  else if 'A' ≤ c ∧ c ≤ 'F' then some (c.toNat - 55)
  else none

/-- The lower-case hexadecimal digit of a value below 16. -/
def hexDigit (n : Nat) : Char := Char.ofNat (if n < 10 then n + 48 else n + 87)

/-- Four hexadecimal digits. -/
def hex4 (a b c d : Char) : Option Nat := do
  return ((← hexValue a) * 16 + (← hexValue b)) * 256 + ((← hexValue c) * 16 + (← hexValue d))

/-- The character of a two-character escape. -/
def shortEscape : Char → Option Char
  | '\x22' => some '\x22'
  | '\x5c' => some '\x5c'
  | '/' => some '/'
  | 'b' => some '\x08'
  | 'f' => some '\x0c'
  | 'n' => some '\n'
  | 'r' => some '\r'
  | 't' => some '\t'
  | _ => none

def isHighSurrogate (code : Nat) : Bool := 0xd800 ≤ code && code < 0xdc00

def isLowSurrogate (code : Nat) : Bool := 0xdc00 ≤ code && code < 0xe000

/-- What stands for half a surrogate pair. -/
def replacement : Char := '\ufffd'

/-- The character of a UTF-16 unit that no high surrogate precedes. -/
def scalar (code : Nat) : Char := if isLowSurrogate code then replacement else Char.ofNat code

/-! ### Reading a string -/

/-- A part of a string: a character as it is, or a `\u` escape. -/
inductive Piece
  | char (c : Char)
  | unit (code : Nat)
  deriving DecidableEq

/-- The pieces up to the closing quote, and what follows it. -/
def pieces : List Char → Option (List Piece × List Char)
  | [] => none
  | '\x22' :: rest => some ([], rest)
  | '\x5c' :: 'u' :: a :: b :: c :: d :: rest => do
      let code ← hex4 a b c d
      let (parts, tail) ← pieces rest
      return (.unit code :: parts, tail)
  | '\x5c' :: e :: rest => do
      let c ← shortEscape e
      let (parts, tail) ← pieces rest
      return (.char c :: parts, tail)
  | c :: rest => do
      guard (32 ≤ c.toNat && c != backslash)
      let (parts, tail) ← pieces rest
      return (.char c :: parts, tail)

/-- The text of the pieces after a high surrogate that still waits for its low one: two units that make
a surrogate pair are one character, a lone one is replaced. -/
def textOf : Option Nat → List Piece → List Char
  | none, [] => []
  | some _, [] => [replacement]
  | none, .char c :: parts => c :: textOf none parts
  | some _, .char c :: parts => replacement :: c :: textOf none parts
  | none, .unit code :: parts =>
      if isHighSurrogate code then textOf (some code) parts
      else scalar code :: textOf none parts
  | some high, .unit code :: parts =>
      if isLowSurrogate code then
        Char.ofNat (0x10000 + (high - 0xd800) * 1024 + (code - 0xdc00)) :: textOf none parts
      else if isHighSurrogate code then replacement :: textOf (some code) parts
      else replacement :: scalar code :: textOf none parts

/-- White space between the parts of a text. -/
def isSpace (c : Char) : Bool := c == ' ' || c == '\t' || c == '\n' || c == '\r'

def skipSpace (text : List Char) : List Char := text.dropWhile isSpace

/-- The next part of a text is the given character. -/
def expect (c : Char) (text : List Char) : Option (List Char) :=
  match skipSpace text with
  | [] => none
  | first :: rest => if first = c then some rest else none

/-- A string and what follows it. -/
def readString (text : List Char) : Option (String × List Char) := do
  let (parts, rest) ← pieces (← expect quoteMark text)
  return (String.ofList (textOf none parts), rest)

/-! ### Reading an object -/

/-- The members from a key on; the budget bounds their number. -/
def readMembers : Nat → List Char → Option (List (String × String) × List Char)
  | 0, _ => none
  | budget + 1, text => do
      let (key, text) ← readString text
      let (value, text) ← readString (← expect ':' text)
      match expect ',' text with
      | some text => do
          let (members, text) ← readMembers budget text
          return ((key, value) :: members, text)
      | none => return ([(key, value)], ← expect '\x7d' text)

/-- **The members of an object whose members are all strings**, in order. -/
def decodeObject (text : String) : Option (List (String × String)) := do
  let rest ← expect '\x7b' text.toList
  let (members, rest) ←
    match expect '\x7d' rest with
    | some rest => some ([], rest)
    | none => readMembers text.length rest
  guard (skipSpace rest == [])
  return members

/-! ### Escapes that readers undo -/

/-- `escape` is a way to write the character in a string. -/
inductive Escapes (c : Char) : List Char → Prop
  | plain (quote : c ≠ quoteMark) (slash : c ≠ backslash) (printable : 32 ≤ c.toNat) : Escapes c [c]
  | short {e : Char} (short : shortEscape e = some c) : Escapes c [backslash, e]
  | unit {w x y z : Char} {code : Nat} (digits : hex4 w x y z = some code)
      (high : isHighSurrogate code = false) (same : scalar code = c) :
      Escapes c [backslash, 'u', w, x, y, z]

/-- **A writer of strings**, with escapes that are undone. -/
structure Encoder where
  escape : Char → List Char
  escapes : ∀ c, Escapes c (escape c)

namespace Encoder

def string (encoder : Encoder) (text : String) : List Char :=
  quoteMark :: (text.toList.flatMap encoder.escape ++ [quoteMark])

def member (encoder : Encoder) (entry : String × String) : List Char :=
  encoder.string entry.1 ++ ':' :: encoder.string entry.2

def members (encoder : Encoder) : List (String × String) → List Char
  | [] => []
  | [entry] => encoder.member entry
  | entry :: rest => encoder.member entry ++ ',' :: encoder.members rest

/-- **An object with the given members.** -/
def object (encoder : Encoder) (entries : List (String × String)) : String :=
  String.ofList ('\x7b' :: (encoder.members entries ++ ['\x7d']))

end Encoder

/-! ### Reading back what was written -/

/-- A piece of a string that stands for `c`. -/
def Means (piece : Piece) (c : Char) : Prop := ∀ parts, textOf none (piece :: parts) = c :: textOf none parts

/-- An escape is read as one piece, which stands for the character. -/
theorem Escapes.pieces {c : Char} {escape : List Char} (escapes : Escapes c escape) :
    ∃ piece, Means piece c ∧ ∀ rest, pieces (escape ++ rest) =
      (Json.pieces rest).map fun read => (piece :: read.1, read.2) := by
  cases escapes with
  | plain quote slash printable =>
      refine ⟨.char c, fun _ => rfl, fun rest => ?_⟩
      rw [List.singleton_append, Json.pieces.eq_def]
      split
      · simp_all
      · simp_all [quoteMark]
      · simp_all [backslash]
      · simp_all [backslash]
      · rename_i found
        cases found
        have ok : (decide (32 ≤ c.toNat) && c != backslash) = true := by simp [printable, slash]
        rw [ok]
        cases Json.pieces rest <;> rfl
  | @short e short =>
      have notUnit : e ≠ 'u' := by
        rintro rfl
        exact nomatch short
      refine ⟨.char c, fun _ => rfl, fun rest => ?_⟩
      show Json.pieces (backslash :: e :: rest) = _
      rw [Json.pieces.eq_def]
      split
      · simp_all
      · simp_all [backslash]
      · simp_all
      · rename_i found
        cases found
        rw [short]
        cases Json.pieces rest <;> rfl
      · rename_i other found
        cases found
        exact (other e rest rfl rfl).elim
  | @unit w x y z code digits high same =>
      refine ⟨.unit code, fun parts => ?_, fun rest => ?_⟩
      · rw [textOf, if_neg (ne_true_of_eq_false high), same]
      · show Json.pieces (backslash :: 'u' :: w :: x :: y :: z :: rest) = _
        rw [backslash, Json.pieces, digits]
        cases Json.pieces rest <;> rfl

section Encoders

variable (encoder : Encoder)

/-- The characters of a string are read back, up to the closing quote. -/
theorem Encoder.pieces_flatMap (chars rest : List Char) :
    ∃ parts, textOf none parts = chars ∧
      pieces (chars.flatMap encoder.escape ++ quoteMark :: rest) = some (parts, rest) := by
  induction chars with
  | nil => exact ⟨[], rfl, by rw [List.flatMap_nil, List.nil_append, quoteMark, pieces]⟩
  | cons c chars ih =>
      obtain ⟨parts, text, read⟩ := ih
      obtain ⟨piece, means, here⟩ := (encoder.escapes c).pieces
      refine ⟨piece :: parts, by rw [means, text], ?_⟩
      rw [List.flatMap_cons, List.append_assoc, here, read]
      rfl

theorem expect_cons {c : Char} (notSpace : isSpace c = false) (rest : List Char) :
    expect c (c :: rest) = some rest := by
  unfold expect skipSpace
  rw [List.dropWhile_cons_of_neg (ne_true_of_eq_false notSpace)]
  exact if_pos rfl

theorem expect_cons_ne {c first : Char} (notSpace : isSpace first = false) (differ : first ≠ c)
    (rest : List Char) : expect c (first :: rest) = none := by
  unfold expect skipSpace
  rw [List.dropWhile_cons_of_neg (ne_true_of_eq_false notSpace)]
  exact if_neg differ

theorem Encoder.readString_string (text : String) (rest : List Char) :
    readString (encoder.string text ++ rest) = some (text, rest) := by
  obtain ⟨parts, same, read⟩ := encoder.pieces_flatMap text.toList rest
  unfold readString Encoder.string
  rw [List.cons_append, expect_cons (by decide), List.append_assoc, List.singleton_append]
  show (do let (parts, rest) ← pieces _; some (String.ofList (textOf none parts), rest)) = _
  rw [read]
  show some (String.ofList (textOf none parts), rest) = _
  rw [same, String.ofList_toList]

theorem Encoder.member_append (entry : String × String) (rest : List Char) :
    encoder.member entry ++ rest = encoder.string entry.1 ++ ':' :: (encoder.string entry.2 ++ rest) := by
  unfold Encoder.member
  rw [List.append_assoc, List.cons_append]

/-- A member is read, and then what follows it. -/
theorem Encoder.readMembers_member (budget : Nat) (entry : String × String) (rest : List Char) :
    readMembers (budget + 1) (encoder.member entry ++ rest) =
      match expect ',' rest with
      | some text => do
          let (members, text) ← readMembers budget text
          return (entry :: members, text)
      | none => return ([entry], ← expect '\x7d' rest) := by
  have colon := expect_cons (c := ':') (by decide) (encoder.string entry.2 ++ rest)
  simp only [encoder.member_append, readMembers, encoder.readString_string, colon,
    Option.bind_eq_bind, Option.bind_some]

theorem Encoder.readMembers_members {entries : List (String × String)} (some_ : entries ≠ [])
    {budget : Nat} (enough : entries.length ≤ budget) (rest : List Char) :
    readMembers budget (encoder.members entries ++ '\x7d' :: rest) = some (entries, rest) := by
  induction entries generalizing budget with
  | nil => exact absurd rfl some_
  | cons entry entries ih =>
      cases budget with
      | zero => exact absurd enough (by simp)
      | succ budget =>
          cases entries with
          | nil =>
              rw [Encoder.members, encoder.readMembers_member, expect_cons_ne (by decide) (by decide),
                expect_cons (by decide)]
              rfl
          | cons next entries =>
              have more := ih (List.cons_ne_nil _ _) (Nat.le_of_succ_le_succ enough)
              rw [Encoder.members, List.append_assoc, encoder.readMembers_member, List.cons_append,
                expect_cons (by decide)]
              show (do let (members, text) ← readMembers budget _; _) = _
              rw [more]
              rfl
              exact List.cons_ne_nil _ _

/-- The members are at most as many as the characters that write them. -/
theorem Encoder.length_le_members (entries : List (String × String)) :
    entries.length ≤ (encoder.members entries).length := by
  induction entries with
  | nil => exact Nat.le_refl _
  | cons entry entries ih =>
      cases entries with
      | nil => simp [Encoder.members, Encoder.member, Encoder.string]
      | cons next entries =>
          simp only [Encoder.members, List.length_append, List.length_cons] at ih ⊢
          omega

/-- **What an encoder writes is read back.** -/
theorem Encoder.decodeObject_object (entries : List (String × String)) :
    decodeObject (encoder.object entries) = some entries := by
  have opening := expect_cons (c := '\x7b') (by decide) (encoder.members entries ++ ['\x7d'])
  unfold decodeObject Encoder.object
  rw [String.toList_ofList, opening]
  cases entries with
  | nil => rfl
  | cons entry rest =>
      have first : ∃ tail, encoder.members (entry :: rest) ++ ['\x7d'] = quoteMark :: tail := by
        cases rest with
        | nil => exact ⟨_, rfl⟩
        | cons next rest => exact ⟨_, rfl⟩
      have notEmpty : expect '\x7d' (encoder.members (entry :: rest) ++ ['\x7d']) = none := by
        obtain ⟨tail, same⟩ := first
        rw [same, expect_cons_ne (by decide) (by decide)]
      have enough : (entry :: rest).length ≤
          (String.ofList ('\x7b' :: (encoder.members (entry :: rest) ++ ['\x7d']))).length := by
        have := encoder.length_le_members (entry :: rest)
        simp only [String.length_ofList, List.length_cons, List.length_append] at this ⊢
        omega
      have read := encoder.readMembers_members (List.cons_ne_nil entry rest) enough []
      simp only [Option.bind_eq_bind, Option.bind_some, notEmpty, read]
      rfl

end Encoders

/-! ### The two encoders -/

/-- The escapes both have in common. -/
def controlEscape (c : Char) : List Char :=
  match c with
  | '\x22' | '\x5c' => [backslash, c]
  | '\x08' => [backslash, 'b']
  | '\x0c' => [backslash, 'f']
  | '\n' => [backslash, 'n']
  | '\r' => [backslash, 'r']
  | '\t' => [backslash, 't']
  | c =>
      if c.toNat < 32 then
        [backslash, 'u', '0', '0', hexDigit (c.toNat / 16), hexDigit (c.toNat % 16)]
      else [c]

theorem controlEscape_escapes (c : Char) : Escapes c (controlEscape c) := by
  unfold controlEscape
  split
  · exact .short rfl
  · exact .short rfl
  · exact .short rfl
  · exact .short rfl
  · exact .short rfl
  · exact .short rfl
  · exact .short rfl
  · rename_i quote slash _ _ _ _ _
    split
    · rename_i control
      have digits : ∀ n < 32, hex4 '0' '0' (hexDigit (n / 16)) (hexDigit (n % 16)) = some n := by decide
      have plane : ∀ n < 32, isHighSurrogate n = false ∧ isLowSurrogate n = false := by decide
      refine .unit (digits _ control) (plane _ control).1 ?_
      rw [scalar, if_neg (ne_true_of_eq_false (plane _ control).2)]
      exact Char.ofNat_toNat c
    · rename_i printable
      exact .plain quote slash (Nat.le_of_not_lt printable)

/-- The escapes of SQLite's `json_object`. -/
def sqliteEncoder : Encoder := ⟨controlEscape, controlEscape_escapes⟩

/-- The escapes of Go's `json.Marshal`. -/
def goEscape (c : Char) : List Char :=
  match c with
  | '<' => [backslash, 'u', '0', '0', '3', 'c']
  | '>' => [backslash, 'u', '0', '0', '3', 'e']
  | '&' => [backslash, 'u', '0', '0', '2', '6']
  | '\u2028' => [backslash, 'u', '2', '0', '2', '8']
  | '\u2029' => [backslash, 'u', '2', '0', '2', '9']
  | c => controlEscape c

theorem goEscape_escapes (c : Char) : Escapes c (goEscape c) := by
  unfold goEscape
  split
  · exact .unit (show hex4 '0' '0' '3' 'c' = some 0x3c by decide) (by decide) (by decide)
  · exact .unit (show hex4 '0' '0' '3' 'e' = some 0x3e by decide) (by decide) (by decide)
  · exact .unit (show hex4 '0' '0' '2' '6' = some 0x26 by decide) (by decide) (by decide)
  · exact .unit (show hex4 '2' '0' '2' '8' = some 0x2028 by decide) (by decide) (by decide)
  · exact .unit (show hex4 '2' '0' '2' '9' = some 0x2029 by decide) (by decide) (by decide)
  · exact controlEscape_escapes c

def goEncoder : Encoder := ⟨goEscape, goEscape_escapes⟩

example : sqliteEncoder.object [("from", "a<\x22\n\x01")] =
    "\x7b\x22from\x22:\x22a<\\\x22\\n\\u0001\x22\x7d" := by decide

end Json

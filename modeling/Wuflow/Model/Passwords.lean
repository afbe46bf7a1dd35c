/-
**The password blacklist** (`validation.go`).

`isBlacklistedPassword` replaces the characters of leetspeak in the password by letters and then searches it
for the words of the list, as they are.

* `isBlacklistedPassword_iff` — it finds the spellings of every word but those of digits, which the
  replacement takes out of the password.
* `blacklist_catches_iff` — when every listed word that a password has makes it blacklisted.
* `digits_pass` — a password with a listed word that is accepted.
-/

import Mathlib.Data.List.Forall2
import Wuflow.Codec.Substring
import Wuflow.Model.Validation

namespace Wuflow

/-! ### Spellings -/

/-- The characters of leetspeak and the letters they stand for. -/
def leetspeak : List (Char × Char) :=
  [('0', 'o'), ('1', 'i'), ('3', 'e'), ('4', 'a'), ('5', 's'), ('@', 'a'), ('$', 's'), ('!', 'i')]

/-- Any letters of the word may be replaced. -/
def Spells (spelling word : List Char) : Prop :=
  List.Forall₂ (fun c letter => c = letter ∨ (c, letter) ∈ leetspeak) spelling word

/-- The text contains a spelling of the word. -/
def HasSpelling (text : List Char) (word : String) : Prop :=
  ∃ spelling, Spells spelling word.toList ∧ spelling <:+: text

theorem unleet_of_mem {c letter : Char} (listed : (c, letter) ∈ leetspeak) : unleet c = letter := by
  have all : ∀ pair ∈ leetspeak, unleet pair.1 = pair.2 := by decide
  exact all _ listed

/-- A character that is replaced is one of leetspeak. -/
theorem mem_of_unleet (c : Char) : unleet c = c ∨ (c, unleet c) ∈ leetspeak := by
  unfold unleet
  split
  all_goals first
    | exact .inr (by decide)
    | exact .inl rfl

/-- No character of the word is replaced. -/
def Lasting (word : String) : Prop := word.toList.map unleet = word.toList

instance (word : String) : Decidable (Lasting word) := inferInstanceAs (Decidable (_ = _))

/-- The spellings of a word are what becomes the word. -/
theorem map_unleet_iff {word : String} (lasting : Lasting word) {spelling : List Char} :
    spelling.map unleet = word.toList ↔ Spells spelling word.toList := by
  unfold Lasting at lasting
  unfold Spells
  generalize word.toList = letters at lasting ⊢
  constructor
  · rintro rfl
    rw [List.forall₂_map_right_iff]
    exact List.forall₂_same.mpr fun c _ => (mem_of_unleet c).imp_left Eq.symm
  · intro spells
    induction spells with
    | nil => rfl
    | @cons c letter spelling letters same _ ih =>
        obtain ⟨here, rest⟩ := List.cons.inj lasting
        have first : unleet c = letter := by
          rcases same with rfl | listed
          · exact here
          · exact unleet_of_mem listed
        rw [List.map_cons, first, ih rest]

/-- The words of digits. -/
def digitWords : List String := ["123456", "111111", "000000"]

theorem lasting_iff {word : String} (listed : word ∈ passwordBlacklist) :
    Lasting word ↔ word ∉ digitWords := by
  have all : ∀ word ∈ passwordBlacklist, Lasting word ↔ word ∉ digitWords := by decide
  exact all word listed

/-- A word of digits has a character that no password has after the replacement. -/
theorem not_infix_map {word : String} (digits : word ∈ digitWords) (text : List Char) :
    ¬ word.toList <:+: text.map unleet := by
  intro inside
  have all : ∀ word ∈ digitWords, word.toList.any (fun c => c == '0' || c == '1') = true := by decide
  obtain ⟨c, member, digit⟩ := List.any_eq_true.mp (all word digits)
  rw [Bool.or_eq_true, beq_iff_eq, beq_iff_eq] at digit
  obtain ⟨d, _, same⟩ := List.mem_map.mp (inside.subset member)
  rcases mem_of_unleet d with kept | replaced
  · rw [kept] at same
    rcases same ▸ digit with rfl | rfl
    · exact absurd kept (by decide)
    · exact absurd kept (by decide)
  · have all : ∀ pair ∈ leetspeak, pair.2 ≠ '0' ∧ pair.2 ≠ '1' := by decide
    have other := all _ replaced
    rw [same] at other
    exact digit.elim other.1 other.2

/-! ### The blacklist -/

theorem containsText_iff {text part : List Char} : containsText text part = true ↔ part <:+: text :=
  Substring.includes_iff

/-- The words are long enough to be searched for. -/
theorem long_of_listed {word : String} (listed : word ∈ passwordBlacklist) : 4 ≤ word.utf8ByteSize := by
  have all : ∀ word ∈ passwordBlacklist, 4 ≤ word.utf8ByteSize := by decide
  exact all word listed

section Blacklist

variable (host : Host) (pw : String)

/-- **What the blacklist finds.** -/
theorem isBlacklistedPassword_iff :
    isBlacklistedPassword host pw = true ↔
      ∃ word ∈ passwordBlacklist, word ∉ digitWords ∧ HasSpelling (host.toLower pw).toList word := by
  unfold isBlacklistedPassword HasSpelling
  generalize (host.toLower pw).toList = text
  rw [List.any_eq_true]
  refine exists_congr fun word => and_congr_right fun listed => ?_
  rw [if_pos (long_of_listed listed), containsText_iff]
  by_cases digits : word ∈ digitWords
  · exact ⟨fun inside => absurd inside (not_infix_map digits text), fun found => absurd digits found.1⟩
  · have lasting := (lasting_iff listed).mpr digits
    rw [List.infix_map_iff]
    constructor
    · rintro ⟨spelling, inside, same⟩
      exact ⟨digits, spelling, (map_unleet_iff lasting).mp same.symm, inside⟩
    · rintro ⟨_, spelling, spells, inside⟩
      exact ⟨spelling, inside, ((map_unleet_iff lasting).mpr spells).symm⟩

/-- A word without letters of the table has one spelling. -/
theorem eq_of_spells {spelling letters : List Char} (spells : Spells spelling letters)
    (plain : ∀ letter ∈ letters, ∀ pair ∈ leetspeak, pair.2 ≠ letter) : spelling = letters := by
  unfold Spells at spells
  induction spells with
  | nil => rfl
  | @cons c letter spelling letters same _ ih =>
      have here : c = letter :=
        same.resolve_right fun listed => plain letter List.mem_cons_self _ listed rfl
      rw [here, ih fun letter member => plain letter (List.mem_cons_of_mem _ member)]

theorem hasSpelling_digits {word : String} (digits : word ∈ digitWords) {text : List Char} :
    HasSpelling text word ↔ word.toList <:+: text := by
  have all : ∀ word ∈ digitWords, ∀ pair ∈ leetspeak, word.toList.contains pair.2 = false := by decide
  have plain : ∀ letter ∈ word.toList, ∀ pair ∈ leetspeak, pair.2 ≠ letter := by
    intro letter member pair listed same
    exact absurd (List.contains_iff_mem.mpr (same ▸ member))
      (Bool.eq_false_iff.mp (all word digits pair listed))
  constructor
  · rintro ⟨spelling, spells, inside⟩
    exact eq_of_spells spells plain ▸ inside
  · intro inside
    exact ⟨word.toList, List.forall₂_same.mpr fun c _ => .inl rfl, inside⟩

/-- **When the blacklist catches every listed word**: no word of digits is in the password, or another one
is too. -/
theorem blacklist_catches_iff :
    (∀ word ∈ passwordBlacklist, HasSpelling (host.toLower pw).toList word →
      isBlacklistedPassword host pw = true) ↔
    ((∃ word ∈ digitWords, word.toList <:+: (host.toLower pw).toList) →
      ∃ word ∈ passwordBlacklist, word ∉ digitWords ∧ HasSpelling (host.toLower pw).toList word) := by
  rw [isBlacklistedPassword_iff]
  constructor
  · rintro catches ⟨word, digits, inside⟩
    have listed : ∀ word ∈ digitWords, word ∈ passwordBlacklist := by decide
    exact catches word (listed word digits) ((hasSpelling_digits digits).mpr inside)
  · intro other word listed spelled
    by_cases digits : word ∈ digitWords
    · exact other ⟨word, digits, (hasSpelling_digits digits).mp spelled⟩
    · exact ⟨word, listed, digits, spelled⟩

end Blacklist

/-! ### A listed word that passes -/

/-- Lower case and comparison for ASCII texts. -/
def asciiHost : Host where
  toLower := fun s => String.ofList (s.toList.map Char.toLower)
  equalFold := fun s t => s.toList.map Char.toLower == t.toList.map Char.toLower
  checkPassword := fun _ _ => false
  computeTokenMAC := fun _ => ""

/-- **The password `123456-123456` is accepted**, with a listed word twice in it. -/
theorem digits_pass :
    ¬ ∀ (host : Host) (pw : String), ∀ word ∈ passwordBlacklist,
      HasSpelling (host.toLower pw).toList word → isBlacklistedPassword host pw = true := by
  intro catches
  have blocked := catches asciiHost "123456-123456" "123456" (by decide)
    ((hasSpelling_digits (by decide)).mpr ⟨[], "-123456".toList, by decide⟩)
  exact absurd blocked (by decide)

end Wuflow

/-
**Paths of URLs** (`net/http`, `path`, `net/url`).

A path is given by what stands behind each of its slashes, escaped; a slash at its end leaves an empty text.

* `clean` — without empty texts, "." and ".." (`cleanPath`); `clean_eq_self_iff` — the paths that are clean.
* `segments` — the decoded segments; a slash at the end is a segment of its own. `segments_eq_self` — without
  escapes nothing is decoded.
-/

import Mathlib.Data.List.Basic
import Mathlib.Tactic.Common

namespace Routing

/-- What stands behind the slashes of an escaped path. -/
abbrev EscapedPath := List String

/-! ### Clean paths -/

/-- The text leads one level down. -/
def Proper (s : String) : Prop := s ≠ "" ∧ s ≠ "." ∧ s ≠ ".."

instance decidableProper (s : String) : Decidable (Proper s) := inferInstanceAs (Decidable (_ ∧ _))

/-- `path.Clean`, one text after the other. -/
def cleanStep (kept : List String) (s : String) : List String :=
  if s = "" ∨ s = "." then kept else if s = ".." then kept.dropLast else kept ++ [s]

/-- `cleanPath`: a slash at the end stays. -/
def clean (path : EscapedPath) : EscapedPath :=
  let kept := path.foldl cleanStep []
  if kept = [] then [""] else if path.getLast? = some "" then kept ++ [""] else kept

/-- **A clean path**: every text leads down, but that behind a slash at the end. -/
def Clean (path : EscapedPath) : Prop :=
  ∃ kept, (∀ s ∈ kept, Proper s) ∧ (path = kept ++ [""] ∨ path = kept ∧ kept ≠ [])

section Clean

variable {path kept acc : List String}

theorem cleanStep_proper {s : String} (proper : ∀ u ∈ acc, Proper u) : ∀ u ∈ cleanStep acc s, Proper u := by
  unfold cleanStep
  split
  · exact proper
  · next down =>
      split
      · exact fun u inside => proper u ((List.dropLast_sublist acc).subset inside)
      · next other =>
          intro u inside
          rcases List.mem_append.mp inside with inside | inside
          · exact proper u inside
          · obtain rfl := List.mem_singleton.mp inside
            exact ⟨fun empty => down (.inl empty), fun dot => down (.inr dot), other⟩

theorem foldl_proper (path : EscapedPath) (proper : ∀ u ∈ acc, Proper u) :
    ∀ u ∈ path.foldl cleanStep acc, Proper u := by
  induction path generalizing acc with
  | nil => exact proper
  | cons s path ih => exact ih (cleanStep_proper proper)

theorem foldl_append (acc : List String) (proper : ∀ s ∈ kept, Proper s) :
    kept.foldl cleanStep acc = acc ++ kept := by
  induction kept generalizing acc with
  | nil => exact (List.append_nil acc).symm
  | cons s kept ih =>
      have first := proper s List.mem_cons_self
      have step : cleanStep acc s = acc ++ [s] := by
        unfold cleanStep
        rw [if_neg (not_or.mpr ⟨first.1, first.2.1⟩), if_neg first.2.2]
      rw [List.foldl_cons, step, ih (acc ++ [s]) fun u inside => proper u (List.mem_cons_of_mem _ inside)]
      simp

/-- What `cleanPath` gives is clean. -/
theorem clean_clean (path : EscapedPath) : Clean (clean path) := by
  have proper : ∀ u ∈ path.foldl cleanStep [], Proper u :=
    foldl_proper path fun u inside => absurd inside List.not_mem_nil
  unfold clean
  dsimp only
  split
  · exact ⟨[], fun u inside => absurd inside List.not_mem_nil, .inl rfl⟩
  · next some_ =>
      split
      · exact ⟨_, proper, .inl rfl⟩
      · exact ⟨_, proper, .inr ⟨rfl, some_⟩⟩

theorem getLast?_ne_slash (proper : ∀ s ∈ kept, Proper s) : kept.getLast? ≠ some "" := fun last =>
  (proper "" (List.mem_of_getLast? last)).1 rfl

theorem Clean.clean_eq (cleaned : Clean path) : clean path = path := by
  obtain ⟨kept, proper, rfl | ⟨rfl, some_⟩⟩ := cleaned
  · have folded : (kept ++ [""]).foldl cleanStep [] = kept := by
      rw [List.foldl_append, foldl_append [] proper, List.nil_append]
      show cleanStep kept "" = kept
      exact if_pos (Or.inl rfl)
    unfold clean
    rw [folded]
    by_cases none : kept = []
    · rw [if_pos none, none]
      rfl
    · rw [if_neg none, if_pos (by simp)]
  · unfold clean
    rw [foldl_append [] proper, List.nil_append]
    dsimp only
    rw [if_neg some_, if_neg (getLast?_ne_slash proper)]

/-- **The paths that `cleanPath` leaves alone.** -/
theorem clean_eq_self_iff : clean path = path ↔ Clean path :=
  ⟨fun same => same ▸ clean_clean path, Clean.clean_eq⟩

end Clean

/-! ### Decoded segments -/

def hexDigit (b : UInt8) : Option UInt8 :=
  if 48 ≤ b ∧ b ≤ 57 then some (b - 48)
  else if 65 ≤ b ∧ b ≤ 70 then some (b - 55)
  else if 97 ≤ b ∧ b ≤ 102 then some (b - 87)
  else none

/-- The bytes behind an escaped text: `%` and two hexadecimal digits are one byte. -/
def percentDecode : List UInt8 → Option (List UInt8)
  | [] => some []
  | b :: rest =>
      if b = 37 then
        match rest with
        | high :: low :: rest => do
            let high ← hexDigit high
            let low ← hexDigit low
            let rest ← percentDecode rest
            some ((high * 16 + low) :: rest)
        | _ => none
      else (percentDecode rest).map (b :: ·)

/-- `pathUnescape`: a text that cannot be decoded stays; so does here one whose bytes are not UTF-8. -/
def unescape (s : String) : String :=
  if '%' ∈ s.toList then
    ((percentDecode s.toUTF8.toList).bind fun bytes => String.fromUTF8? ⟨bytes.toArray⟩).getD s
  else s

/-- The segments of a path; a slash at the end leaves a segment "/". -/
def segments : EscapedPath → List String
  | [] => []
  | s :: path => (if s = "" ∧ path = [] then "/" else unescape s) :: segments path

example : segments (clean ["assets", "..", "", "api", ".", "users", ""]) = ["api", "users", "/"] := by decide +kernel

section Segments

variable {path : EscapedPath}

theorem length_segments (path : EscapedPath) : (segments path).length = path.length := by
  induction path with
  | nil => rfl
  | cons s path ih => exact congrArg Nat.succ ih

/-- A slash more is a segment more. -/
theorem segments_slash (open_ : path.getLast? ≠ some "") : segments (path ++ [""]) = segments path ++ ["/"] := by
  induction path with
  | nil => rfl
  | cons s path ih =>
      have rest : path.getLast? ≠ some "" := by
        cases path with
        | nil => exact nofun
        | cons u path => exact open_
      have last : ¬ (s = "" ∧ path = []) := by
        rintro ⟨rfl, rfl⟩
        exact open_ rfl
      show (if s = "" ∧ path ++ [""] = [] then "/" else unescape s) :: segments (path ++ [""]) =
        (if s = "" ∧ path = [] then "/" else unescape s) :: (segments path ++ ["/"])
      rw [if_neg last, if_neg (by simp), ih rest]

theorem unescape_eq_self {s : String} (plain : '%' ∉ s.toList) : unescape s = s := if_neg plain

/-- Without escapes and without a slash at the end the segments are those of the path. -/
theorem segments_eq_self (plain : ∀ s ∈ path, s ≠ "" ∧ '%' ∉ s.toList) : segments path = path := by
  induction path with
  | nil => rfl
  | cons s path ih =>
      obtain ⟨some_, unescaped⟩ := plain s List.mem_cons_self
      show (if s = "" ∧ path = [] then "/" else unescape s) :: segments path = s :: path
      rw [if_neg fun empty => some_ empty.1, unescape_eq_self unescaped,
        ih fun u inside => plain u (List.mem_cons_of_mem _ inside)]

end Segments

end Routing

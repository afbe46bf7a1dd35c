/-
**Searching a text and replacing in it**, as `includes` and `replaceAll` do, for patterns that are not
empty.

* `includes_iff` — the part stands somewhere in the text.
* `replaceAll_singleton` — a pattern of one character is replaced character by character.
* `replaceAll_reference` — in a text made of references and of characters that open none, just the
  references that are the pattern are replaced. `reference_of_opener` — what opens a reference there.
-/

import Mathlib.Data.List.Infix
import Wuflow.Codec.Join

namespace Substring

variable {α β : Type} [DecidableEq α]

def includes (text part : List α) : Bool := text.tails.any part.isPrefixOf

theorem includes_iff {text part : List α} : includes text part = true ↔ part <:+: text := by
  unfold includes
  rw [List.any_eq_true, List.infix_iff_prefix_suffix]
  refine exists_congr fun rest => ?_
  rw [List.mem_tails, List.isPrefixOf_iff_prefix, and_comm]

/-- Replace the matches from the left; the next `skip` characters belong to one. -/
def replaceFrom (pattern replacement : List α) : Nat → List α → List α
  | _, [] => []
  | skip + 1, _ :: rest => replaceFrom pattern replacement skip rest
  | 0, c :: rest =>
      if pattern.isPrefixOf (c :: rest) then
        replacement ++ replaceFrom pattern replacement (pattern.length - 1) rest
      else c :: replaceFrom pattern replacement 0 rest

def replaceAll (pattern replacement text : List α) : List α := replaceFrom pattern replacement 0 text

section Replace

variable {pattern replacement : List α}

@[simp] theorem replaceAll_nil : replaceAll pattern replacement [] = [] := rfl

theorem replaceFrom_length_append (text after : List α) :
    replaceFrom pattern replacement text.length (text ++ after) = replaceAll pattern replacement after := by
  induction text with
  | nil => rfl
  | cons c text ih => exact ih

/-- A match. -/
theorem replaceAll_append_self (some_ : pattern ≠ []) (after : List α) :
    replaceAll pattern replacement (pattern ++ after) =
      replacement ++ replaceAll pattern replacement after := by
  cases pattern with
  | nil => exact absurd rfl some_
  | cons c rest =>
      have here : (c :: rest).isPrefixOf (c :: (rest ++ after)) = true :=
        List.isPrefixOf_iff_prefix.mpr (List.prefix_append (c :: rest) after)
      unfold replaceAll
      rw [List.cons_append, replaceFrom, if_pos here, List.length_cons, Nat.add_sub_cancel,
        replaceFrom_length_append]
      rfl

/-- No match. -/
theorem replaceAll_cons {c : α} {text : List α} (other : ¬ pattern <+: c :: text) :
    replaceAll pattern replacement (c :: text) = c :: replaceAll pattern replacement text := by
  unfold replaceAll
  rw [replaceFrom, if_neg (mt List.isPrefixOf_iff_prefix.mp other)]

/-- A part in which the pattern cannot begin. -/
theorem replaceAll_append_of_free {c : α} {text : List α} (free : c ∉ text) (after : List α) :
    replaceAll (c :: pattern) replacement (text ++ after) =
      text ++ replaceAll (c :: pattern) replacement after := by
  induction text with
  | nil => rfl
  | cons d text ih =>
      obtain ⟨other, free⟩ := not_or.mp (mt List.mem_cons.mpr free)
      rw [List.cons_append, replaceAll_cons fun start => other (List.cons_prefix_cons.mp start).1, ih free,
        List.cons_append]

/-- **A pattern of one character.** -/
theorem replaceAll_singleton (c : α) (replacement text : List α) :
    replaceAll [c] replacement text = text.flatMap fun d => if d = c then replacement else [d] := by
  induction text with
  | nil => rfl
  | cons d text ih =>
      rw [List.flatMap_cons, ← ih]
      by_cases here : d = c
      · rw [if_pos here, here]
        exact replaceAll_append_self (List.cons_ne_nil c []) text
      · rw [if_neg here, replaceAll_cons fun start => here (List.cons_prefix_cons.mp start).1.symm]
        rfl

end Replace

/-! ### References -/

/-- A name between an opening and a closing character. -/
def reference (opener closer : α) (name : List α) : List α := opener :: (name ++ [closer])

/-- A reference, or a character that opens none. -/
inductive Piece (opener closer : α) : List α → Prop
  | plain {c : α} (other : c ≠ opener) : Piece opener closer [c]
  | reference {name : List α} (unopened : opener ∉ name) (unclosed : closer ∉ name) :
      Piece opener closer (reference opener closer name)

section References

variable {opener closer : α} {name : List α} {replacement : List α}

omit [DecidableEq α] in
/-- A reference is read off the front of a text. -/
theorem reference_front {other after : List α} (unclosed : closer ∉ name) (unclosedOther : closer ∉ other)
    (start : reference opener closer name <+: reference opener closer other ++ after) : name = other := by
  obtain ⟨rest, same⟩ := start
  unfold reference at same
  simp only [List.cons_append, List.append_assoc, List.cons.injEq, true_and, List.nil_append] at same
  exact (Join.append_cons_inj unclosed unclosedOther same).1

/-- A piece that is not the reference is passed over. -/
theorem replaceAll_piece (apart : closer ≠ opener) (unclosed : closer ∉ name) {piece : List α}
    (isPiece : Piece opener closer piece) (other : piece ≠ reference opener closer name) (after : List α) :
    replaceAll (reference opener closer name) replacement (piece ++ after) =
      piece ++ replaceAll (reference opener closer name) replacement after := by
  cases isPiece with
  | plain otherChar => exact replaceAll_append_of_free (by simpa using otherChar.symm) after
  | @reference name' unopened' unclosed' =>
      have noMatch : ¬ reference opener closer name <+: reference opener closer name' ++ after := fun start =>
        other (congrArg (reference opener closer) (reference_front unclosed unclosed' start)).symm
      have inside : opener ∉ name' ++ [closer] := by
        simpa using ⟨unopened', apart.symm⟩
      exact (replaceAll_cons noMatch).trans (congrArg _ (replaceAll_append_of_free inside after))

/-- **Replacing one reference** leaves everything else. -/
theorem replaceAll_reference (apart : closer ≠ opener) (unclosed : closer ∉ name) {f : β → List α}
    (pieces : ∀ b, Piece opener closer (f b)) (text : List β) :
    replaceAll (reference opener closer name) replacement (text.flatMap f) =
      text.flatMap fun b => if f b = reference opener closer name then replacement else f b := by
  induction text with
  | nil => rfl
  | cons b text ih =>
      rw [List.flatMap_cons, List.flatMap_cons, ← ih]
      by_cases here : f b = reference opener closer name
      · rw [if_pos here, here]
        exact replaceAll_append_self (List.cons_ne_nil _ _) _
      · rw [if_neg here]
        exact replaceAll_piece apart unclosed (pieces b) here _

omit [DecidableEq α] in
/-- An opening character opens one of the references. -/
theorem reference_of_opener (apart : closer ≠ opener) {f : β → List α}
    (pieces : ∀ b, Piece opener closer (f b))
    {text : List β} {before after : List α} (same : text.flatMap f = before ++ opener :: after) :
    ∃ b ∈ text, (∃ name, f b = reference opener closer name) ∧ f b <+: opener :: after := by
  induction text generalizing before with
  | nil => exact absurd same.symm (List.append_ne_nil_of_right_ne_nil before (List.cons_ne_nil _ _))
  | cons b text ih =>
      rw [List.flatMap_cons] at same
      have later : ∀ before, text.flatMap f = before ++ opener :: after →
          ∃ b' ∈ b :: text, (∃ name, f b' = reference opener closer name) ∧ f b' <+: opener :: after :=
        fun before same => by
          obtain ⟨b', member, found⟩ := ih same
          exact ⟨b', List.mem_cons_of_mem b member, found⟩
      rcases List.append_eq_append_iff.mp same with ⟨more, _, tail⟩ | ⟨more, front, tail⟩
      · exact later more tail
      · cases more with
        | nil => exact later [] tail.symm
        | cons c more =>
            obtain ⟨rfl, tail⟩ := List.cons.inj tail
            have piece := pieces b
            rw [front] at piece
            -- within a piece the opening character is the first one
            have first : before = [] ∧ ∃ name, opener :: more = reference opener closer name := by
              generalize written : before ++ opener :: more = whole at piece
              cases piece with
              | plain other =>
                  rcases List.append_eq_singleton_iff.mp written with ⟨_, single⟩ | ⟨_, none⟩
                  · exact absurd (List.cons.inj single).1.symm other
                  · exact nomatch none
              | @reference name unopened _ =>
                  cases before with
                  | nil => exact ⟨rfl, name, written⟩
                  | cons _ before =>
                      have inside : opener ∈ name ++ [closer] := by
                        rw [← (List.cons.inj written).2]
                        exact List.mem_append_right _ List.mem_cons_self
                      rcases List.mem_append.mp inside with named | closing
                      · exact absurd named unopened
                      · exact absurd (List.mem_singleton.mp closing).symm apart
            obtain ⟨rfl, name, written⟩ := first
            refine ⟨b, List.mem_cons_self, ⟨name, front.trans written⟩, ?_⟩
            rw [front, tail]
            exact List.prefix_append (opener :: more) _

end References

end Substring

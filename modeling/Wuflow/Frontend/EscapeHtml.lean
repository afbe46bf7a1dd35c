/-
**Texts in HTML** (`utils.js`).

`escapeHtml` replaces five characters by entities, one after the other in the whole text. Texts are the code
units of JavaScript's strings.

* `escapeHtml_eq` — the five passes replace character by character: none of them touches what an earlier one
  has written.
* `unescapeHtml_escapeHtml` — replacing the entities back gives the text.
* `escapeHtml_safe_and_lossless` — both, and which characters are left.
-/

import Wuflow.Codec.Substring
import Wuflow.Codec.Utf16

namespace Wuflow.Frontend

open Substring (Piece reference replaceAll)
open Utf16 (unit)

/-- A JavaScript string. -/
abbrev JsString := List UInt16

/-- A string literal. -/
def js (s : String) : JsString := Utf16.encode s.toList

/-- `escapeHtml`. -/
def escapeHtml (text : JsString) : JsString :=
  if text.isEmpty then []
  else text
    |> replaceAll (js "&") (js "&amp;")
    |> replaceAll (js "<") (js "&lt;")
    |> replaceAll (js ">") (js "&gt;")
    |> replaceAll (js "\"") (js "&quot;")
    |> replaceAll (js "'") (js "&#039;")

/-- The entities replaced back. -/
def unescapeHtml (text : JsString) : JsString := text
  |> replaceAll (js "&#039;") (js "'")
  |> replaceAll (js "&quot;") (js "\"")
  |> replaceAll (js "&gt;") (js ">")
  |> replaceAll (js "&lt;") (js "<")
  |> replaceAll (js "&amp;") (js "&")

/-! ### One pass -/

/-- `&name;`. -/
def entity (name : JsString) : JsString := reference (unit '&') (unit ';') name

/-- The characters that have an entity, with its name. -/
abbrev Table := List (UInt16 × JsString)

/-- What stands for a character. -/
def Table.written (table : Table) (u : UInt16) : JsString :=
  match table.lookup u with
  | some name => entity name
  | none => [u]

/-- One more character gets an entity, and none of the earlier ones contains it. -/
structure Table.Extends (table : Table) (u : UInt16) (name : JsString) : Prop where
  fresh : table.lookup u = none
  untouched : ∀ entry ∈ table, u ∉ entity entry.2
  distinct : ∀ entry ∈ table, entry.2 ≠ name

/-- The characters and entities of a text can be told apart. -/
structure Table.Readable (table : Table) : Prop where
  ampersand : (table.lookup (unit '&')).isSome = true
  plain : ∀ entry ∈ table, unit '&' ∉ entry.2 ∧ unit ';' ∉ entry.2

section Passes

variable {table : Table} {u : UInt16} {name : JsString}

theorem Table.written_of_lookup {v : UInt16} {found : JsString} (here : table.lookup v = some found) :
    table.written v = entity found := by
  unfold Table.written
  rw [here]

theorem Table.written_of_none {v : UInt16} (here : table.lookup v = none) : table.written v = [v] := by
  unfold Table.written
  rw [here]

theorem Table.mem_of_lookup {v : UInt16} {found : JsString} (here : table.lookup v = some found) :
    ∃ entry ∈ table, entry.2 = found := by
  induction table with
  | nil => exact nomatch here
  | cons entry table ih =>
      rw [List.lookup_cons] at here
      split at here
      · exact ⟨entry, List.mem_cons_self, Option.some.inj here⟩
      · obtain ⟨other, member, same⟩ := ih here
        exact ⟨other, List.mem_cons_of_mem _ member, same⟩

theorem Table.written_append (new : table.Extends u name) (v : UInt16) :
    Table.written (table ++ [(u, name)]) v = if v = u then entity name else table.written v := by
  by_cases here : v = u
  · rw [if_pos here, here]
    refine Table.written_of_lookup ?_
    rw [List.lookup_append, new.fresh]
    simp
  · rw [if_neg here]
    have other : (v == u) = false := beq_eq_false_iff_ne.mpr here
    unfold Table.written
    rw [List.lookup_append, List.lookup_cons, other]
    simp

/-- **One pass.** -/
theorem replaceAll_written (new : table.Extends u name) (text : JsString) :
    replaceAll [u] (entity name) (text.flatMap table.written) =
      text.flatMap (Table.written (table ++ [(u, name)])) := by
  rw [Substring.replaceAll_singleton, List.flatMap_assoc]
  refine List.flatMap_congr fun v _ => ?_
  rw [Table.written_append new]
  cases here : table.lookup v with
  | none =>
      rw [Table.written_of_none here, List.flatMap_singleton]
  | some found =>
      have other : v ≠ u := fun same => nomatch (same ▸ here).symm.trans new.fresh
      obtain ⟨entry, member, rfl⟩ := Table.mem_of_lookup here
      rw [if_neg other, Table.written_of_lookup here]
      refine (List.flatMap_congr fun w inside => if_neg fun same => ?_).trans (List.flatMap_singleton' _)
      exact new.untouched entry member (same ▸ inside)

theorem Table.Readable.piece (readable : table.Readable) (v : UInt16) :
    Piece (unit '&') (unit ';') (table.written v) := by
  cases here : table.lookup v with
  | none =>
      rw [Table.written_of_none here]
      refine .plain fun same => ?_
      have listed := readable.ampersand
      rw [← same, here] at listed
      exact nomatch listed
  | some found =>
      rw [Table.written_of_lookup here]
      obtain ⟨entry, member, rfl⟩ := Table.mem_of_lookup here
      exact .reference (readable.plain entry member).1 (readable.plain entry member).2

/-- **One pass back.** -/
theorem replaceAll_entity (new : table.Extends u name) (readable : Table.Readable (table ++ [(u, name)]))
    (text : JsString) :
    replaceAll (entity name) [u] (text.flatMap (Table.written (table ++ [(u, name)]))) =
      text.flatMap table.written := by
  have plain := readable.plain (u, name) (List.mem_append_right _ List.mem_cons_self)
  refine (Substring.replaceAll_reference (by decide) plain.2 readable.piece text).trans ?_
  refine List.flatMap_congr fun v _ => ?_
  rw [Table.written_append new]
  by_cases here : v = u
  · rw [if_pos here, here, Table.written_of_none new.fresh]
    exact if_pos rfl
  · rw [if_neg here]
    refine if_neg fun same => ?_
    cases found : table.lookup v with
    | none =>
        rw [Table.written_of_none found] at same
        exact absurd (congrArg List.length same) (by simp [reference])
    | some other =>
        rw [Table.written_of_lookup found] at same
        obtain ⟨entry, member, rfl⟩ := Table.mem_of_lookup found
        exact new.distinct entry member (List.append_cancel_right (List.cons.inj same).2)

end Passes

/-! ### All passes -/

/-- A table grows entry by entry. -/
inductive Table.Staged : Table → Prop
  | nil : Staged []
  | snoc {table : Table} {u : UInt16} {name : JsString} (earlier : Staged table)
      (new : table.Extends u name) (readable : Table.Readable (table ++ [(u, name)])) :
      Staged (table ++ [(u, name)])

def Table.escape (table : Table) (text : JsString) : JsString :=
  table.foldl (fun text entry => replaceAll [entry.1] (entity entry.2) text) text

def Table.unescape (table : Table) (text : JsString) : JsString :=
  table.foldr (fun entry text => replaceAll (entity entry.2) [entry.1] text) text

theorem Table.Staged.escape_eq {table : Table} (staged : table.Staged) (text : JsString) :
    table.escape text = text.flatMap table.written := by
  induction staged with
  | nil => exact (List.flatMap_singleton' text).symm
  | snoc _ new _ ih =>
      unfold Table.escape at ih ⊢
      rw [List.foldl_append, ih]
      exact replaceAll_written new text

theorem Table.Staged.unescape_eq {table : Table} (staged : table.Staged) (text : JsString) :
    table.unescape (text.flatMap table.written) = text := by
  induction staged with
  | nil => exact List.flatMap_singleton' text
  | snoc _ new readable ih =>
      unfold Table.unescape at ih ⊢
      rw [List.foldr_append, List.foldr_cons, List.foldr_nil, replaceAll_entity new readable text]
      exact ih

/-- The five entities. -/
def entities : Table :=
  [(unit '&', js "amp"), (unit '<', js "lt"), (unit '>', js "gt"), (unit '"', js "quot"),
    (unit '\'', js "#039")]

theorem entities_staged : entities.Staged :=
  .snoc (.snoc (.snoc (.snoc (.snoc .nil
    ⟨by decide, by decide, by decide⟩ ⟨by decide, by decide⟩)
    ⟨by decide, by decide, by decide⟩ ⟨by decide, by decide⟩)
    ⟨by decide, by decide, by decide⟩ ⟨by decide, by decide⟩)
    ⟨by decide, by decide, by decide⟩ ⟨by decide, by decide⟩)
    ⟨by decide, by decide, by decide⟩ ⟨by decide, by decide⟩

theorem js_amp : js "&amp;" = entity (js "amp") := by decide

theorem js_lt : js "&lt;" = entity (js "lt") := by decide

theorem js_gt : js "&gt;" = entity (js "gt") := by decide

theorem js_quot : js "&quot;" = entity (js "quot") := by decide

theorem js_apos : js "&#039;" = entity (js "#039") := by decide

/-- **`escapeHtml` works character by character.** -/
theorem escapeHtml_eq (text : JsString) : escapeHtml text = text.flatMap entities.written := by
  rw [← entities_staged.escape_eq]
  unfold escapeHtml
  split
  · next none =>
      rw [List.isEmpty_iff.mp none]
      rfl
  · rw [js_amp, js_lt, js_gt, js_quot, js_apos]
    rfl

/-- **The entities replaced back give the text.** -/
theorem unescapeHtml_escapeHtml (text : JsString) : unescapeHtml (escapeHtml text) = text := by
  rw [escapeHtml_eq]
  refine Eq.trans ?_ (entities_staged.unescape_eq text)
  unfold unescapeHtml
  rw [js_amp, js_lt, js_gt, js_quot, js_apos]
  rfl

/-! ### The escaped text -/

theorem entities_readable : entities.Readable := ⟨by decide, by decide⟩

/-- The characters that need an entity are not left. -/
theorem not_mem_written {c : UInt16} (listed : (entities.lookup c).isSome = true)
    (other : ∀ entry ∈ entities, c ∉ entity entry.2) (u : UInt16) : c ∉ entities.written u := by
  intro member
  cases here : entities.lookup u with
  | none =>
      rw [Table.written_of_none here, List.mem_singleton] at member
      rw [member, here] at listed
      exact nomatch listed
  | some name =>
      rw [Table.written_of_lookup here] at member
      obtain ⟨entry, known, rfl⟩ := Table.mem_of_lookup here
      exact other entry known member

theorem not_mem_escapeHtml {c : UInt16} (listed : (entities.lookup c).isSome = true)
    (other : ∀ entry ∈ entities, c ∉ entity entry.2) (text : JsString) : c ∉ escapeHtml text := by
  intro member
  rw [escapeHtml_eq] at member
  obtain ⟨u, _, inside⟩ := List.mem_flatMap.mp member
  exact not_mem_written listed other u inside

/-- An ampersand of the escaped text starts one of the entities. -/
theorem entity_of_ampersand {text before after : JsString}
    (same : escapeHtml text = before ++ unit '&' :: after) :
    ∃ entry ∈ entities, entity entry.2 <+: unit '&' :: after := by
  rw [escapeHtml_eq] at same
  obtain ⟨u, _, ⟨name, written⟩, start⟩ :=
    Substring.reference_of_opener (by decide) entities_readable.piece same
  cases here : entities.lookup u with
  | none =>
      rw [Table.written_of_none here] at written
      exact absurd (congrArg List.length written) (by simp [reference])
  | some found =>
      rw [Table.written_of_lookup here] at start
      obtain ⟨entry, known, rfl⟩ := Table.mem_of_lookup here
      exact ⟨entry, known, start⟩

/-- **`escapeHtml` is safe and lossless.** -/
theorem escapeHtml_safe_and_lossless :
    (∀ text, unit '<' ∉ escapeHtml text ∧ unit '>' ∉ escapeHtml text ∧ unit '"' ∉ escapeHtml text ∧
      unit '\'' ∉ escapeHtml text) ∧
    (∀ text before after, escapeHtml text = before ++ unit '&' :: after →
      ∃ written ∈ [js "&amp;", js "&lt;", js "&gt;", js "&quot;", js "&#039;"],
        written <+: unit '&' :: after) ∧
    (∀ text, unescapeHtml (escapeHtml text) = text) ∧ Function.Injective escapeHtml := by
  refine ⟨fun text => ⟨?_, ?_, ?_, ?_⟩, ?_, unescapeHtml_escapeHtml,
    Function.LeftInverse.injective unescapeHtml_escapeHtml⟩
  · exact not_mem_escapeHtml (by decide) (by decide) text
  · exact not_mem_escapeHtml (by decide) (by decide) text
  · exact not_mem_escapeHtml (by decide) (by decide) text
  · exact not_mem_escapeHtml (by decide) (by decide) text
  · intro text before after same
    obtain ⟨entry, known, start⟩ := entity_of_ampersand same
    refine ⟨entity entry.2, ?_, start⟩
    rw [js_amp, js_lt, js_gt, js_quot, js_apos]
    exact List.mem_map_of_mem (f := fun entry => entity entry.2) known

/-- A text that already has an entity. -/
example : escapeHtml (js "<a title='&lt;'>") = js "&lt;a title=&#039;&amp;lt;&#039;&gt;" := by decide

end Wuflow.Frontend

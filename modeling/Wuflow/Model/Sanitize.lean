/-
**What `sanitizeString` leaves of a text.**

* `HasTag` — the text has a match of `<[^>]+>`.
* `stripTags_tagFree` — what is left has none; `stripTags_eq_self_iff` — a text without a match is kept.
* `trimSpace_trimSpace` — trimming twice is trimming once.
* `sanitizeString_leaves_no_tag` — a sanitized text has neither NUL characters nor tags, and sanitizing it
  again only trims it.
* `sanitizeString_eq_self_iff` — a trimmed text is kept iff it has neither NUL characters nor tags.
-/

import Mathlib.Data.List.DropRight
import Wuflow.Model.Validation

namespace Wuflow

/-! ### Trimming -/

/-- The first character that is left is no white space, and neither is the last one. -/
theorem head?_trimSpaceChars {cs : List Char} {c : Char} (first : (trimSpaceChars cs).head? = some c) :
    isSpace c = false := by
  obtain ⟨rest, same⟩ := List.rdropWhile_prefix isSpace (cs.dropWhile isSpace)
  have kept := List.head?_dropWhile_not isSpace cs
  rw [← same, List.head?_append, show ((cs.dropWhile isSpace).rdropWhile isSpace).head? = some c from first]
    at kept
  exact kept

theorem getLast?_trimSpaceChars {cs : List Char} {c : Char} (last : (trimSpaceChars cs).getLast? = some c) :
    isSpace c = false := by
  have kept := List.head?_dropWhile_not isSpace (cs.dropWhile isSpace).reverse
  unfold trimSpaceChars List.rdropWhile at last
  rw [List.getLast?_reverse] at last
  rw [last] at kept
  exact kept

theorem dropWhile_trimSpaceChars (cs : List Char) :
    (trimSpaceChars cs).dropWhile isSpace = trimSpaceChars cs := by
  rw [List.dropWhile_eq_self_iff]
  intro some_
  rw [head?_trimSpaceChars (List.head?_eq_getElem? ▸ List.getElem?_eq_getElem some_)]
  exact Bool.false_ne_true

theorem trimSpaceChars_trimSpaceChars (cs : List Char) :
    trimSpaceChars (trimSpaceChars cs) = trimSpaceChars cs := by
  show ((trimSpaceChars cs).dropWhile isSpace).rdropWhile isSpace = _
  rw [dropWhile_trimSpaceChars]
  exact List.rdropWhile_idempotent isSpace _

theorem trimSpace_trimSpace (s : String) : trimSpace (trimSpace s) = trimSpace s := by
  unfold trimSpace
  rw [String.toList_ofList, trimSpaceChars_trimSpaceChars]

/-- Trimming leaves a part of the text. -/
theorem trimSpaceChars_within (cs : List Char) : trimSpaceChars cs <:+: cs :=
  (List.rdropWhile_prefix isSpace _).isInfix.trans (List.dropWhile_suffix isSpace).isInfix

/-! ### Tags -/

/-- The text has a match of `<[^>]+>`. -/
def HasTag (cs : List Char) : Prop :=
  ∃ before inner after, cs = before ++ '<' :: (inner ++ '>' :: after) ∧ inner ≠ [] ∧ '>' ∉ inner

theorem HasTag.mem {cs : List Char} (tag : HasTag cs) : '>' ∈ cs := by
  obtain ⟨before, inner, after, rfl, _⟩ := tag
  simp

theorem hasTag_cons_of_ne {c : Char} (other : c ≠ '<') (cs : List Char) :
    HasTag (c :: cs) ↔ HasTag cs := by
  constructor
  · rintro ⟨before, inner, after, same, some_, plain⟩
    cases before with
    | nil => exact absurd (List.cons.inj same).1 other
    | cons _ before => exact ⟨before, inner, after, (List.cons.inj same).2, some_, plain⟩
  · rintro ⟨before, inner, after, rfl, some_, plain⟩
    exact ⟨c :: before, inner, after, rfl, some_, plain⟩

/-- Nothing is between these brackets. -/
theorem hasTag_empty_cons (cs : List Char) : HasTag ('<' :: '>' :: cs) ↔ HasTag cs := by
  rw [← hasTag_cons_of_ne (show '>' ≠ '<' by decide) cs]
  constructor
  · rintro ⟨before, inner, after, same, some_, plain⟩
    cases before with
    | nil =>
        obtain ⟨_, same⟩ := List.cons.inj same
        cases inner with
        | nil => exact absurd rfl some_
        | cons c inner => exact absurd ((List.cons.inj same).1 ▸ List.mem_cons_self) plain
    | cons _ before => exact ⟨before, inner, after, (List.cons.inj same).2, some_, plain⟩
  · rintro ⟨before, inner, after, same, some_, plain⟩
    exact ⟨'<' :: before, inner, after, congrArg _ same, some_, plain⟩

/-- A text up to its first `>`. -/
theorem split_at_close {cs : List Char} (closes : '>' ∈ cs) :
    ∃ inner after, cs = inner ++ '>' :: after ∧ '>' ∉ inner := by
  obtain ⟨inner, after, same, fresh⟩ := List.eq_append_cons_of_mem closes
  exact ⟨inner, after, same, fresh⟩

/-- A tag that is never closed is written out. -/
theorem stripTags_unclosed {cs : List Char} (open_ : '>' ∉ cs) (pending : List Char) :
    stripTags (some pending) cs = pending.reverse ++ cs := by
  induction cs generalizing pending with
  | nil => simp [stripTags]
  | cons c cs ih =>
      obtain ⟨other, open_⟩ := not_or.mp (mt List.mem_cons.mpr open_)
      rw [stripTags, if_neg (Ne.symm other), ih open_]
      simp

/-- A possible tag at its first `>`. -/
theorem stripTags_closed {inner : List Char} (plain : '>' ∉ inner) (pending after : List Char) :
    stripTags (some pending) (inner ++ '>' :: after) =
      if inner.reverse ++ pending = ['<'] then '<' :: '>' :: stripTags none after
      else stripTags none after := by
  induction inner generalizing pending with
  | nil =>
      rw [List.nil_append, stripTags, if_pos rfl]
      rfl
  | cons c inner ih =>
      obtain ⟨other, plain⟩ := not_or.mp (mt List.mem_cons.mpr plain)
      rw [List.cons_append, stripTags, if_neg (Ne.symm other), ih plain]
      simp

/-- A `<` with its first `>`. -/
theorem stripTags_open {inner : List Char} (plain : '>' ∉ inner) (after : List Char) :
    stripTags none ('<' :: (inner ++ '>' :: after)) =
      if inner = [] then '<' :: '>' :: stripTags none after else stripTags none after := by
  rw [stripTags, if_pos rfl, stripTags_closed plain]
  cases inner with
  | nil => rfl
  | cons c inner =>
      have longer : (c :: inner).reverse ++ ['<'] ≠ ['<'] := fun same => by
        simpa using congrArg List.length same
      rw [if_neg longer, if_neg (List.cons_ne_nil _ _)]

theorem stripTags_other {c : Char} (other : c ≠ '<') (cs : List Char) :
    stripTags none (c :: cs) = c :: stripTags none cs := by
  rw [stripTags, if_neg other]

/-- **What is left has no tag.** -/
theorem stripTags_tagFree (cs : List Char) : ¬ HasTag (stripTags none cs) := by
  induction size : cs.length using Nat.strong_induction_on generalizing cs with
  | _ n ih =>
  subst size
  cases cs with
  | nil => exact fun tag => nomatch tag.mem
  | cons c cs =>
      by_cases opens : c = '<'
      · subst opens
        by_cases closes : '>' ∈ cs
        · obtain ⟨inner, after, rfl, plain⟩ := split_at_close closes
          have shorter : ¬ HasTag (stripTags none after) := ih _ (by simp; omega) _ rfl
          rw [stripTags_open plain]
          split
          · rwa [hasTag_empty_cons]
          · exact shorter
        · rw [stripTags, if_pos rfl, stripTags_unclosed closes]
          intro tag
          rcases List.mem_cons.mp tag.mem with same | inside
          · exact absurd same (by decide)
          · exact closes inside
      · rw [stripTags_other opens, hasTag_cons_of_ne opens]
        exact ih _ (by simp) _ rfl

theorem stripTags_of_tagFree {cs : List Char} (free : ¬ HasTag cs) : stripTags none cs = cs := by
  induction size : cs.length using Nat.strong_induction_on generalizing cs with
  | _ n ih =>
  subst size
  cases cs with
  | nil => rfl
  | cons c cs =>
      by_cases opens : c = '<'
      · subst opens
        by_cases closes : '>' ∈ cs
        · obtain ⟨inner, after, rfl, plain⟩ := split_at_close closes
          obtain rfl : inner = [] := by
            by_contra some_
            exact free ⟨[], inner, after, rfl, some_, plain⟩
          rw [List.nil_append, hasTag_empty_cons] at free
          have shorter : after.length < ('<' :: ([] ++ '>' :: after)).length := by
            simp only [List.nil_append, List.length_cons]
            omega
          rw [stripTags_open plain, if_pos rfl, ih _ shorter free rfl]
          rfl
        · rw [stripTags, if_pos rfl]
          exact stripTags_unclosed closes _
      · rw [hasTag_cons_of_ne opens] at free
        rw [stripTags_other opens, ih _ (by simp) free rfl]

/-- **A text is kept iff it has no tag.** -/
theorem stripTags_eq_self_iff {cs : List Char} : stripTags none cs = cs ↔ ¬ HasTag cs := by
  constructor
  · intro same
    rw [← same]
    exact stripTags_tagFree cs
  · exact stripTags_of_tagFree

theorem length_stripTags_le (cs : List Char) : (stripTags none cs).length ≤ cs.length := by
  induction size : cs.length using Nat.strong_induction_on generalizing cs with
  | _ n ih =>
  subst size
  cases cs with
  | nil => exact le_rfl
  | cons c cs =>
      by_cases opens : c = '<'
      · subst opens
        by_cases closes : '>' ∈ cs
        · obtain ⟨inner, after, rfl, plain⟩ := split_at_close closes
          have shorter := ih after.length (by simp; omega) after rfl
          rw [stripTags_open plain]
          split
          · simp
            omega
          · simp
            omega
        · rw [stripTags, if_pos rfl, stripTags_unclosed closes]
          simp
      · rw [stripTags_other opens]
        have shorter := ih cs.length (by simp) cs rfl
        simpa using shorter

/-- Only characters of the text are left. -/
theorem stripTags_subset (cs : List Char) : stripTags none cs ⊆ cs := by
  induction size : cs.length using Nat.strong_induction_on generalizing cs with
  | _ n ih =>
  subst size
  cases cs with
  | nil => exact List.Subset.refl _
  | cons c cs =>
      by_cases opens : c = '<'
      · subst opens
        by_cases closes : '>' ∈ cs
        · obtain ⟨inner, after, rfl, plain⟩ := split_at_close closes
          have inside : stripTags none after ⊆ '<' :: (inner ++ '>' :: after) :=
            List.Subset.trans (ih after.length (by simp; omega) after rfl) fun c member =>
              List.mem_cons_of_mem _ (List.mem_append_right _ (List.mem_cons_of_mem _ member))
          rw [stripTags_open plain]
          split
          · exact List.cons_subset.mpr ⟨List.mem_cons_self,
              List.cons_subset.mpr ⟨List.mem_cons_of_mem _ (List.mem_append_right _ List.mem_cons_self),
                inside⟩⟩
          · exact inside
        · rw [stripTags, if_pos rfl, stripTags_unclosed closes]
          exact List.Subset.refl _
      · rw [stripTags_other opens]
        exact List.cons_subset_cons c (ih cs.length (by simp) cs rfl)

/-! ### NUL characters -/

/-- The text has no NUL character. -/
def NoNul (s : String) : Prop := '\x00' ∉ s.toList

instance (s : String) : Decidable (NoNul s) := inferInstanceAs (Decidable (_ ∉ _))

/-- **Without its NUL characters a text is trimmed to one without any.** -/
theorem trimSpace_removeNul_noNul (s : String) : NoNul (trimSpace (removeNul s)) := by
  intro member
  unfold trimSpace removeNul at member
  rw [String.toList_ofList, String.toList_ofList] at member
  obtain ⟨_, kept⟩ := List.mem_filter.mp ((trimSpaceChars_within _).subset member)
  exact absurd kept (by decide)

theorem sanitizeString_noNul (s : String) : NoNul (sanitizeString s) := by
  intro member
  unfold sanitizeString at member
  rw [String.toList_ofList] at member
  exact trimSpace_removeNul_noNul s (stripTags_subset _ member)

/-! ### Both at once -/

/-- A text without NUL characters and without tags. -/
def CleanText (s : String) : Prop := (∀ c ∈ s.toList, c.toNat ≠ 0) ∧ ¬ HasTag s.toList

/-- What `sanitizeString` returns has no tag. -/
theorem sanitizeString_tagFree (s : String) : ¬ HasTag (sanitizeString s).toList := by
  unfold sanitizeString
  rw [String.toList_ofList]
  exact stripTags_tagFree _

theorem HasTag.of_infix {part whole : List Char} (inside : part <:+: whole) (tag : HasTag part) :
    HasTag whole := by
  obtain ⟨front, back, rfl⟩ := inside
  obtain ⟨before, inner, after, rfl, some_, plain⟩ := tag
  exact ⟨front ++ before, inner, after ++ back, by simp, some_, plain⟩

/-- A text without NUL characters and without tags is only trimmed. -/
theorem sanitizeString_of_clean {s : String} (noNul : NoNul s) (free : ¬ HasTag s.toList) :
    sanitizeString s = trimSpace s := by
  have kept : removeNul s = s := by
    unfold removeNul
    rw [List.filter_eq_self.mpr fun c member => bne_iff_ne.mpr fun zero => ?_, String.ofList_toList]
    have same : c = '\x00' := Char.toNat_inj.mp (zero : c.toNat = '\x00'.toNat)
    exact noNul (same ▸ member)
  have trimmed : (trimSpace s).toList = trimSpaceChars s.toList := String.toList_ofList
  unfold sanitizeString
  rw [kept, stripTags_of_tagFree, String.ofList_toList]
  rw [trimmed]
  exact fun tag => free (tag.of_infix (trimSpaceChars_within _))

/-- **`sanitizeString` leaves no tag**, and sanitizing its result again only trims it. -/
theorem sanitizeString_leaves_no_tag (s : String) :
    NoNul (sanitizeString s) ∧ ¬ HasTag (sanitizeString s).toList ∧
      sanitizeString (sanitizeString s) = trimSpace (sanitizeString s) :=
  ⟨sanitizeString_noNul s, sanitizeString_tagFree s,
    sanitizeString_of_clean (sanitizeString_noNul s) (sanitizeString_tagFree s)⟩

/-- What stands around a removed tag is not joined into a new one. -/
example : sanitizeString "<<b>i>x</b> " = "i>x" := by decide

/-- **A trimmed text is kept iff it is clean.** -/
theorem sanitizeString_eq_self_iff {s : String} (trimmed : trimSpace s = s) :
    sanitizeString s = s ↔ CleanText s := by
  have chars : trimSpaceChars s.toList = s.toList := by
    have texts := congrArg String.toList trimmed
    rwa [trimSpace, String.toList_ofList] at texts
  have written : (sanitizeString s).toList =
      stripTags none (trimSpaceChars (s.toList.filter fun c => c.toNat != 0)) := by
    unfold sanitizeString trimSpace removeNul
    rw [String.toList_ofList, String.toList_ofList, String.toList_ofList]
  have plain : (∀ c ∈ s.toList, c.toNat ≠ 0) →
      s.toList.filter (fun c => c.toNat != 0) = s.toList := fun none =>
    List.filter_eq_self.mpr fun c member => bne_iff_ne.mpr (none c member)
  rw [← String.toList_inj, written]
  constructor
  · intro same
    have none : ∀ c ∈ s.toList, c.toNat ≠ 0 := by
      -- a NUL character that is removed makes the text shorter
      have longer := congrArg List.length same
      have stripped := length_stripTags_le (trimSpaceChars (s.toList.filter fun c => c.toNat != 0))
      have short := (trimSpaceChars_within (s.toList.filter fun c => c.toNat != 0)).length_le
      have full := List.length_filter_le (fun c : Char => c.toNat != 0) s.toList
      have all : (s.toList.filter fun c => c.toNat != 0).length = s.toList.length := by omega
      intro c member
      exact bne_iff_ne.mp (List.length_filter_eq_length_iff.mp all c member)
    rw [plain none, chars] at same
    exact ⟨none, stripTags_eq_self_iff.mp same⟩
  · rintro ⟨none, free⟩
    rw [plain none, chars]
    exact stripTags_of_tagFree free

end Wuflow

/-
**Routing by patterns** (`net/http`, `ServeMux`).

A pattern is a list of literals and wildcards; one that ends with a slash matches everything below it. A path is
the list of its decoded segments; a slash at its end leaves a last segment "/", which no wildcard matches.

* `within_iff`, `apart_iff` — which of two patterns is more specific, and whether they share a path, is decided on
  the patterns; `compatible_iff`.
* `find` — the routing tree: a literal first, then a wildcard, then everything below.
* `find_eq_some_iff`, `find_eq_none_iff` — among patterns that are pairwise compatible it finds the most specific
  one that matches.
* `MostSpecific.slash_iff` — when a path with a slash more is just that of a pattern.
* `find_congr` — only the literals of the patterns are told apart; `Pattern.values_fill` — the variables of a path
  that a pattern was filled to.
-/

import Mathlib.Data.List.Basic
import Mathlib.Data.List.Pairwise
import Mathlib.Tactic.Common

namespace Routing

/-- A segment of a pattern: a literal, or a wildcard for the path variable of this name. -/
inductive Segment
  | literal (text : String)
  | wildcard (name : String)
  deriving DecidableEq

/-- A pattern; `subtree` if it ends with a slash. -/
structure Pattern where
  segments : List Segment
  subtree : Bool
  deriving DecidableEq

abbrev Path := List String

/-! ### Matching -/

def Segment.admits : Segment → String → Bool
  | .literal text, s => text == s
  | .wildcard _, s => s != "/"

def Pattern.admits : List Segment → Bool → Path → Bool
  | [], subtree, path => path.isEmpty != subtree
  | _ :: _, _, [] => false
  | segment :: segments, subtree, s :: path => segment.admits s && Pattern.admits segments subtree path

def Pattern.matches (p : Pattern) (path : Path) : Bool := Pattern.admits p.segments p.subtree path

/-- The path variables of a path that matches. -/
def Pattern.values : List Segment → Path → List (String × String)
  | .wildcard name :: segments, s :: path => (name, s) :: Pattern.values segments path
  | .literal _ :: segments, _ :: path => Pattern.values segments path
  | _, _ => []

/-- `PathValue`. -/
def Pattern.pathValue (p : Pattern) (path : Path) (name : String) : String :=
  ((Pattern.values p.segments path).lookup name).getD ""

/-! ### More specific, and apart -/

def Segment.within : Segment → Segment → Bool
  | .literal text, .literal other => text == other
  | .literal text, .wildcard _ => text != "/"
  | .wildcard _, .wildcard _ => true
  | .wildcard _, .literal _ => false

def Segment.apart : Segment → Segment → Bool
  | .literal text, .literal other => text != other
  | .literal text, .wildcard _ | .wildcard _, .literal text => text == "/"
  | .wildcard _, .wildcard _ => false

def Pattern.covers : List Segment → Bool → List Segment → Bool → Bool
  | [], subtree, [], subtree' => subtree == subtree'
  | [], _, _ :: _, _ => false
  | _ :: _, _, [], subtree' => subtree'
  | a :: as, subtree, b :: bs, subtree' => a.within b && Pattern.covers as subtree bs subtree'

/-- Every path of `p` is one of `q`. -/
def Pattern.within (p q : Pattern) : Bool := Pattern.covers p.segments p.subtree q.segments q.subtree

def Pattern.disjoint : List Segment → Bool → List Segment → Bool → Bool
  | [], subtree, [], subtree' => subtree != subtree'
  | [], subtree, _ :: _, _ => !subtree
  | _ :: _, _, [], subtree' => !subtree'
  | a :: as, subtree, b :: bs, subtree' => a.apart b || Pattern.disjoint as subtree bs subtree'

/-- No path is one of both. -/
def Pattern.apart (p q : Pattern) : Bool := Pattern.disjoint p.segments p.subtree q.segments q.subtree

/-- Two patterns that may be registered together. -/
def Pattern.compatible (p q : Pattern) : Bool := p.apart q || (p.within q != q.within p)

namespace Segment

variable {a b : Segment} {text name s : String}

@[simp] theorem admits_literal : (literal text).admits s = true ↔ text = s := beq_iff_eq

@[simp] theorem admits_wildcard : (wildcard name).admits s = true ↔ s ≠ "/" := bne_iff_ne

/-- A text that a segment admits. -/
def sample : Segment → String
  | .literal text => text
  | .wildcard _ => "x"

theorem admits_sample (a : Segment) : a.admits a.sample = true := by
  cases a with
  | literal text => exact admits_literal.mpr rfl
  | wildcard name => exact admits_wildcard.mpr (show "x" ≠ "/" by decide)

theorem within_iff : a.within b = true ↔ ∀ s, a.admits s = true → b.admits s = true := by
  cases a with
  | literal text =>
      have only : (∀ s, (literal text).admits s = true → b.admits s = true) ↔ b.admits text = true := by
        simp only [admits_literal, forall_eq']
      rw [only]
      cases b with
      | literal other => exact beq_iff_eq.trans (eq_comm.trans admits_literal.symm)
      | wildcard name => rfl
  | wildcard name =>
      cases b with
      | wildcard other => exact iff_of_true rfl fun s here => here
      | literal other =>
          refine iff_of_false Bool.false_ne_true fun all => ?_
          have one := admits_literal.mp (all "x" (admits_wildcard.mpr (by decide)))
          have two := admits_literal.mp (all "y" (admits_wildcard.mpr (by decide)))
          exact absurd (one.symm.trans two) (by decide)

theorem apart_iff : a.apart b = true ↔ ∀ s, ¬ (a.admits s = true ∧ b.admits s = true) := by
  cases a with
  | literal text =>
      have only : (∀ s, ¬ ((literal text).admits s = true ∧ b.admits s = true)) ↔ ¬ b.admits text = true := by
        simp only [admits_literal, not_and, forall_eq']
      rw [only]
      cases b with
      | literal other => exact bne_iff_ne.trans (not_congr (eq_comm.trans admits_literal.symm))
      | wildcard name => exact beq_iff_eq.trans (not_not.symm.trans (not_congr admits_wildcard.symm))
  | wildcard name =>
      cases b with
      | literal other =>
          have only : (∀ s, ¬ ((wildcard name).admits s = true ∧ (literal other).admits s = true)) ↔ other = "/" := by
            simp only [admits_literal, admits_wildcard, not_and, ne_eq]
            exact ⟨fun none => by_contra fun some_ => none other some_ rfl, fun slash s some_ same =>
              some_ (same ▸ slash)⟩
          rw [only]
          exact beq_iff_eq
      | wildcard other =>
          refine iff_of_false Bool.false_ne_true fun none => none "x" ?_
          exact ⟨admits_wildcard.mpr (by decide), admits_wildcard.mpr (by decide)⟩

end Segment

namespace Pattern

variable {p q : Pattern} {path : Path} {as bs : List Segment} {sub sub' : Bool}

/-- A path that a pattern matches. -/
def example_ (as : List Segment) (sub : Bool) : Path := as.map Segment.sample ++ if sub then ["/"] else []

theorem admits_example (as : List Segment) (sub : Bool) : admits as sub (example_ as sub) = true := by
  induction as with
  | nil => cases sub <;> rfl
  | cons a as ih =>
      show (a.admits a.sample && admits as sub (example_ as sub)) = true
      rw [a.admits_sample, ih]
      rfl

theorem admits_cons (a : Segment) (as : List Segment) (sub : Bool) (s : String) (path : Path) :
    admits (a :: as) sub (s :: path) = (a.admits s && admits as sub path) := rfl

theorem covers_iff : covers as sub bs sub' = true ↔ ∀ path, admits as sub path = true → admits bs sub' path = true := by
  induction as generalizing bs with
  | nil =>
      cases bs with
      | nil =>
          refine ⟨fun same path here => (beq_iff_eq.mp same) ▸ here, fun all => ?_⟩
          have here := all _ (admits_example [] sub)
          cases sub <;> cases sub' <;> first | rfl | exact absurd here (by decide)
      | cons b bs =>
          refine iff_of_false (by simp [covers]) fun all => ?_
          cases sub with
          | false => exact absurd (all [] rfl) (by simp [admits])
          | true =>
              cases b with
              | literal text =>
                  have here := all [text ++ "x"] rfl
                  rw [admits_cons, Bool.and_eq_true] at here
                  have same : text = text ++ "x" := beq_iff_eq.mp here.1
                  have lengths := congrArg String.length same
                  rw [String.length_append] at lengths
                  exact absurd lengths (by simp)
              | wildcard name =>
                  have here := all ["/"] rfl
                  rw [admits_cons, Bool.and_eq_true] at here
                  exact absurd rfl (Segment.admits_wildcard.mp here.1)
  | cons a as ih =>
      cases bs with
      | nil =>
          refine ⟨fun below path here => ?_, fun all => ?_⟩
          · cases path with
            | nil => exact absurd here (by simp [admits])
            | cons s path =>
                have below : sub' = true := below
                rw [below]
                rfl
          · have here := all _ (admits_example (a :: as) sub)
            cases sub' with
            | true => rfl
            | false => exact absurd here (by simp [example_, admits])
      | cons b bs =>
          show (a.within b && covers as sub bs sub') = true ↔ _
          rw [Bool.and_eq_true, Segment.within_iff, ih]
          refine ⟨fun both path here => ?_, fun all => ⟨fun s here => ?_, fun path here => ?_⟩⟩
          · cases path with
            | nil => exact absurd here (by simp [admits])
            | cons s path =>
                rw [admits_cons, Bool.and_eq_true] at here ⊢
                exact ⟨both.1 s here.1, both.2 path here.2⟩
          · have whole := all (s :: example_ as sub) (by rw [admits_cons, here, admits_example]; rfl)
            rw [admits_cons, Bool.and_eq_true] at whole
            exact whole.1
          · have whole := all (a.sample :: path) (by rw [admits_cons, here, a.admits_sample]; rfl)
            rw [admits_cons, Bool.and_eq_true] at whole
            exact whole.2

/-- **More specific**: fewer paths. -/
theorem within_iff : p.within q = true ↔ ∀ path, p.matches path = true → q.matches path = true := covers_iff

theorem disjoint_iff :
    disjoint as sub bs sub' = true ↔ ∀ path, ¬ (admits as sub path = true ∧ admits bs sub' path = true) := by
  induction as generalizing bs with
  | nil =>
      cases bs with
      | nil =>
          refine ⟨fun differ path both => ?_, fun none => ?_⟩
          · cases path <;> cases sub <;> cases sub' <;> simp_all [admits, disjoint]
          · have here := none _ |> fun out => fun both => out ⟨admits_example [] sub, both⟩
            cases sub <;> cases sub' <;> first | rfl | exact absurd rfl here
      | cons b bs =>
          refine ⟨fun flat path both => ?_, fun none => ?_⟩
          · have flat : sub = false := by simpa [disjoint] using flat
            rw [flat] at both
            cases path with
            | nil => exact absurd both.2 (by simp [admits])
            | cons s path => exact absurd both.1 (by simp [admits])
          · have out : ¬ admits [] sub (example_ (b :: bs) sub') = true := fun here =>
              none _ ⟨here, admits_example (b :: bs) sub'⟩
            cases sub with
            | false => rfl
            | true => exact absurd rfl out
  | cons a as ih =>
      cases bs with
      | nil =>
          refine ⟨fun flat path both => ?_, fun none => ?_⟩
          · have flat : sub' = false := by simpa [disjoint] using flat
            rw [flat] at both
            cases path with
            | nil => exact absurd both.1 (by simp [admits])
            | cons s path => exact absurd both.2 (by simp [admits])
          · have out : ¬ admits [] sub' (example_ (a :: as) sub) = true := fun here =>
              none _ ⟨admits_example (a :: as) sub, here⟩
            cases sub' with
            | false => rfl
            | true => exact absurd rfl out
      | cons b bs =>
          show (a.apart b || disjoint as sub bs sub') = true ↔ _
          rw [Bool.or_eq_true, Segment.apart_iff, ih]
          refine ⟨fun either path both => ?_, fun none => ?_⟩
          · cases path with
            | nil => exact absurd both.1 (by simp [admits])
            | cons s path =>
                rw [admits_cons, admits_cons, Bool.and_eq_true, Bool.and_eq_true] at both
                rcases either with first | rest
                · exact first s ⟨both.1.1, both.2.1⟩
                · exact rest path ⟨both.1.2, both.2.2⟩
          · by_contra neither
            simp only [not_or, not_forall, not_not] at neither
            obtain ⟨⟨s, first⟩, path, rest⟩ := neither
            refine none (s :: path) ?_
            rw [admits_cons, admits_cons, first.1, first.2, rest.1, rest.2]
            exact ⟨rfl, rfl⟩

theorem apart_iff : p.apart q = true ↔ ∀ path, ¬ (p.matches path = true ∧ q.matches path = true) := disjoint_iff

theorem length_eq_of_admits (here : admits as false path = true) : as.length = path.length := by
  induction as generalizing path with
  | nil =>
      cases path with
      | nil => rfl
      | cons s path => exact absurd here Bool.false_ne_true
  | cons a as ih =>
      cases path with
      | nil => exact absurd here Bool.false_ne_true
      | cons s path =>
          rw [admits_cons, Bool.and_eq_true] at here
          exact congrArg Nat.succ (ih here.2)

theorem length_lt_of_admits (here : admits as true path = true) : as.length < path.length := by
  induction as generalizing path with
  | nil =>
      cases path with
      | nil => exact absurd here Bool.false_ne_true
      | cons s path => exact Nat.succ_pos _
  | cons a as ih =>
      cases path with
      | nil => exact absurd here Bool.false_ne_true
      | cons s path =>
          rw [admits_cons, Bool.and_eq_true] at here
          exact Nat.succ_lt_succ (ih here.2)

/-- With a segment more, everything below is what was below and the path itself. -/
theorem admits_snoc {s : String} :
    admits as true (path ++ [s]) = true ↔ admits as true path = true ∨ admits as false path = true := by
  induction as generalizing path with
  | nil => cases path <;> simp [admits]
  | cons a as ih =>
      cases path with
      | nil => cases as <;> simp [admits]
      | cons u path =>
          rw [List.cons_append, admits_cons, admits_cons, admits_cons, Bool.and_eq_true, Bool.and_eq_true,
            Bool.and_eq_true, ih, and_or_left]

/-- The last segment of a path is admitted by some segment of its pattern. -/
theorem admits_last {s : String} (here : admits as false (path ++ [s]) = true) :
    ∃ a ∈ as, a.admits s = true := by
  induction as generalizing path with
  | nil => cases path <;> exact absurd here Bool.false_ne_true
  | cons a as ih =>
      cases path with
      | nil =>
          rw [List.nil_append, admits_cons, Bool.and_eq_true] at here
          exact ⟨a, List.mem_cons_self, here.1⟩
      | cons u path =>
          rw [List.cons_append, admits_cons, Bool.and_eq_true] at here
          obtain ⟨b, inside, admitted⟩ := ih here.2
          exact ⟨b, List.mem_cons_of_mem _ inside, admitted⟩

/-- What ends with a slash is within nothing that does not. -/
theorem covers_flat (as bs : List Segment) : covers as true bs false = false := by
  induction as generalizing bs with
  | nil => cases bs <;> rfl
  | cons a as ih =>
      cases bs with
      | nil => rfl
      | cons b bs =>
          show (a.within b && covers as true bs false) = false
          rw [ih, Bool.and_false]

theorem length_of_covers (inside : covers as sub bs sub' = true) : bs.length ≤ as.length := by
  induction as generalizing bs with
  | nil =>
      cases bs with
      | nil => exact Nat.le_refl _
      | cons b bs => exact absurd inside Bool.false_ne_true
  | cons a as ih =>
      cases bs with
      | nil => exact Nat.zero_le _
      | cons b bs =>
          have inside : (a.within b && covers as sub bs sub') = true := inside
          exact Nat.succ_le_succ (ih ((Bool.and_eq_true _ _).mp inside).2)

/-- **Two patterns may be registered together** if they share no path, or exactly one of them is within the
other. -/
theorem compatible_iff : p.compatible q = true ↔
    (∀ path, ¬ (p.matches path = true ∧ q.matches path = true)) ∨
    ¬ ((∀ path, p.matches path = true → q.matches path = true) ↔
      ∀ path, q.matches path = true → p.matches path = true) := by
  unfold compatible
  rw [Bool.or_eq_true, apart_iff, bne_iff_ne, ne_eq, Bool.eq_iff_iff, within_iff, within_iff]

end Pattern

/-! ### The routing tree -/

section Tree

variable {α : Type} {s : String} {path : Path} {a : α}

abbrev Routes (α : Type) := List (Pattern × α)

/-- What is left of the routes below a literal. -/
def Pattern.atLiteral (s : String) : Pattern × α → Option (Pattern × α)
  | (⟨.literal text :: segments, subtree⟩, a) => if text = s then some (⟨segments, subtree⟩, a) else none
  | _ => none

/-- What is left of the routes below a wildcard. -/
def Pattern.atWildcard : Pattern × α → Option (Pattern × α)
  | (⟨.wildcard _ :: segments, subtree⟩, a) => some (⟨segments, subtree⟩, a)
  | _ => none

/-- A route that ends here. -/
def Pattern.ending (subtree : Bool) : Pattern × α → Option α
  | (⟨[], subtree'⟩, a) => if subtree' = subtree then some a else none
  | _ => none

/-- `matchPath`: the literal of a segment first, then a wildcard, then everything below. -/
def find (routes : Routes α) : Path → Option α
  | [] => routes.findSome? (Pattern.ending false)
  | s :: path =>
      (find (routes.filterMap (Pattern.atLiteral s)) path).or
        ((if s = "/" then none else find (routes.filterMap Pattern.atWildcard) path).or
          (routes.findSome? (Pattern.ending true)))

theorem mem_atLiteral {routes : Routes α} {p : Pattern} :
    (p, a) ∈ routes.filterMap (Pattern.atLiteral s) ↔ (⟨.literal s :: p.segments, p.subtree⟩, a) ∈ routes := by
  rw [List.mem_filterMap]
  constructor
  · rintro ⟨⟨⟨segments, subtree⟩, b⟩, member, left⟩
    unfold Pattern.atLiteral at left
    split at left
    · rename_i same
      split at left
      · cases same
        cases left
        subst_vars
        exact member
      · cases left
    · cases left
  · exact fun member => ⟨_, member, if_pos rfl⟩

theorem mem_atWildcard {routes : Routes α} {p : Pattern} :
    (p, a) ∈ routes.filterMap Pattern.atWildcard ↔
      ∃ name, (⟨.wildcard name :: p.segments, p.subtree⟩, a) ∈ routes := by
  rw [List.mem_filterMap]
  constructor
  · rintro ⟨⟨⟨segments, subtree⟩, b⟩, member, left⟩
    unfold Pattern.atWildcard at left
    split at left
    · rename_i same
      cases same
      cases left
      exact ⟨_, member⟩
    · cases left
  · exact fun ⟨name, member⟩ => ⟨_, member, rfl⟩

theorem ending_eq_some {subtree : Bool} {route : Pattern × α} :
    Pattern.ending subtree route = some a ↔ route = (⟨[], subtree⟩, a) := by
  constructor
  · intro ends
    unfold Pattern.ending at ends
    split at ends
    · split at ends
      · cases ends
        subst_vars
        rfl
      · cases ends
    · cases ends
  · rintro rfl
    exact if_pos rfl

/-- **Nothing is found exactly where no pattern matches.** -/
theorem find_eq_none_iff {routes : Routes α} :
    find routes path = none ↔ ∀ p a, (p, a) ∈ routes → p.matches path = false := by
  induction path generalizing routes with
  | nil =>
      unfold find
      rw [List.findSome?_eq_none_iff]
      constructor
      · intro none p a member
        obtain ⟨segments, subtree⟩ := p
        cases segments with
        | cons => rfl
        | nil =>
            cases subtree with
            | true => rfl
            | false => exact absurd (none _ member) (by rw [ending_eq_some.mpr rfl]; exact Option.some_ne_none a)
      · rintro none ⟨p, a⟩ member
        cases ends : Pattern.ending false (p, a) with
        | none => rfl
        | some b =>
            cases ending_eq_some.mp ends
            exact absurd (none _ _ member) (by decide)
  | cons s path ih =>
      unfold find
      rw [Option.or_eq_none_iff, Option.or_eq_none_iff, ih, List.findSome?_eq_none_iff]
      have wild : (if s = "/" then none else find (routes.filterMap Pattern.atWildcard) path) = none ↔
          (s ≠ "/" → ∀ p a, (p, a) ∈ routes.filterMap Pattern.atWildcard → p.matches path = false) := by
        by_cases slash : s = "/"
        · rw [if_pos slash]
          exact iff_of_true rfl fun some_ => absurd slash some_
        · rw [if_neg slash, ih]
          exact ⟨fun all _ => all, fun all => all slash⟩
      rw [wild]
      constructor
      · rintro ⟨literal, wildcard, below⟩ ⟨segments, subtree⟩ a member
        cases segments with
        | nil =>
            cases subtree with
            | false => rfl
            | true => exact absurd (below _ member) (by rw [ending_eq_some.mpr rfl]; exact Option.some_ne_none a)
        | cons segment segments =>
            show (segment.admits s && Pattern.admits segments subtree path) = false
            rw [Bool.and_eq_false_imp]
            intro admitted
            cases segment with
            | literal text =>
                cases Segment.admits_literal.mp admitted
                exact literal ⟨segments, subtree⟩ a (mem_atLiteral.mpr member)
            | wildcard name =>
                have some_ := Segment.admits_wildcard.mp admitted
                exact wildcard some_ ⟨segments, subtree⟩ a (mem_atWildcard.mpr ⟨name, member⟩)
      · intro none
        refine ⟨fun p a member => ?_, fun some_ p a member => ?_, ?_⟩
        · have out : (Segment.admits (.literal s) s && p.matches path) = false :=
            none _ _ (mem_atLiteral.mp member)
          rwa [Segment.admits_literal.mpr rfl, Bool.true_and] at out
        · obtain ⟨name, member⟩ := mem_atWildcard.mp member
          have out : (Segment.admits (.wildcard name) s && p.matches path) = false := none _ _ member
          rwa [Segment.admits_wildcard.mpr some_, Bool.true_and] at out
        · rintro ⟨p, a⟩ member
          cases ends : Pattern.ending true (p, a) with
          | none => rfl
          | some b =>
              cases ending_eq_some.mp ends
              exact absurd (none _ _ member) (by simp [Pattern.matches, Pattern.admits])

/-! ### The most specific pattern -/

theorem Pattern.compatible_comm (p q : Pattern) : p.compatible q = q.compatible p := by
  rw [Bool.eq_iff_iff, compatible_iff, compatible_iff]
  refine or_congr ?_ (not_congr iff_comm)
  exact forall_congr' fun path => not_congr and_comm

/-- **Routes that may be registered together.** -/
def Registrable (routes : Routes α) : Prop := routes.Pairwise fun r r' => r.1.compatible r'.1 = true

instance decidableRegistrable (routes : Routes α) : Decidable (Registrable routes) :=
  inferInstanceAs (Decidable (List.Pairwise _ _))

/-- `p` is within every pattern that matches the path. -/
def MostSpecific (routes : Routes α) (path : Path) (p : Pattern) : Prop :=
  ∀ q b, (q, b) ∈ routes → q.matches path = true → p.within q = true

section Registrable

variable {routes routes' : Routes α} {p q : Pattern} {b : α}

/-- Of two routes that match a path one is more specific. -/
theorem Registrable.comparable (ok : Registrable routes) (first : (p, a) ∈ routes) (second : (q, b) ∈ routes)
    (here : p.matches path = true) (there : q.matches path = true) :
    (p, a) = (q, b) ∨ p.within q ≠ q.within p := by
  by_cases same : (p, a) = (q, b)
  · exact .inl same
  · refine .inr ?_
    have symmetric : Std.Symm fun r r' : Pattern × α => r.1.compatible r'.1 = true :=
      ⟨fun r r' both => (r.1.compatible_comm r'.1) ▸ both⟩
    have both : p.compatible q = true := List.Pairwise.forall ok first second same
    unfold Pattern.compatible at both
    rw [Bool.or_eq_true, bne_iff_ne] at both
    rcases both with none | differ
    · exact absurd ⟨here, there⟩ (Pattern.apart_iff.mp none path)
    · exact differ

theorem Registrable.atLiteral (ok : Registrable routes) (s : String) :
    Registrable (routes.filterMap (Pattern.atLiteral s)) := by
  refine List.pairwise_filterMap.mpr (List.Pairwise.imp ?_ ok)
  rintro ⟨⟨as, sub⟩, a⟩ ⟨⟨bs, sub'⟩, b⟩ both ⟨p, a'⟩ first ⟨q, b'⟩ second
  have left := mem_atLiteral.mp (List.mem_filterMap.mpr ⟨_, List.mem_singleton_self _, first⟩)
  have left' := mem_atLiteral.mp (List.mem_filterMap.mpr ⟨_, List.mem_singleton_self _, second⟩)
  cases List.mem_singleton.mp left
  cases List.mem_singleton.mp left'
  unfold Pattern.compatible Pattern.apart Pattern.within at both ⊢
  simpa [Pattern.disjoint, Pattern.covers, Segment.apart, Segment.within] using both

theorem Registrable.atWildcard (ok : Registrable routes) : Registrable (routes.filterMap Pattern.atWildcard) := by
  refine List.pairwise_filterMap.mpr (List.Pairwise.imp ?_ ok)
  rintro ⟨⟨as, sub⟩, a⟩ ⟨⟨bs, sub'⟩, b⟩ both ⟨p, a'⟩ first ⟨q, b'⟩ second
  obtain ⟨name, left⟩ := mem_atWildcard.mp (List.mem_filterMap.mpr ⟨_, List.mem_singleton_self _, first⟩)
  obtain ⟨name', left'⟩ := mem_atWildcard.mp (List.mem_filterMap.mpr ⟨_, List.mem_singleton_self _, second⟩)
  cases List.mem_singleton.mp left
  cases List.mem_singleton.mp left'
  unfold Pattern.compatible Pattern.apart Pattern.within at both ⊢
  simpa [Pattern.disjoint, Pattern.covers, Segment.apart, Segment.within] using both

theorem within_nil {p : Pattern} (matches_ : p.matches [] = true) : p = ⟨[], false⟩ := by
  obtain ⟨segments, subtree⟩ := p
  cases segments with
  | cons => exact absurd matches_ Bool.false_ne_true
  | nil =>
      cases subtree with
      | true => exact absurd matches_ Bool.false_ne_true
      | false => rfl

/-- What is found matches, and is most specific. -/
theorem Registrable.found (ok : Registrable routes) (found : find routes path = some a) :
    ∃ p, (p, a) ∈ routes ∧ p.matches path = true ∧ MostSpecific routes path p := by
  induction path generalizing routes with
  | nil =>
      unfold find at found
      obtain ⟨route, member, ends⟩ := List.exists_of_findSome?_eq_some found
      cases ending_eq_some.mp ends
      refine ⟨_, member, rfl, fun q b _ here => ?_⟩
      rw [within_nil here]
      rfl
  | cons s path ih =>
      unfold find at found
      rcases Option.or_eq_some_iff.mp found with literal | ⟨noLiteral, found⟩
      · obtain ⟨p, member, here, most⟩ := ih (ok.atLiteral s) literal
        have member := mem_atLiteral.mp member
        have whole : (⟨.literal s :: p.segments, p.subtree⟩ : Pattern).matches (s :: path) = true := by
          show (Segment.admits (.literal s) s && p.matches path) = true
          rw [Segment.admits_literal.mpr rfl, here]
          rfl
        refine ⟨_, member, whole, fun q b among there => ?_⟩
        obtain ⟨segments, subtree⟩ := q
        cases segments with
        | nil =>
            cases subtree with
            | true => rfl
            | false => exact absurd there Bool.false_ne_true
        | cons segment segments =>
            cases segment with
            | literal text =>
                have there' : (Segment.admits (.literal text) s && Pattern.admits segments subtree path) = true := there
                rw [Bool.and_eq_true, Segment.admits_literal] at there'
                obtain ⟨rfl, rest⟩ := there'
                have inside := most ⟨segments, subtree⟩ b (mem_atLiteral.mpr among) rest
                show (Segment.within (.literal text) (.literal text) &&
                  Pattern.covers p.segments p.subtree segments subtree) = true
                rw [Segment.within_iff.mpr fun _ here => here, Bool.true_and]
                exact inside
            | wildcard name =>
                -- a literal and a wildcard that share a path: the wildcard is not within the literal
                rcases ok.comparable member among whole there with same | differ
                · cases same
                · have out : Pattern.within ⟨.wildcard name :: segments, subtree⟩
                      ⟨.literal s :: p.segments, p.subtree⟩ = false := rfl
                  rw [out, ne_eq, Bool.not_eq_false] at differ
                  exact differ
      · have noLiteral := find_eq_none_iff.mp noLiteral
        rcases Option.or_eq_some_iff.mp found with wildcard | ⟨noWildcard, below⟩
        · by_cases slash : s = "/"
          · rw [if_pos slash] at wildcard
            cases wildcard
          · rw [if_neg slash] at wildcard
            obtain ⟨p, member, here, most⟩ := ih ok.atWildcard wildcard
            obtain ⟨name, member⟩ := mem_atWildcard.mp member
            refine ⟨_, member, ?_, fun q b among there => ?_⟩
            · show (Segment.admits (.wildcard name) s && p.matches path) = true
              rw [Segment.admits_wildcard.mpr slash, here]
              rfl
            · obtain ⟨segments, subtree⟩ := q
              cases segments with
              | nil =>
                  cases subtree with
                  | true => rfl
                  | false => exact absurd there Bool.false_ne_true
              | cons segment segments =>
                  have there' : (segment.admits s && Pattern.admits segments subtree path) = true := there
                  rw [Bool.and_eq_true] at there'
                  cases segment with
                  | literal text =>
                      cases Segment.admits_literal.mp there'.1
                      have out := noLiteral ⟨segments, subtree⟩ b (mem_atLiteral.mpr among)
                      exact absurd (out.symm.trans there'.2) Bool.false_ne_true
                  | wildcard other =>
                      exact most ⟨segments, subtree⟩ b (mem_atWildcard.mpr ⟨other, among⟩) there'.2
        · obtain ⟨route, member, ends⟩ := List.exists_of_findSome?_eq_some below
          cases ending_eq_some.mp ends
          refine ⟨_, member, rfl, fun q b among there => ?_⟩
          obtain ⟨segments, subtree⟩ := q
          cases segments with
          | nil =>
              cases subtree with
              | true => rfl
              | false => exact absurd there Bool.false_ne_true
          | cons segment segments =>
              have there' : (segment.admits s && Pattern.admits segments subtree path) = true := there
              rw [Bool.and_eq_true] at there'
              exfalso
              cases segment with
              | literal text =>
                  cases Segment.admits_literal.mp there'.1
                  have out := noLiteral ⟨segments, subtree⟩ b (mem_atLiteral.mpr among)
                  exact absurd (out.symm.trans there'.2) Bool.false_ne_true
              | wildcard name =>
                  rw [if_neg (Segment.admits_wildcard.mp there'.1)] at noWildcard
                  have out := find_eq_none_iff.mp noWildcard ⟨segments, subtree⟩ b (mem_atWildcard.mpr ⟨name, among⟩)
                  exact absurd (out.symm.trans there'.2) Bool.false_ne_true

/-- **The routing tree finds the most specific pattern.** -/
theorem find_eq_some_iff (ok : Registrable routes) :
    find routes path = some a ↔ ∃ p, (p, a) ∈ routes ∧ p.matches path = true ∧ MostSpecific routes path p := by
  refine ⟨ok.found, fun ⟨p, member, here, most⟩ => ?_⟩
  cases found : find routes path with
  | none => exact absurd ((find_eq_none_iff.mp found p a member).symm.trans here) Bool.false_ne_true
  | some b =>
      obtain ⟨q, among, there, most'⟩ := ok.found found
      rcases ok.comparable member among here there with same | differ
      · cases same
        rfl
      · exact absurd ((most q b among there).trans (most' p a member here).symm) differ

end Registrable

/-! ### A slash at the end -/

section Slash

variable {routes : Routes α} {p : Pattern}

/-- The most specific pattern ends with a slash only if every one that matches does. -/
theorem MostSpecific.subtree_iff (most : MostSpecific routes path p) (member : (p, a) ∈ routes)
    (here : p.matches path = true) :
    p.subtree = true ↔ ∀ q b, (q, b) ∈ routes → q.matches path = true → q.subtree = true := by
  refine ⟨fun subtree q b among there => ?_, fun all => all p a member here⟩
  by_contra flat
  have inside : Pattern.covers p.segments p.subtree q.segments q.subtree = true := most q b among there
  rw [subtree, Bool.not_eq_true _ |>.mp flat, Pattern.covers_flat] at inside
  exact Bool.false_ne_true inside

/-- **With a slash more, the most specific pattern is one for just this path** exactly if the path without it is
that of a pattern that ends with a slash. -/
theorem MostSpecific.slash_iff (literals : ∀ r ∈ routes, Segment.literal "/" ∉ r.1.segments)
    (most : MostSpecific routes (path ++ ["/"]) p) (member : (p, a) ∈ routes)
    (here : p.matches (path ++ ["/"]) = true) :
    (p.subtree = false ∨ p.segments.length = path.length) ↔
      ∃ q b, (q, b) ∈ routes ∧ q.subtree = true ∧ Pattern.admits q.segments false path = true := by
  constructor
  · intro exact_
    cases subtree : p.subtree with
    | false =>
        have whole : Pattern.admits p.segments false (path ++ ["/"]) = true := subtree ▸ here
        obtain ⟨segment, inside, slash⟩ := Pattern.admits_last whole
        cases segment with
        | literal text => exact absurd (Segment.admits_literal.mp slash ▸ inside) (literals _ member)
        | wildcard name => exact absurd rfl (Segment.admits_wildcard.mp slash)
    | true =>
        have length := exact_.resolve_left (by rw [subtree]; decide)
        have whole : Pattern.admits p.segments true (path ++ ["/"]) = true := subtree ▸ here
        rcases Pattern.admits_snoc.mp whole with below | flat
        · have shorter := Pattern.length_lt_of_admits below
          omega
        · exact ⟨p, a, member, subtree, flat⟩
  · rintro ⟨q, b, among, subtree', flat⟩
    have there : q.matches (path ++ ["/"]) = true := by
      show Pattern.admits q.segments q.subtree (path ++ ["/"]) = true
      rw [subtree']
      exact Pattern.admits_snoc.mpr (.inr flat)
    cases subtree : p.subtree with
    | false => exact .inl rfl
    | true =>
        -- it is within `q`, which has as many segments as the path
        have longer := Pattern.length_of_covers (most q b among there)
        have length := Pattern.length_eq_of_admits flat
        have whole : Pattern.admits p.segments true (path ++ ["/"]) = true := subtree ▸ here
        have shorter := Pattern.length_lt_of_admits whole
        rw [List.length_append, List.length_singleton] at shorter
        exact .inr (by omega)

end Slash

/-! ### Literals -/

/-- **Only the literals of the patterns are told apart.** -/
theorem find_congr {routes : Routes α} {f : String → String} (slash : ∀ s, f s = "/" ↔ s = "/")
    (literals : ∀ r ∈ routes, ∀ text, .literal text ∈ r.1.segments → ∀ s, text = f s ↔ text = s) (path : Path) :
    find routes (path.map f) = find routes path := by
  induction path generalizing routes with
  | nil => rfl
  | cons s path ih =>
      have same : routes.filterMap (Pattern.atLiteral (f s)) = routes.filterMap (Pattern.atLiteral s) := by
        refine List.filterMap_congr fun r member => ?_
        obtain ⟨⟨segments, subtree⟩, a⟩ := r
        cases segments with
        | nil => rfl
        | cons segment segments =>
            cases segment with
            | wildcard name => rfl
            | literal text =>
                have told := literals _ member text List.mem_cons_self s
                unfold Pattern.atLiteral
                simp only [told]
      have below : ∀ r ∈ routes.filterMap (Pattern.atLiteral s), ∀ text, .literal text ∈ r.1.segments →
          ∀ u, text = f u ↔ text = u := fun r member text inside =>
        literals _ (mem_atLiteral.mp (show (r.1, r.2) ∈ _ from member)) text (List.mem_cons_of_mem _ inside)
      have wild : ∀ r ∈ routes.filterMap Pattern.atWildcard, ∀ text, .literal text ∈ r.1.segments →
          ∀ u, text = f u ↔ text = u := fun r member text inside => by
        obtain ⟨name, member⟩ := mem_atWildcard.mp (show (r.1, r.2) ∈ _ from member)
        exact literals _ member text (List.mem_cons_of_mem _ inside)
      rw [List.map_cons]
      unfold find
      rw [same, ih below, ih wild]
      simp only [slash]

end Tree

/-! ### The paths of a pattern -/

namespace Pattern

/-- The names of the wildcards. -/
def names : List Segment → List String
  | [] => []
  | .literal _ :: segments => names segments
  | .wildcard name :: segments => name :: names segments

/-- The path with these texts for the wildcards. -/
def fill : List Segment → List String → Path
  | .literal text :: segments, texts => text :: fill segments texts
  | .wildcard _ :: segments, text :: texts => text :: fill segments texts
  | _, _ => []

variable {segments : List Segment} {texts : List String}

theorem mem_fill {s : String} (member : s ∈ fill segments texts) : .literal s ∈ segments ∨ s ∈ texts := by
  induction segments generalizing texts with
  | nil => cases member
  | cons segment segments ih =>
      cases segment with
      | literal text =>
          rcases List.mem_cons.mp member with rfl | member
          · exact .inl List.mem_cons_self
          · exact (ih member).imp_left (List.mem_cons_of_mem _)
      | wildcard name =>
          cases texts with
          | nil => cases member
          | cons text texts =>
              rcases List.mem_cons.mp member with rfl | member
              · exact .inr List.mem_cons_self
              · exact (ih member).imp (List.mem_cons_of_mem _) (List.mem_cons_of_mem _)

/-- **The path variables are what the path was filled with.** -/
theorem values_fill (as_many : texts.length = (names segments).length) :
    values segments (fill segments texts) = (names segments).zip texts := by
  induction segments generalizing texts with
  | nil => rfl
  | cons segment segments ih =>
      cases segment with
      | literal text => exact ih as_many
      | wildcard name =>
          cases texts with
          | nil => cases as_many
          | cons text texts => exact congrArg ((name, text) :: ·) (ih (Nat.succ.inj as_many))

/-- A function that keeps the literals maps what a path is filled with. -/
theorem map_fill {f : String → String} (kept : ∀ text, .literal text ∈ segments → f text = text) :
    (fill segments texts).map f = fill segments (texts.map f) := by
  induction segments generalizing texts with
  | nil => rfl
  | cons segment segments ih =>
      have rest := fun text member => kept text (List.mem_cons_of_mem segment member)
      cases segment with
      | literal text =>
          show f text :: (fill segments texts).map f = text :: fill segments (texts.map f)
          rw [kept text List.mem_cons_self, ih rest]
      | wildcard name =>
          cases texts with
          | nil => rfl
          | cons text texts => exact congrArg (f text :: ·) (ih rest)

end Pattern

end Routing

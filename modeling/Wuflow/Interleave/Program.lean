/-
**Sequential programs that query a shared store, and what they ask.**

A `Prog Answer α` is a finite-path program: it returns a value, or asks one query and continues
with the answer. Nothing is said here about what the queries do; a thread of an interleaved run
(`Interleave.Run`) is such a program.

* `Prog.Asks allowed p` — along every path of `p`, every query is `allowed`.
* `Prog.Obeys rule post past p` — along every path of `p` continued from the local history `past`
  (newest entry first), each query is allowed by `rule` at the history it is asked with, and every
  value returned satisfies `post` at the final history. This is the local half of every proof about
  a run: what a thread has seen before it writes.

Both are closed under `bind` (`Asks.bind`, `Obeys.bind`), so that one lemma for each called program
is enough.
-/

import Mathlib.Data.List.Infix
import Mathlib.Tactic.Common

namespace Interleave

/-- A program over queries with dependent answers. -/
inductive Prog {Query : Type} (Answer : Query → Type) (α : Type) : Type
  | done (value : α) : Prog Answer α
  | ask (query : Query) (next : Answer query → Prog Answer α) : Prog Answer α

/-- One answered query of a local history. -/
abbrev Entry {Query : Type} (Answer : Query → Type) := (query : Query) × Answer query

namespace Prog

variable {Query : Type} {Answer : Query → Type} {α β γ : Type}

/-- Sequencing: the second program starts from the first one's value. -/
def bind : Prog Answer α → (α → Prog Answer β) → Prog Answer β
  | .done value, f => f value
  | .ask query next, f => .ask query fun answer => (next answer).bind f

instance : Monad (Prog Answer) where
  pure := .done
  bind := bind

/-- The program that asks one query and returns its answer. -/
def call (query : Query) : Prog Answer (Answer query) := .ask query .done

@[simp] theorem pure_eq (value : α) : (pure value : Prog Answer α) = .done value := rfl

@[simp] theorem done_bind (value : α) (f : α → Prog Answer β) : (.done value >>= f) = f value := rfl

@[simp] theorem ask_bind (query : Query) (next : Answer query → Prog Answer α)
    (f : α → Prog Answer β) : (.ask query next >>= f) = .ask query fun answer => next answer >>= f :=
  rfl

@[simp] theorem call_bind (query : Query) (f : Answer query → Prog Answer β) :
    (call query >>= f) = .ask query f := rfl

theorem bind_done (p : Prog Answer α) : (p >>= .done) = p := by
  induction p with
  | done value => rfl
  | ask query next ih =>
      show Prog.ask query (fun answer => next answer >>= .done) = .ask query next
      simp only [ih]

theorem bind_assoc (p : Prog Answer α) (f : α → Prog Answer β) (g : β → Prog Answer γ) :
    (p >>= f) >>= g = p >>= fun value => f value >>= g := by
  induction p with
  | done value => rfl
  | ask query next ih =>
      show Prog.ask query (fun answer => (next answer >>= f) >>= g) = _
      simp only [ih]
      rfl

instance : LawfulMonad (Prog Answer) :=
  LawfulMonad.mk' _ bind_done (fun _ _ => rfl) bind_assoc

/-! ### Every query is allowed -/

/-- Along every path, every query is `allowed`. -/
def Asks (allowed : Query → Prop) : Prog Answer α → Prop
  | .done _ => True
  | .ask query next => allowed query ∧ ∀ answer, (next answer).Asks allowed

namespace Asks

variable {allowed : Query → Prop}

@[simp] theorem done (value : α) : (.done value : Prog Answer α).Asks allowed := trivial

@[simp] theorem ask_iff (query : Query) (next : Answer query → Prog Answer α) :
    (Prog.ask query next).Asks allowed ↔ allowed query ∧ ∀ answer, (next answer).Asks allowed :=
  Iff.rfl

theorem call {query : Query} (here : allowed query) :
    (Prog.call query : Prog Answer _).Asks allowed := ⟨here, fun _ => trivial⟩

/-- A sequence asks what its two parts ask. -/
theorem bind {p : Prog Answer α} (first : p.Asks allowed) {f : α → Prog Answer β}
    (rest : ∀ value, (f value).Asks allowed) : (p >>= f).Asks allowed := by
  induction p with
  | done value => exact rest value
  | ask query next ih => exact ⟨first.1, fun answer => ih answer (first.2 answer)⟩

theorem mono {other : Query → Prop} (weaker : ∀ query, allowed query → other query)
    {p : Prog Answer α} (asks : p.Asks allowed) : p.Asks other := by
  induction p with
  | done value => trivial
  | ask query next ih => exact ⟨weaker query asks.1, fun answer => ih answer (asks.2 answer)⟩

end Asks

/-! ### Every query is allowed by the history it is asked with -/

/-- Along every path continued from `past`, each query is allowed by `rule` at its history, and the
value returned satisfies `post` at the final history. -/
def Obeys (rule : List (Entry Answer) → Query → Prop) (post : List (Entry Answer) → α → Prop) :
    List (Entry Answer) → Prog Answer α → Prop
  | past, .done value => post past value
  | past, .ask query next =>
      rule past query ∧ ∀ answer, (next answer).Obeys rule post (⟨query, answer⟩ :: past)

namespace Obeys

variable {rule : List (Entry Answer) → Query → Prop} {post : List (Entry Answer) → α → Prop}
  {past : List (Entry Answer)}

@[simp] theorem done_iff (value : α) :
    (Prog.done value : Prog Answer α).Obeys rule post past ↔ post past value := Iff.rfl

@[simp] theorem ask_iff (query : Query) (next : Answer query → Prog Answer α) :
    (Prog.ask query next).Obeys rule post past ↔
      rule past query ∧ ∀ answer, (next answer).Obeys rule post (⟨query, answer⟩ :: past) :=
  Iff.rfl

/-- **Sequencing.** The second program continues from the history the first one leaves. -/
theorem bind {mid : List (Entry Answer) → α → Prop} {last : List (Entry Answer) → β → Prop}
    {p : Prog Answer α} (first : p.Obeys rule mid past) {f : α → Prog Answer β}
    (rest : ∀ later value, mid later value → (f value).Obeys rule last later) :
    (p >>= f).Obeys rule last past := by
  induction p generalizing past with
  | done value => exact rest past value first
  | ask query next ih => exact ⟨first.1, fun answer => ih answer (first.2 answer)⟩

theorem mono {other : List (Entry Answer) → Query → Prop}
    {last : List (Entry Answer) → α → Prop} {p : Prog Answer α}
    (rules : ∀ past query, rule past query → other past query)
    (posts : ∀ past value, post past value → last past value)
    (obeys : p.Obeys rule post past) : p.Obeys other last past := by
  induction p generalizing past with
  | done value => exact posts past value obeys
  | ask query next ih =>
      exact ⟨rules past query obeys.1, fun answer => ih answer (obeys.2 answer)⟩

/-- A program that asks only queries the rule always allows. -/
theorem of_asks {allowed : Query → Prop} {p : Prog Answer α} (asks : p.Asks allowed)
    (free : ∀ past query, allowed query → rule past query) :
    p.Obeys rule (fun _ _ => True) past := by
  induction p generalizing past with
  | done value => trivial
  | ask query next ih => exact ⟨free past query asks.1, fun answer => ih answer (asks.2 answer)⟩

/-- The same where the rule allows them at every later history. -/
theorem of_asks_from {allowed : Query → Prop} {p : Prog Answer α} (asks : p.Asks allowed)
    (free : ∀ later query, past <:+ later → allowed query → rule later query) :
    p.Obeys rule (fun later _ => past <:+ later) past := by
  suffices general : ∀ later, past <:+ later → p.Obeys rule (fun later _ => past <:+ later) later from
    general past (List.suffix_refl past)
  induction p with
  | done value => exact fun later suffix => suffix
  | ask query next ih =>
      exact fun later suffix => ⟨free later query suffix asks.1, fun answer =>
        ih answer (asks.2 answer) _ (suffix.trans (List.suffix_cons _ _))⟩

/-- Two disciplines at once. -/
theorem and {other : List (Entry Answer) → Query → Prop}
    {last : List (Entry Answer) → α → Prop} {p : Prog Answer α} (first : p.Obeys rule post past)
    (second : p.Obeys other last past) :
    p.Obeys (fun past query => rule past query ∧ other past query)
      (fun past value => post past value ∧ last past value) past := by
  induction p generalizing past with
  | done value => exact ⟨first, second⟩
  | ask query next ih =>
      exact ⟨⟨first.1, second.1⟩, fun answer => ih answer (first.2 answer) (second.2 answer)⟩

/-- A program only adds to the history it starts from. -/
theorem extends_past (p : Prog Answer α) (past : List (Entry Answer)) :
    p.Obeys (fun later _ => past <:+ later) (fun later _ => past <:+ later) past := by
  suffices general : ∀ later, past <:+ later →
      p.Obeys (fun later _ => past <:+ later) (fun later _ => past <:+ later) later from
    general past (List.suffix_refl past)
  induction p with
  | done value => exact fun later suffix => suffix
  | ask query next ih =>
      exact fun later suffix =>
        ⟨suffix, fun answer => ih answer _ (suffix.trans (List.suffix_cons _ _))⟩

/-- The postcondition may also use that the final history extends the first one. -/
theorem with_suffix {p : Prog Answer α} (obeys : p.Obeys rule post past) :
    p.Obeys rule (fun later value => post later value ∧ past <:+ later) past :=
  (obeys.and (extends_past p past)).mono (fun _ _ both => both.1) (fun _ _ both => both)

/-- Along every path of a program that asks only `allowed` queries, the new entries are `allowed`. -/
theorem entries_of_asks {allowed : Query → Prop} {p : Prog Answer α} (asks : p.Asks allowed)
    (past : List (Entry Answer)) :
    p.Obeys (fun _ query => allowed query)
      (fun later _ => ∃ new, later = new ++ past ∧ ∀ entry ∈ new, allowed entry.1) past := by
  suffices general : ∀ new : List (Entry Answer), (∀ entry ∈ new, allowed entry.1) →
      p.Obeys (fun _ query => allowed query)
        (fun later _ => ∃ new, later = new ++ past ∧ ∀ entry ∈ new, allowed entry.1)
        (new ++ past) from general [] (fun _ member => by cases member)
  induction p with
  | done value => exact fun new all => ⟨new, rfl, all⟩
  | ask query next ih =>
      refine fun new all => ⟨asks.1, fun answer => ?_⟩
      refine ih answer (asks.2 answer) (⟨query, answer⟩ :: new) fun entry member => ?_
      rcases List.mem_cons.mp member with rfl | member
      · exact asks.1
      · exact all entry member

end Obeys

end Prog

end Interleave

/-
**Programs that go on alike after answers that are exchanged.**

* `Prog.Related rel same` — two programs ask the same queries, go on alike after any two answers that `rel`
  relates, and end with results that `same` relates.
* `Stopping.Related` — the same for programs that may stop early; they stop with the same error.
* **`Run.exchange`** — a run of programs stays a run of programs related to them when its answers are exchanged
  for related ones, as long as these do the same to the store.
-/

import Wuflow.Interleave.Run
import Wuflow.Interleave.Stopping
import Mathlib.Data.List.Forall2

namespace Interleave

variable {Query : Type} {Answer : Query → Type} {α α' β β' ε : Type}

/-! ### Two programs -/

/-- The two programs cannot be told apart by answers that `rel` relates. -/
inductive Prog.Related (rel : (query : Query) → Answer query → Answer query → Prop) (same : α → α' → Prop) :
    Prog Answer α → Prog Answer α' → Prop
  | done {value : α} {value' : α'} (holds : same value value') : Related rel same (.done value) (.done value')
  | ask (query : Query) {next : Answer query → Prog Answer α} {next' : Answer query → Prog Answer α'}
      (alike : ∀ answer answer', rel query answer answer' → Related rel same (next answer) (next' answer')) :
      Related rel same (.ask query next) (.ask query next')

namespace Prog.Related

variable {rel : (query : Query) → Answer query → Answer query → Prop} {same : α → α' → Prop}

/-- **Sequencing.** -/
theorem bind {last : β → β' → Prop} {p : Prog Answer α} {p' : Prog Answer α'} (first : Related rel same p p')
    {f : α → Prog Answer β} {f' : α' → Prog Answer β'}
    (rest : ∀ value value', same value value' → Related rel last (f value) (f' value')) :
    Related rel last (p >>= f) (p' >>= f') := by
  induction first with
  | done holds => exact rest _ _ holds
  | ask query _ ih => exact .ask query ih

theorem mono {last : α → α' → Prop} (weaker : ∀ value value', same value value' → last value value')
    {p : Prog Answer α} {p' : Prog Answer α'} (related : Related rel same p p') : Related rel last p p' := by
  induction related with
  | done holds => exact .done (weaker _ _ holds)
  | ask query _ ih => exact .ask query ih

/-- A program that asks only queries whose answers are not exchanged. -/
theorem refl {allowed : Query → Prop} (kept : ∀ query, allowed query → ∀ a a', rel query a a' → a = a')
    {p : Prog Answer α} (asks : p.Asks allowed) : Related rel Eq p p := by
  induction p with
  | done value => exact .done rfl
  | ask query next ih =>
      refine .ask query fun answer answer' exchanged => ?_
      obtain rfl := kept query asks.1 answer answer' exchanged
      exact ih answer (asks.2 answer)

/-- Related programs end together. -/
theorem done_iff {p p' : Prog Answer α} (related : Related rel Eq p p') (value : α) :
    p = .done value ↔ p' = .done value := by
  cases related with
  | done holds => rw [holds]
  | ask query _ => exact ⟨nofun, nofun⟩

end Prog.Related

/-! ### Programs that may stop early -/

namespace Stopping

/-- Both have returned, or both have stopped with the same error. -/
def Alike (same : α → α' → Prop) : Except ε α → Except ε α' → Prop
  | .ok value, .ok value' => same value value'
  | .error err, .error err' => err = err'
  | _, _ => False

def Related (rel : (query : Query) → Answer query → Answer query → Prop) (same : α → α' → Prop)
    (p : Stopping ε Answer α) (p' : Stopping ε Answer α') : Prop :=
  Prog.Related rel (Alike same) p.run p'.run

namespace Related

variable {rel : (query : Query) → Answer query → Answer query → Prop} {same : α → α' → Prop}

theorem pure {value : α} {value' : α'} (holds : same value value') :
    Related rel same (Pure.pure value : Stopping ε Answer α) (Pure.pure value') := .done holds

theorem throw (err : ε) :
    Related rel same (MonadExcept.throw err : Stopping ε Answer α) (MonadExcept.throw err) := .done rfl

theorem lift {p : Prog Answer α} {p' : Prog Answer α'} (related : Prog.Related rel same p p') :
    Related rel same (liftM p : Stopping ε Answer α) (liftM p') :=
  Prog.Related.bind related fun _ _ holds => .done holds

/-- **Sequencing.** -/
theorem bind {last : β → β' → Prop} {p : Stopping ε Answer α} {p' : Stopping ε Answer α'}
    (first : Related rel same p p') {f : α → Stopping ε Answer β} {f' : α' → Stopping ε Answer β'}
    (rest : ∀ value value', same value value' → Related rel last (f value) (f' value')) :
    Related rel last (p >>= f) (p' >>= f') := by
  refine Prog.Related.bind first fun result result' alike => ?_
  cases result with
  | ok value =>
      cases result' with
      | ok value' => exact rest value value' alike
      | error err => exact alike.elim
  | error err =>
      cases result' with
      | ok value' => exact alike.elim
      | error err' => exact .done alike

/-- A program that asks only queries whose answers are not exchanged. -/
theorem refl {allowed : Query → Prop} (kept : ∀ query, allowed query → ∀ a a', rel query a a' → a = a')
    {p : Stopping ε Answer α} (asks : Asks allowed p) : Related rel Eq p p := by
  have both : Prog.Related rel Eq p.run p.run := Prog.Related.refl kept asks
  refine Prog.Related.mono (fun result result' equal => ?_) both
  subst equal
  cases result <;> exact rfl

end Related

end Stopping

/-! ### Runs -/

section Runs

variable {ι : Type} [DecidableEq ι] {S : Type}

/-- The same step with another answer. -/
inductive Exchanged (rel : ι → (query : Query) → Answer query → Answer query → Prop) :
    Event ι Answer → Event ι Answer → Prop
  | mk (thread : ι) (query : Query) (answer answer' : Answer query) (exchanged : rel thread query answer answer') :
      Exchanged rel ⟨thread, query, answer⟩ ⟨thread, query, answer'⟩

/-- **A run stays a run when answers are exchanged** for related ones, and what it returns is the same. -/
theorem Run.exchange {rel : ι → (query : Query) → Answer query → Answer query → Prop}
    {sem sem' : (query : Query) → S → Answer query → S → Prop} {start store : S}
    {pool pool' current : ι → Prog Answer α} {past past' : List (Event ι Answer)}
    (matched : ∀ i query s a a' s', rel i query a a' → sem query s a s' → sem' query s a' s')
    (related : ∀ i, Prog.Related (rel i) Eq (pool i) (pool' i)) (run : Run sem start pool past store current)
    (exchanged : List.Forall₂ (Exchanged rel) past past') :
    ∃ current', Run sem' start pool' past' store current' ∧
      ∀ i, Prog.Related (rel i) Eq (current i) (current' i) := by
  induction run generalizing past' with
  | nil =>
      cases exchanged
      exact ⟨pool', .nil, related⟩
  | @step past store store' current thread query next answer before asks here ih =>
      obtain ⟨event', past', head, tail, rfl⟩ := List.forall₂_cons_left_iff.mp exchanged
      obtain ⟨current', run', related'⟩ := ih tail
      cases head with
      | mk _ _ _ answer' swap =>
          have both := related' thread
          rw [asks] at both
          generalize asks' : current' thread = p' at both
          cases both with
          | ask query alike =>
              refine ⟨_, .step thread answer' run' asks' (matched _ _ _ _ _ _ swap here), fun i => ?_⟩
              by_cases same : i = thread
              · subst same
                rw [Function.update_self, Function.update_self]
                exact alike answer answer' swap
              · rw [Function.update_of_ne same, Function.update_of_ne same]
                exact related' i

end Runs

end Interleave

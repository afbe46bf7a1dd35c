/-
**Programs that may stop early.**

`ExceptT ε (Prog Answer)` is a program that may stop with an `ε`. `Prog.Asks` and `Prog.Obeys` carry over:
a sequence asks what its parts ask, and its second part runs only from the histories in which the first
part has returned a value.

* `Stopping.Asks` — every query is `allowed`.
* `Stopping.Obeys rule post stop past` — each query is allowed by `rule` at its history, a returned value
  satisfies `post` and an early stop satisfies `stop` at the final history.
-/

import Wuflow.Interleave.Program

namespace Interleave

variable {Query : Type} {Answer : Query → Type} {ε ε' α β : Type}

/-- A program that may stop early. -/
abbrev Stopping (ε : Type) {Query : Type} (Answer : Query → Type) := ExceptT ε (Prog Answer)

namespace Stopping

/-- Along every path, every query is `allowed`. -/
def Asks (allowed : Query → Prop) (p : Stopping ε Answer α) : Prop := Prog.Asks allowed p.run

namespace Asks

variable {allowed : Query → Prop}

theorem pure (value : α) : Asks allowed (Pure.pure value : Stopping ε Answer α) := trivial

theorem throw (err : ε) : Asks allowed (MonadExcept.throw err : Stopping ε Answer α) := trivial

theorem lift {p : Prog Answer α} (asks : p.Asks allowed) :
    Asks allowed (liftM p : Stopping ε Answer α) := by
  show Prog.Asks allowed (p >>= fun value => (Pure.pure (Except.ok value) : Prog Answer _))
  exact asks.bind fun _ => trivial

theorem mk {p : Prog Answer (Except ε α)} (asks : p.Asks allowed) :
    Asks allowed (ExceptT.mk p) := asks

theorem bind {p : Stopping ε Answer α} (first : Asks allowed p) {f : α → Stopping ε Answer β}
    (rest : ∀ value, Asks allowed (f value)) : Asks allowed (p >>= f) := by
  show Prog.Asks allowed (p.run >>= ExceptT.bindCont f)
  refine Prog.Asks.bind first fun result => ?_
  cases result with
  | ok value => exact rest value
  | error err => trivial

theorem adapt {p : Stopping ε Answer α} (asks : Asks allowed p) (f : ε → ε') :
    Asks allowed (p.adapt f) := by
  show Prog.Asks allowed (p.run >>= fun result => (Pure.pure (Except.mapError f result) : Prog Answer _))
  exact Prog.Asks.bind asks fun _ => trivial

theorem ite {condition : Prop} [Decidable condition] {p q : Stopping ε Answer α}
    (first : Asks allowed p) (second : Asks allowed q) :
    Asks allowed (if condition then p else q) := by
  split
  · exact first
  · exact second

end Asks

/-- Each query obeys `rule` at its history, and the result its condition at the final history. -/
def Obeys (rule : List (Entry Answer) → Query → Prop) (post : List (Entry Answer) → α → Prop)
    (stop : List (Entry Answer) → ε → Prop) (past : List (Entry Answer))
    (p : Stopping ε Answer α) : Prop :=
  p.run.Obeys rule
    (fun later result =>
      match result with
      | .ok value => post later value
      | .error err => stop later err)
    past

namespace Obeys

variable {rule : List (Entry Answer) → Query → Prop} {post : List (Entry Answer) → α → Prop}
  {stop : List (Entry Answer) → ε → Prop} {past : List (Entry Answer)}

theorem pure {value : α} (holds : post past value) :
    Obeys rule post stop past (Pure.pure value : Stopping ε Answer α) := holds

theorem throw {err : ε} (holds : stop past err) :
    Obeys rule post stop past (MonadExcept.throw err : Stopping ε Answer α) := holds

theorem lift {p : Prog Answer α} (obeys : p.Obeys rule post past) :
    Obeys rule post stop past (liftM p : Stopping ε Answer α) := by
  show Prog.Obeys rule _ past (p >>= fun value => (Pure.pure (Except.ok value) : Prog Answer _))
  exact obeys.bind fun later value holds => holds

/-- A single query. -/
theorem query {q : Query} (here : rule past q) {f : Answer q → Except ε α}
    (holds : ∀ answer, match f answer with
      | .ok value => post (⟨q, answer⟩ :: past) value
      | .error err => stop (⟨q, answer⟩ :: past) err) :
    Obeys rule post stop past (ExceptT.mk (f <$> (Prog.call q : Prog Answer _))) :=
  ⟨here, fun answer => holds answer⟩

/-- **Sequencing.** -/
theorem bind {mid : List (Entry Answer) → α → Prop} {last : List (Entry Answer) → β → Prop}
    {p : Stopping ε Answer α} (first : Obeys rule mid stop past p) {f : α → Stopping ε Answer β}
    (rest : ∀ later value, mid later value → Obeys rule last stop later (f value)) :
    Obeys rule last stop past (p >>= f) := by
  show Prog.Obeys rule _ past (p.run >>= ExceptT.bindCont f)
  refine Prog.Obeys.bind first fun later result holds => ?_
  cases result with
  | ok value => exact rest later value holds
  | error err => exact holds

theorem adapt {stop' : List (Entry Answer) → ε' → Prop} {f : ε → ε'} {p : Stopping ε Answer α}
    (obeys : Obeys rule post stop past p) (stops : ∀ later err, stop later err → stop' later (f err)) :
    Obeys rule post stop' past (p.adapt f) := by
  show Prog.Obeys rule _ past
    (p.run >>= fun result => (Pure.pure (Except.mapError f result) : Prog Answer _))
  refine Prog.Obeys.bind obeys fun later result holds => ?_
  cases result with
  | ok value => exact holds
  | error err => exact stops later err holds

theorem mono {post' : List (Entry Answer) → α → Prop} {stop' : List (Entry Answer) → ε → Prop}
    {p : Stopping ε Answer α} (obeys : Obeys rule post stop past p)
    (posts : ∀ later value, post later value → post' later value)
    (stops : ∀ later err, stop later err → stop' later err) : Obeys rule post' stop' past p :=
  Prog.Obeys.mono (fun _ _ here => here)
    (fun later result holds => by
      cases result with
      | ok value => exact posts later value holds
      | error err => exact stops later err holds)
    obeys

/-- The conditions may also use that the final history extends the first one. -/
theorem with_suffix {p : Stopping ε Answer α} (obeys : Obeys rule post stop past p) :
    Obeys rule (fun later value => post later value ∧ past <:+ later)
      (fun later err => stop later err ∧ past <:+ later) past p :=
  Prog.Obeys.mono (fun _ _ here => here)
    (fun later result both => by
      cases result with
      | ok value => exact both
      | error err => exact both)
    (Prog.Obeys.with_suffix obeys)

/-- A program that asks only queries the rule always allows only extends the history. -/
theorem of_asks {allowed : Query → Prop} {p : Stopping ε Answer α} (asks : Asks allowed p)
    (free : ∀ past query, allowed query → rule past query)
    (posts : ∀ later value, past <:+ later → post later value)
    (stops : ∀ later err, past <:+ later → stop later err) : Obeys rule post stop past p :=
  Prog.Obeys.mono (fun _ _ here => here)
    (fun later result both => by
      cases result with
      | ok value => exact posts later value both.2
      | error err => exact stops later err both.2)
    (Prog.Obeys.with_suffix (Prog.Obeys.of_asks asks free))

end Obeys

end Stopping

end Interleave

/-
**A program that runs alone.**

`p.Ensures sem post s` — whenever `p`, started in `s`, comes to its end with nothing in between, its value
and the last state satisfy `post`. It is the weakest such condition on `s`, computed along the program.

* `p.Reaches sem value s' s` — `p` alone, started in `s`, can end with `value` and `s'`; then some run of one
  thread does (`Run.of_reaches`).
* `Ensures.bind`, `Ensures.mono` — sequencing and weakening; `Stopping.Ensures` has both for programs that
  may stop early, with a condition of its own for an early stop.
* `Run.ensures` — a run of one thread alone satisfies what its program ensures.
* `Run.guarded` — a run whose steps all satisfy a condition is a run of a world that takes only such.
* `Run.ensures_own` — in the interleaving with others a thread satisfies what its program ensures about its
  local history (`noting`).
-/

import Wuflow.Interleave.Run
import Wuflow.Interleave.Stopping

namespace Interleave

variable {Query : Type} {Answer : Query → Type} {S α β ε : Type}
  {sem : (query : Query) → S → Answer query → S → Prop}

/-- **Every end of the program, alone from `s`, satisfies `post`.** -/
def Prog.Ensures (sem : (query : Query) → S → Answer query → S → Prop) (post : α → S → Prop) :
    Prog Answer α → S → Prop
  | .done value, s => post value s
  | .ask query next, s => ∀ answer s', sem query s answer s' → (next answer).Ensures sem post s'

namespace Prog.Ensures

variable {post other : α → S → Prop} {s : S}

theorem mono (weaker : ∀ value s, post value s → other value s) {p : Prog Answer α}
    (ensures : p.Ensures sem post s) : p.Ensures sem other s := by
  induction p generalizing s with
  | done value => exact weaker value s ensures
  | ask query next ih => exact fun answer s' here => ih answer (ensures answer s' here)

/-- **Sequencing.** -/
theorem bind {last : β → S → Prop} {p : Prog Answer α} {f : α → Prog Answer β}
    (first : p.Ensures sem (fun value s' => (f value).Ensures sem last s') s) :
    (p >>= f).Ensures sem last s := by
  induction p generalizing s with
  | done value => exact first
  | ask query next ih => exact fun answer s' here => ih answer (first answer s' here)

end Prog.Ensures

/-- **A thread that runs alone to its end satisfies what its program ensures.** -/
theorem Run.ensures {post : α → S → Prop} {start s : S} {p : Prog Answer α}
    {trace : List (Event Unit Answer)} {current : Unit → Prog Answer α} {value : α}
    (ensures : p.Ensures sem post start) (run : Run sem start (fun _ : Unit => p) trace s current)
    (ended : current () = .done value) : post value s := by
  suffices general : (current ()).Ensures sem post s by
    rw [ended] at general
    exact general
  clear ended
  induction run with
  | nil => exact ensures
  | step thread answer _ asks here ih =>
      rw [Function.update_self]
      rw [asks] at ih
      exact ih answer _ here

/-- **The program, alone from `s`, can end** with `value` and `s'`. -/
def Prog.Reaches (sem : (query : Query) → S → Answer query → S → Prop) (value : α) (s' : S) :
    Prog Answer α → S → Prop
  | .done result, s => result = value ∧ s = s'
  | .ask query next, s =>
      ∃ answer mid, sem query s answer mid ∧ (next answer).Reaches sem value s' mid

theorem Prog.Reaches.bind {value : α} {last : β} {s mid s' : S} {p : Prog Answer α}
    {f : α → Prog Answer β} (first : p.Reaches sem value mid s) (rest : (f value).Reaches sem last s' mid) :
    (p >>= f).Reaches sem last s' s := by
  induction p generalizing s with
  | done result =>
      obtain ⟨rfl, rfl⟩ := first
      exact rest
  | ask query next ih =>
      obtain ⟨answer, between, here, later⟩ := first
      exact ⟨answer, between, here, ih answer later⟩

/-- Where every query can be answered, every program can be run to its end. -/
theorem Prog.Reaches.exists_end (answers : ∀ query s, ∃ answer s', sem query s answer s')
    (p : Prog Answer α) (s : S) : ∃ value s', p.Reaches sem value s' s := by
  induction p generalizing s with
  | done value => exact ⟨value, s, rfl, rfl⟩
  | ask query next ih =>
      obtain ⟨answer, mid, here⟩ := answers query s
      obtain ⟨value, s', later⟩ := ih answer mid
      exact ⟨value, s', answer, mid, here, later⟩

/-- **What a program alone can end with, a run of one thread ends with.** -/
theorem Run.of_reaches {start s s' : S} {pool current : Unit → Prog Answer α}
    {trace : List (Event Unit Answer)} {value : α} (run : Run sem start pool trace s current)
    (reaches : (current ()).Reaches sem value s' s) :
    ∃ trace' current', Run sem start pool trace' s' current' ∧ current' () = .done value := by
  generalize held : current () = p at reaches
  induction p generalizing s trace current with
  | done result =>
      obtain ⟨rfl, rfl⟩ := reaches
      exact ⟨trace, current, run, held⟩
  | ask query next ih =>
      obtain ⟨answer, mid, here, later⟩ := reaches
      exact ih answer (.step () answer run held here) (Function.update_self ..) later

/-- **A run whose steps are all guarded.** -/
theorem Run.guarded {ι : Type} [DecidableEq ι] {guard : (query : Query) → S → Answer query → Prop}
    {start s : S} {pool current : ι → Prog Answer α} {trace : List (Event ι Answer)}
    (run : Run sem start pool trace s current)
    (each : ∀ later event earlier before, trace = later ++ event :: earlier →
      Steps sem start earlier before → guard event.query before event.answer) :
    Run (fun query s answer s' => sem query s answer s' ∧ guard query s answer) start pool trace s
      current := by
  induction run with
  | nil => exact .nil
  | @step past before _ _ mover query _ answer earlier asks here ih =>
      have rest : ∀ later event early between, past = later ++ event :: early →
          Steps sem start early between → guard event.query between event.answer :=
        fun later event early between place =>
          each (⟨mover, query, answer⟩ :: later) event early between (congrArg _ place)
      exact .step mover answer (ih rest) asks
        ⟨here, each [] ⟨mover, query, answer⟩ past before rfl earlier.steps⟩

/-- **A run of a world is one of every wilder world.** -/
theorem Run.wilder {ι : Type} [DecidableEq ι]
    {sem' : (query : Query) → S → Answer query → S → Prop}
    (wilder : ∀ query s answer s', sem query s answer s' → sem' query s answer s')
    {start s : S} {pool current : ι → Prog Answer α} {trace : List (Event ι Answer)}
    (run : Run sem start pool trace s current) : Run sem' start pool trace s current := by
  induction run with
  | nil => exact .nil
  | step thread answer _ asks here ih => exact .step thread answer ih asks (wilder _ _ _ _ here)

/-- The world that a thread's local history is: each query adds an entry, and the answer is guarded. -/
def noting (guard : (query : Query) → Answer query → Prop) (query : Query)
    (past : List (Entry Answer)) (answer : Answer query) (past' : List (Entry Answer)) : Prop :=
  past' = ⟨query, answer⟩ :: past ∧ guard query answer

/-- **A thread of any run that has come to its end satisfies, with its local history, what its program
ensures there.** -/
theorem Run.ensures_own {ι : Type} [DecidableEq ι] {guard : (query : Query) → Answer query → Prop}
    {start s : S} {pool current : ι → Prog Answer α} {trace : List (Event ι Answer)} {thread : ι}
    {post : α → List (Entry Answer) → Prop} {value : α}
    (run : Run sem start pool trace s current)
    (each : ∀ event ∈ trace, guard event.query event.answer) (ended : current thread = .done value)
    (ensures : (pool thread).Ensures (noting guard) post []) : post value (own thread trace) := by
  suffices general : (current thread).Ensures (noting guard) post (own thread trace) by
    rw [ended] at general
    exact general
  clear ended
  induction run with
  | nil => exact ensures
  | @step past store store' current mover query next answer before asks here ih =>
      have earlier := ih fun event member => each event (List.mem_cons_of_mem _ member)
      by_cases same : mover = thread
      · subst same
        rw [asks] at earlier
        rw [Function.update_self]
        exact earlier answer _ ⟨own_cons_self (⟨mover, query, answer⟩) past, each _ List.mem_cons_self⟩
      · rw [Function.update_of_ne (Ne.symm same), own_cons_other same]
        exact earlier

namespace Stopping

/-- Every end of the program satisfies `post`, every early stop `stop`. -/
def Ensures (sem : (query : Query) → S → Answer query → S → Prop) (post : α → S → Prop)
    (stop : ε → S → Prop) (p : Stopping ε Answer α) (s : S) : Prop :=
  p.run.Ensures sem
    (fun result s' =>
      match result with
      | .ok value => post value s'
      | .error err => stop err s')
    s

namespace Ensures

variable {post : α → S → Prop} {stop : ε → S → Prop} {s : S}

theorem pure {value : α} (holds : post value s) :
    Ensures sem post stop (Pure.pure value : Stopping ε Answer α) s := holds

theorem throw {err : ε} (holds : stop err s) :
    Ensures sem post stop (MonadExcept.throw err : Stopping ε Answer α) s := holds

theorem lift {p : Prog Answer α} (ensures : p.Ensures sem post s) :
    Ensures sem post stop (liftM p : Stopping ε Answer α) s := by
  show Prog.Ensures sem _ (p >>= fun value => (Pure.pure (Except.ok value) : Prog Answer _)) s
  exact Prog.Ensures.bind ensures

/-- A single query. -/
theorem query {q : Query} {f : Answer q → Except ε α}
    (holds : ∀ answer s', sem q s answer s' → match f answer with
      | .ok value => post value s'
      | .error err => stop err s') :
    Ensures sem post stop (ExceptT.mk (f <$> (Prog.call q : Prog Answer _))) s :=
  fun answer s' here => holds answer s' here

/-- **Sequencing.** -/
theorem bind {last : β → S → Prop} {p : Stopping ε Answer α} {f : α → Stopping ε Answer β}
    (first : Ensures sem (fun value s' => Ensures sem last stop (f value) s') stop p s) :
    Ensures sem last stop (p >>= f) s := by
  show Prog.Ensures sem _ (p.run >>= ExceptT.bindCont f) s
  refine Prog.Ensures.bind (Prog.Ensures.mono (fun result s' holds => ?_) first)
  cases result with
  | ok value => exact holds
  | error err => exact holds

theorem adapt {ε' : Type} {f : ε → ε'} {stop' : ε' → S → Prop} {p : Stopping ε Answer α}
    (ensures : Ensures sem post (fun err => stop' (f err)) p s) : Ensures sem post stop' (p.adapt f) s := by
  show Prog.Ensures sem _
    (p.run >>= fun result => (Pure.pure (Except.mapError f result) : Prog Answer _)) s
  refine Prog.Ensures.bind (Prog.Ensures.mono (fun result s' holds => ?_) ensures)
  cases result with
  | ok value => exact holds
  | error err => exact holds

theorem mono {post' : α → S → Prop} {stop' : ε → S → Prop} {p : Stopping ε Answer α}
    (posts : ∀ value s, post value s → post' value s) (stops : ∀ err s, stop err s → stop' err s)
    (ensures : Ensures sem post stop p s) : Ensures sem post' stop' p s :=
  Prog.Ensures.mono
    (fun result s' holds => by
      cases result with
      | ok value => exact posts value s' holds
      | error err => exact stops err s' holds)
    ensures

end Ensures

/-- The program, alone from `s`, can return or stop with `result`, and leave `s'`. -/
def Reaches (sem : (query : Query) → S → Answer query → S → Prop) (result : Except ε α) (s' : S)
    (p : Stopping ε Answer α) (s : S) : Prop := p.run.Reaches sem result s' s

namespace Reaches

variable {s mid s' : S}

theorem query {q : Query} {f : Answer q → Except ε α} {answer : Answer q} (here : sem q s answer s') :
    Reaches sem (f answer) s' (ExceptT.mk (f <$> (Prog.call q : Prog Answer _))) s :=
  ⟨answer, s', here, rfl, rfl⟩

theorem bind {value : α} {result : Except ε β} {p : Stopping ε Answer α} {f : α → Stopping ε Answer β}
    (first : Reaches sem (.ok value) mid p s) (rest : Reaches sem result s' (f value) mid) :
    Reaches sem result s' (p >>= f) s := by
  show Prog.Reaches sem result s' (p.run >>= ExceptT.bindCont f) s
  exact Prog.Reaches.bind first rest

/-- An early stop of the first part is one of the whole. -/
theorem stop {err : ε} {p : Stopping ε Answer α} {f : α → Stopping ε Answer β}
    (first : Reaches sem (.error err) s' p s) : Reaches sem (.error err) s' (p >>= f) s := by
  show Prog.Reaches sem _ s' (p.run >>= ExceptT.bindCont f) s
  exact Prog.Reaches.bind first ⟨rfl, rfl⟩

end Reaches

end Stopping

end Interleave

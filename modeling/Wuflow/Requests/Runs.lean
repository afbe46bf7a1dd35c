/-
**Runs of the backend.**

`Serves host reqs trace s current` — the requests `reqs` have been served, step by step and in any
order, from a new database; `trace` lists the steps (newest first), `s` is the database reached.

* `perform_cases` — a step is a successful write, or it leaves the database alone.
* `Serves.invariant` — the rule for invariants: each step is taken under the discipline of its request.
* `Serves.evolves` — keys are not reused along a run.
-/

import Wuflow.Requests.Serve
import Wuflow.Store.AccountSteps
import Wuflow.Store.IssueSteps

namespace Wuflow

open Calendar (Instant)
open Interleave (Prog Entry Event Run Steps Config own steps_append_iff steps_cons_iff)
open Relational (Table)

/-- A step of a run of the backend. -/
abbrev Step (ι : Type) := Event ι Query.Answer

/-- **A run of the backend** from a new database. -/
abbrev Serves {ι : Type} [DecidableEq ι] (host : Host) (reqs : ι → Request) (trace : List (Step ι))
    (s : Store) (current : ι → Backend Response) : Prop :=
  Run Query.perform createTables (fun i => serve host (reqs i)) trace s current

/-! ### One step -/

/-- A step is a successful write, or it leaves the database alone. -/
theorem perform_cases {query : Query} {s s' : Store} {answer : query.Answer}
    (here : query.perform s answer s') :
    (∃ w rows, (⟨query, answer⟩ : Entry Query.Answer) = ⟨.write w, .ok rows⟩ ∧
      w.apply s = .ok (rows, s')) ∨
    (s' = s ∧ ∀ w rows, (⟨query, answer⟩ : Entry Query.Answer) ≠ ⟨.write w, .ok rows⟩) := by
  cases query with
  | read q => exact .inr ⟨here.2, fun _ _ same => by cases congrArg Sigma.fst same⟩
  | write w =>
      rcases Write.exec_cases here with ⟨rows, rfl, applied⟩ | ⟨_, rfl, same⟩
      · exact .inl ⟨w, rows, rfl, applied⟩
      · exact .inr ⟨same, fun _ _ same => by cases same⟩
  | randomText | randomSecret => exact .inr ⟨here.2, fun _ _ same => by cases congrArg Sigma.fst same⟩
  | _ => exact .inr ⟨here, fun _ _ same => by cases congrArg Sigma.fst same⟩

theorem perform_evolves {query : Query} {s s' : Store} {answer : query.Answer}
    (here : query.perform s answer s') : s.Evolves s' := by
  rcases perform_cases here with ⟨w, rows, _, applied⟩ | ⟨rfl, _⟩
  · exact Write.evolves applied
  · exact .refl _

/-- The answer determines the database after a step. -/
theorem perform_unique (query : Query) (s : Store) (answer : query.Answer) (first second : Store)
    (here : query.perform s answer first) (here' : query.perform s answer second) : first = second := by
  cases query with
  | read q => exact here.2.trans here'.2.symm
  | write w => exact congrArg Prod.snd (Eq.trans (Eq.symm here) here')
  | randomText | randomSecret => exact here.2.trans here'.2.symm
  | _ => exact Eq.trans here (Eq.symm here')

section Runs

variable {ι : Type}

/-- The steps of `trace` lead from a new database to `s`. -/
abbrev Reaches (trace : List (Step ι)) (s : Store) : Prop := Steps Query.perform createTables trace s

theorem Reaches.unique {trace : List (Step ι)} {s s' : Store} (reaches : Reaches trace s)
    (reaches' : Reaches trace s') : s = s' := Steps.unique perform_unique reaches reaches'

/-- The databases around a step. -/
theorem Reaches.split {later earlier : List (Step ι)} {event : Step ι} {s : Store}
    (reaches : Reaches (later ++ event :: earlier) s) :
    ∃ before after, Reaches earlier before ∧ event.query.perform before event.answer after ∧
      Steps Query.perform after later s := by
  obtain ⟨after, first, rest⟩ := steps_append_iff.mp reaches
  obtain ⟨before, first, here⟩ := steps_cons_iff.mp first
  exact ⟨before, after, first, here, rest⟩

/-- Keys are not reused along a stretch of steps. -/
theorem steps_evolve {s s' : Store} {trace : List (Step ι)} (steps : Steps Query.perform s trace s') :
    s.Evolves s' :=
  steps.relates Store.Evolves .refl (fun _ _ _ => .trans) fun _ _ _ _ here => perform_evolves here

/-! ### One user along a stretch -/

/-- The step is an `UpdateUser` that changed a row, with the user it wrote. -/
def Updates (event : Step ι) (u : User) : Prop :=
  ∃ (removes : Bool) (rows : Int), event.entry = ⟨.write (.updateUser u removes), .ok rows⟩ ∧ rows ≠ 0

theorem Updates.sets {event : Step ι} {u : User} {before after : Store} (updates : Updates event u)
    (here : event.query.perform before event.answer after) :
    ∃ row, before.users.get? u.id = some row ∧
      after.users.get? u.id = some (UserRow.setFrom u row) := by
  obtain ⟨thread, query, answer⟩ := event
  obtain ⟨removes, rows, entry, changed⟩ := updates
  cases entry
  exact updateUser_sets (Write.apply_of_ok here) changed

/-- A step writes the columns of a user, or keeps the account or deletes it. -/
theorem perform_user_cases {event : Step ι} {before after : Store}
    (here : event.query.perform before event.answer after) {id : Int} {row' : UserRow}
    (given : id ≤ before.users.seq) (found : after.users.get? id = some row') :
    ∃ row, before.users.get? id = some row ∧
      ((∃ u, Updates event u ∧ u.id = id) ∨ row.SameAccount row') := by
  obtain ⟨thread, query, answer⟩ := event
  rcases perform_cases here with ⟨w, rows, same, applied⟩ | ⟨rfl, _⟩
  · cases same
    obtain ⟨row, found', cases_⟩ := Write.user_cases applied given found
    refine ⟨row, found', cases_.imp_left ?_⟩
    rintro ⟨u, removes, rfl, own_, changed, _⟩
    exact ⟨u, ⟨removes, rows, rfl, changed⟩, own_⟩
  · exact ⟨row', found, .inr (.refl row')⟩

/-- **Without an update the account of a user stays as it is**, or is deleted. -/
theorem account_kept {stretch : List (Step ι)} {s s' : Store}
    (steps : Steps Query.perform s stretch s') {id : Int} {row' : UserRow} (given : id ≤ s.users.seq)
    (none : ∀ event ∈ stretch, ∀ u, Updates event u → u.id ≠ id)
    (found : s'.users.get? id = some row') :
    ∃ row, s.users.get? id = some row ∧ row.SameAccount row' := by
  induction steps generalizing row' with
  | refl => exact ⟨row', found, .refl row'⟩
  | @step past before after event steps here ih =>
      have given' := le_trans given (steps_evolve steps).users.seq_le
      obtain ⟨middle, found', ⟨u, updates, own_⟩ | same⟩ := perform_user_cases here given' found
      · exact absurd own_ (none event List.mem_cons_self u updates)
      · obtain ⟨row, found, kept⟩ :=
          ih (fun event' member => none event' (List.mem_cons_of_mem _ member)) found'
        exact ⟨row, found, kept.trans same⟩

variable [DecidableEq ι] {host : Host} {reqs : ι → Request} {trace : List (Step ι)} {s : Store}
  {current : ι → Backend Response}

/-- **The rule for invariants.** -/
theorem Serves.invariant (run : Serves host reqs trace s current) (inv : List (Step ι) → Store → Prop)
    (first : inv [] createTables)
    (each : ∀ (event : Step ι) past before after,
      Discipline host (reqs event.thread) (own event.thread past) event.query →
      event.query.perform before event.answer after → inv past before → inv (event :: past) after) :
    inv trace s := by
  refine Run.invariant inv first (fun event past before pool after earlier here asks holds => ?_) run
  obtain ⟨next, asks⟩ := asks
  have obeyed : (pool event.thread).Obeys (Discipline host (reqs event.thread)) (fun _ _ => True)
      (own event.thread past) := earlier.obeys (serve_disciplined host (reqs event.thread))
  rw [asks] at obeyed
  exact each event past before after obeyed.1 here holds

/-- **Every query of a run was asked under the discipline.** -/
theorem Serves.disciplined {later earlier : List (Step ι)} {event : Step ι}
    (run : Serves host reqs (later ++ event :: earlier) s current) :
    Discipline host (reqs event.thread) (own event.thread earlier) event.query := by
  have local_ : (fun i => serve host (reqs i)) event.thread |>.Obeys
      (Discipline host (reqs event.thread)) (fun _ _ => True) [] := serve_disciplined host _
  exact Run.rule_of_event local_ run

/-- **A response satisfies the postcondition of its request.** -/
theorem Serves.post {rule : Past → Query → Prop} {post : Past → Response → Prop} {thread : ι}
    {response : Response} (run : Serves host reqs trace s current)
    (local_ : (serve host (reqs thread)).Obeys rule post [])
    (finished : current thread = .done response) : post (own thread trace) response := by
  have obeyed : (current thread).Obeys rule post (own thread trace) := run.obeys local_
  rw [finished] at obeyed
  exact obeyed

end Runs

/-! ### Scheduled runs -/

section Schedules

variable {ι : Type}

/-- A new database and requests that have not started. -/
def newRun (host : Host) (reqs : ι → Request) : Config ι Query.Answer Store Response :=
  ⟨[], createTables, fun i => serve host (reqs i)⟩

/-- Two or four requests, which the schedules number. -/
instance neZeroTwo : NeZero 2 := ⟨by decide⟩

instance neZeroFour : NeZero 4 := ⟨by decide⟩

/-- `n` steps of one request in a row, with the same input for each. -/
def stepsOf (i : ι) (n : Nat) (input : Input) : List (ι × Input) := List.replicate n (i, input)

variable [DecidableEq ι]

def execute (host : Host) (reqs : ι → Request) (moves : List (ι × Input)) :
    Config ι Query.Answer Store Response := (newRun host reqs).play Query.respond moves

/-- A schedule gives a run. -/
theorem Serves.of_moves (host : Host) (reqs : ι → Request) (moves : List (ι × Input)) :
    Serves host reqs (execute host reqs moves).past (execute host reqs moves).store
      (execute host reqs moves).current :=
  Run.of_schedule Query.perform_respond moves Run.nil

end Schedules

/-! ### A host to run on -/

/-- ASCII only. -/
def lowerASCII (s : String) : String := String.ofList (s.toList.map Char.toLower)

/-- A host on which schedules can be evaluated: a password hash is the password with a prefix, and the
MAC of a secret is the secret as text. -/
def sampleHost : Host where
  toLower := lowerASCII
  equalFold s t := lowerASCII s == lowerASCII t
  checkPassword hash password := hash == "bcrypt:" ++ password
  computeTokenMAC secret := String.ofList (secret.map fun b => Char.ofNat b.toNat)

theorem sampleHost_mac_injective : Function.Injective sampleHost.computeTokenMAC := by
  have faithful : ∀ n : Fin 256, (Char.ofNat n).toNat = n := by decide +kernel
  intro a b same
  have lists := congrArg String.toList same
  simp only [sampleHost, String.toList_ofList] at lists
  refine List.map_injective_iff.mpr ?_ lists
  intro x y chars
  have numbers := congrArg Char.toNat chars
  rw [faithful ⟨x.toNat, x.toNat_lt⟩, faithful ⟨y.toNat, y.toNat_lt⟩] at numbers
  exact UInt8.toNat_inj.mp numbers

/-- The claims of a system administrator, the first user. -/
def sampleAdmin : Caller := ⟨1, "root@example.com", .sysadmin⟩

/-- The request that creates that user. -/
def bootstrap : Request := .ensureInitialAdmin "root@example.com" "correct horse 7!"

/-- Its login. -/
def sampleLogin : Request :=
  .login "192.0.2.1" (.json { email := "root@example.com", password := "correct horse 7!" })

/-- The session token and the secret of a login that draws zeros, and its refresh token. -/
def sampleSessionToken : List UInt8 := List.replicate 26 65

def sampleSecret : List UInt8 := List.replicate 32 0

def sampleToken : List UInt8 := encodeRefreshToken sampleSessionToken sampleSecret

/-- The steps of the two requests. -/
def bootstrapMoves {ι : Type} (i : ι) : List (ι × Input) :=
  stepsOf i 9 { instant := 1, text := some "bcrypt:correct horse 7!" }

def loginMoves {ι : Type} (i : ι) : List (ι × Input) := stepsOf i 12 { instant := 2 }

/-- The steps of a refresh that draws a secret starting with `b`, up to its `UpdateSession`. -/
def refreshMoves {ι : Type} (i : ι) (b : UInt8) : List (ι × Input) :=
  stepsOf i 8 { instant := 3, bytes := [b], flag := true }

theorem sampleToken_valid :
    validateRefreshToken sampleToken = some (sampleSessionToken, sampleSecret) :=
  validate_encodeRefreshToken (by decide) (by decide)

end Wuflow

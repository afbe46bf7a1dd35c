/-
**A failed login does not tell why it failed** (`HandleLogin`).

A login fails for an email without an account, for an inactive account and for a wrong password. It goes through
the same calls of the limiter in all three cases and ends with the same response.

* `login_related` — a login goes on alike after any two answers of the account lookup that refuse it.
* `failed_logins_alike` — in a run of overlapping logins such answers can be exchanged: the limiter goes through
  the same states and every login gets the same response.
-/

import Wuflow.Interleave.Related
import Wuflow.Requests.Throttle

namespace Wuflow

open Interleave (Prog Event Exchanged Run)
open Interleave.Stopping (Asks Related)

/-- There is no account, or it is inactive, or it has another password. -/
def Refuses (host : Host) (body : Body LoginRequest) (answer : Except Err (Option User)) : Prop :=
  ∃ found, answer = .ok found ∧ ∀ user, found = some user → user.active = true →
    ∀ req, Decoded body validateLoginRequest req → host.checkPassword user.passwordHash req.password = false

/-- The answers are equal, or both refuse the login. -/
def Indistinct (host : Host) (login : Login) : (query : Query) → query.Answer → query.Answer → Prop
  | .read (.userByEmail _), a, a' => a = a' ∨ Refuses host login.2 a ∧ Refuses host login.2 a'
  | _, a, a' => a = a'

/-- The query is not the lookup of the account. -/
def Query.NoLookup : Query → Prop
  | .read (.userByEmail _) => False
  | _ => True

section Login

variable {host : Host} {login : Login} {α β : Type}

theorem Indistinct.same {query : Query} (plain : query.NoLookup) {a a' : query.Answer}
    (indistinct : Indistinct host login query a a') : a = a' := by
  unfold Indistinct at indistinct
  split at indistinct
  · exact plain.elim
  · exact indistinct

/-- A part without the lookup. -/
theorem related_plain {p : Handler α} (asks : Asks Query.NoLookup p) {f : α → Handler β}
    (rest : ∀ value, Related (Indistinct host login) Eq (f value) (f value)) :
    Related (Indistinct host login) Eq (p >>= f) (p >>= f) :=
  Related.bind (Related.refl (fun _ plain _ _ => Indistinct.same plain) asks) fun value _ same =>
    same ▸ rest value

/-- The body of the login. -/
theorem related_decode : Related (Indistinct host login)
    (fun req req' => req = req' ∧ Decoded login.2 validateLoginRequest req)
    (decodeAndValidate login.2 validateLoginRequest) (decodeAndValidate login.2 validateLoginRequest) := by
  unfold decodeAndValidate
  cases body : login.2 with
  | malformed => exact Related.throw _
  | empty => exact Related.throw _
  | json sent =>
      cases valid : validateLoginRequest sent with
      | error message =>
          simp only [valid]
          exact Related.throw _
      | ok req =>
          simp only [valid]
          exact Related.pure ⟨rfl, sent, rfl, valid⟩

/-- The lookup of the account. -/
theorem related_lookup (email : String) : Related (Indistinct host login)
    (fun found found' => found = found' ∨ Refuses host login.2 (.ok found) ∧ Refuses host login.2 (.ok found'))
    (orInternal (select (.userByEmail email))) (orInternal (select (.userByEmail email))) := by
  refine Prog.Related.ask (Query.read (.userByEmail email)) fun answer answer' indistinct => ?_
  rcases indistinct with rfl | ⟨⟨found, rfl, refuses⟩, found', rfl, refuses'⟩
  · cases answer with
    | ok found => exact .done (.inl rfl)
    | error err => exact .done rfl
  · exact .done (.inr ⟨⟨found, rfl, refuses⟩, found', rfl, refuses'⟩)

theorem Query.Opening.noLookup {query : Query} (opening : query.Opening) : query.NoLookup := by
  cases query with
  | read => exact opening.elim
  | _ => trivial

/-- The account has not been found, is inactive or has another password. -/
theorem Refuses.rejected {req : LoginRequest} {user : User} (refuses : Refuses host login.2 (.ok (some user)))
    (decoded : Decoded login.2 validateLoginRequest req) :
    user.active = false ∨ host.checkPassword user.passwordHash req.password = false := by
  obtain ⟨found, same, refuses⟩ := refuses
  cases same
  cases active : user.active with
  | false => exact .inl rfl
  | true => exact .inr (refuses user rfl active req decoded)

/-- **A login goes on alike** after any two answers that refuse it. -/
theorem login_related (host : Host) (login : Login) :
    Related (Indistinct host login) Eq (handleLogin host login.1 login.2) (handleLogin host login.1 login.2) := by
  have kept : ∀ query : Query, query.NoLookup → ∀ a a', Indistinct host login query a a' → a = a' :=
    fun _ plain _ _ => Indistinct.same plain
  refine related_plain (Asks.lift (ask_asks (by exact trivial))) fun blocked => ?_
  refine related_plain (ensure_asks _ _) fun _ => ?_
  refine Related.bind related_decode ?_
  rintro req _ ⟨rfl, decoded⟩
  refine related_plain (Asks.lift (ask_asks (by exact trivial))) fun refused => ?_
  refine related_plain (ensure_asks _ _) fun _ => ?_
  have fails : Asks Query.NoLookup (do
      ask (.recordFailure login.1 req.email)
      throw invalidCredentials : Handler Response) :=
    Asks.bind (Asks.lift (ask_asks (by exact trivial))) fun _ => Asks.throw _
  refine Related.bind (related_lookup req.email) fun found found' alike => ?_
  rcases alike with rfl | ⟨refuses, refuses'⟩
  · refine Related.refl kept ?_
    cases found with
    | none => exact fails
    | some user =>
        refine Asks.ite fails (Prog.Asks.mono (fun _ opening => Query.Opening.noLookup opening) ?_)
        refine Asks.bind (Asks.lift (createUserSession_opening host user)) fun made => ?_
        cases made with
        | none => exact Asks.throw _
        | some made =>
            refine Asks.bind (Asks.lift (ask_asks (by exact trivial))) fun _ => ?_
            exact Asks.bind (Asks.lift (updateUserLastLogin_opening _)) fun _ => Asks.pure _
  · -- whatever was found, the failure is counted and the response is the same
    have both := Related.refl kept fails
    cases found with
    | none =>
        cases found' with
        | none => exact both
        | some user' =>
            dsimp only
            rw [if_pos (refuses'.rejected decoded)]
            exact both
    | some user =>
        dsimp only
        rw [if_pos (refuses.rejected decoded)]
        cases found' with
        | none => exact both
        | some user' =>
            dsimp only
            rw [if_pos (refuses'.rejected decoded)]
            exact both

end Login

/-! ### Runs of logins -/

section Runs

variable {ι : Type} [DecidableEq ι] {host : Host} {start : Int} {logins : ι → Login} {trace trace' : List (Step ι)}
  {t : Throttle} {current : ι → Backend Response}

theorem serve_login_related (host : Host) (login : Login) :
    Prog.Related (Indistinct host login) Eq (serve host (.login login.1 login.2))
      (serve host (.login login.1 login.2)) := by
  refine Prog.Related.bind (login_related host login) fun result result' alike => ?_
  cases result with
  | ok response =>
      cases result' with
      | ok response' => exact .done alike
      | error response' => exact alike.elim
  | error response =>
      cases result' with
      | ok response' => exact alike.elim
      | error response' => exact .done alike

/-- What the limiter goes through is the same. -/
theorem Indistinct.throttled {login : Login} {query : Query} {a a' : query.Answer} {t t' : Throttle}
    (indistinct : Indistinct host login query a a') (here : query.throttled t a t') : query.throttled t a' t' := by
  by_cases plain : query.NoLookup
  · rw [← indistinct.same plain]
    exact here
  · cases query with
    | read => exact here
    | _ => exact absurd trivial plain

/-- **Failed logins are alike**, whether or not there is an account. -/
theorem failed_logins_alike (run : Throttled host start logins trace t current)
    (exchanged : List.Forall₂ (Exchanged fun i => Indistinct host (logins i)) trace trace') :
    ∃ current', Throttled host start logins trace' t current' ∧
      ∀ i response, current i = .done response ↔ current' i = .done response := by
  have matched : ∀ i (query : Query) t a a' t', Indistinct host (logins i) query a a' → query.throttled t a t' →
      query.throttled t a' t' := fun _ _ _ _ _ _ indistinct here => indistinct.throttled here
  obtain ⟨current', run', related⟩ :=
    run.exchange matched (fun i => serve_login_related host (logins i)) exchanged
  exact ⟨current', run', fun i response => (related i).done_iff response⟩

end Runs

/-- The run of one stranger's login: two checks, a user that does not exist, and the failure. -/
def strangerRun : Interleave.Config Unit Query.Answer Throttle Response :=
  Interleave.Config.play Query.respondThrottled
    ⟨[], newThrottle 0, fun _ => serve sampleHost (.login strangerLogin.1 strangerLogin.2)⟩
    (stepsOf () 4 { instant := 7 })

/-- An account of the stranger's email, with another password. -/
def strangersAccount : User :=
  { id := 3, email := "nobody@example.com", firstName := "Nora", lastName := "Body"
    passwordHash := "bcrypt:other", role := .user, active := true, updatedAt := 1 }

/-- The steps of the stranger's login, when this account is found. -/
def strangerSteps (found : Option User) : List (Step Unit) :=
  [⟨(), .recordFailure "192.0.2.1" "nobody@example.com", ()⟩,
    ⟨(), .read (.userByEmail "nobody@example.com"), .ok found⟩,
    ⟨(), .checkIPAndEmail "192.0.2.1" "nobody@example.com", false⟩, ⟨(), .checkIP "192.0.2.1", false⟩]

theorem strangersAccount_refuses : Refuses sampleHost strangerLogin.2 (.ok (some strangersAccount)) := by
  refine ⟨_, rfl, ?_⟩
  rintro user ⟨⟩ _ req ⟨sent, same, valid⟩
  cases same
  cases valid
  decide

theorem failed_logins_alike_stranger : ∃ current',
    Throttled sampleHost 0 (fun _ : Unit => strangerLogin) (strangerSteps (some strangersAccount)) strangerRun.store
      current' ∧
    ∀ i response, strangerRun.current i = .done response ↔ current' i = .done response := by
  have run : Throttled sampleHost 0 (fun _ : Unit => strangerLogin) strangerRun.past strangerRun.store
      strangerRun.current := Run.of_schedule Query.throttled_respond _ Run.nil
  have steps : strangerRun.past = strangerSteps none := by rfl
  refine failed_logins_alike run ?_
  rw [steps]
  refine .cons (.mk _ _ _ _ rfl) (.cons (.mk _ _ _ _ (.inr ⟨?_, strangersAccount_refuses⟩))
    (.cons (.mk _ _ _ _ rfl) (.cons (.mk _ _ _ _ rfl) .nil)))
  exact ⟨none, rfl, nofun⟩

end Wuflow

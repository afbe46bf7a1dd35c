/-
**What the backend asks while it runs.**

A function of the backend is a program over `Query`: a database statement, the clock, a source of
randomness, bcrypt, or a rate limiter. `Query.perform` is what a query does to the store: a read and a
write answer as SQLite does on the store of that moment, every other query leaves the store alone and
may be answered in any way.

A `Handler` is such a program that may stop early with a response, as the handlers do with
`http.Error` and `return`.
-/

import Wuflow.Interleave.Run
import Wuflow.Model.Validation
import Wuflow.Store.Statements

namespace Wuflow

open Calendar (Instant)
open Interleave (Prog Run Config)

/-! ### Queries -/

inductive Query
  | read (q : Select)
  | write (w : Write)
  | now
  | currentTimestamp
  | randomText
  | randomSecret
  | hashPassword (password : String)
  | checkIP (ip : String)
  | checkIPAndEmail (ip email : String)
  | recordFailure (ip email : String)
  | resetOnSuccess (ip email : String)
  | refreshAllow (ip : String)
  deriving DecidableEq

abbrev Query.Answer : Query → Type
  | .read q => Except Err q.Row
  | .write _ => Except Err Int
  | .now | .currentTimestamp => Instant
  | .randomText | .randomSecret => List UInt8
  | .hashPassword _ => Option String
  | .checkIP _ | .checkIPAndEmail _ _ | .refreshAllow _ => Bool
  | .recordFailure _ _ | .resetOnSuccess _ _ => Unit

instance : (query : Query) → DecidableEq query.Answer
  | .read q => inferInstanceAs (DecidableEq (Except Err q.Row))
  | .write _ => inferInstanceAs (DecidableEq (Except Err Int))
  | .now | .currentTimestamp => inferInstanceAs (DecidableEq Int)
  | .randomText | .randomSecret => inferInstanceAs (DecidableEq (List UInt8))
  | .hashPassword _ => inferInstanceAs (DecidableEq (Option String))
  | .checkIP _ | .checkIPAndEmail _ _ | .refreshAllow _ => inferInstanceAs (DecidableEq Bool)
  | .recordFailure _ _ | .resetOnSuccess _ _ => inferInstanceAs (DecidableEq Unit)

/-- `rand.Text`: 26 characters of the base32 alphabet. -/
def isRandomText (bytes : List UInt8) : Bool :=
  bytes.length == 26 && bytes.all fun b => (65 ≤ b && b ≤ 90) || (50 ≤ b && b ≤ 55)

/-- **What a query does to the store.** -/
def Query.perform : (query : Query) → Store → query.Answer → Store → Prop
  | .read q, s, answer, s' => answer = .ok (q.eval s) ∧ s' = s
  | .write w, s, answer, s' => w.exec s = (answer, s')
  | .randomText, s, answer, s' => isRandomText answer = true ∧ s' = s
  | .randomSecret, s, answer, s' => answer.length = 32 ∧ s' = s
  | .now, s, _, s' | .currentTimestamp, s, _, s' | .hashPassword _, s, _, s' | .checkIP _, s, _, s'
  | .checkIPAndEmail _ _, s, _, s' | .recordFailure _ _, s, _, s' | .resetOnSuccess _ _, s, _, s'
  | .refreshAllow _, s, _, s' => s' = s

/-- An answer of the environment in a scheduled execution. -/
structure Input where
  instant : Instant := 0
  bytes : List UInt8 := []
  text : Option String := none
  flag : Bool := false

/-- The `n` bytes that are made of an input. -/
def Input.take (input : Input) (n : Nat) : List UInt8 := (input.bytes ++ List.replicate n 0).take n

/-- The base32 character of five bits. -/
def base32 (b : UInt8) : UInt8 := if b % 32 < 26 then b % 32 + 65 else b % 32 + 24

/-- A query answered by the store and, where the store has no say, by the given input. -/
def Query.respond : (query : Query) → Input → Store → query.Answer × Store
  | .read q, _, s => (.ok (q.eval s), s)
  | .write w, _, s => w.exec s
  | .now, input, s | .currentTimestamp, input, s => (input.instant, s)
  | .randomText, input, s => ((input.take 26).map base32, s)
  | .randomSecret, input, s => (input.take 32, s)
  | .hashPassword _, input, s => (input.text, s)
  | .checkIP _, input, s | .checkIPAndEmail _ _, input, s | .refreshAllow _, input, s => (input.flag, s)
  | .recordFailure _ _, _, s | .resetOnSuccess _ _, _, s => ((), s)

theorem Input.length_take (input : Input) (n : Nat) : (input.take n).length = n := by
  unfold Input.take
  rw [List.length_take, List.length_append, List.length_replicate]
  omega

theorem isRandomText_base32 (input : Input) : isRandomText ((input.take 26).map base32) = true := by
  have alphabet : ∀ n : Fin 256, ((65 ≤ base32 (UInt8.ofNat n) && base32 (UInt8.ofNat n) ≤ 90) ||
      (50 ≤ base32 (UInt8.ofNat n) && base32 (UInt8.ofNat n) ≤ 55)) = true := by decide +kernel
  unfold isRandomText
  rw [List.length_map, Input.length_take, beq_self_eq_true, Bool.true_and, List.all_map,
    List.all_eq_true]
  intro b _
  have here := alphabet ⟨b.toNat, b.toNat_lt⟩
  rwa [UInt8.ofNat_toNat] at here

theorem Query.perform_respond (query : Query) (input : Input) (s : Store) :
    query.perform s (query.respond input s).1 (query.respond input s).2 := by
  cases query with
  | read q => exact ⟨rfl, rfl⟩
  | randomText => exact ⟨isRandomText_base32 input, rfl⟩
  | randomSecret => exact ⟨input.length_take 32, rfl⟩
  | _ => exact rfl

/-- A read leaves the store alone. -/
theorem perform_read {q : Select} {s s' : Store} {answer : (Query.read q).Answer}
    (here : (Query.read q).perform s answer s') : answer = .ok (q.eval s) ∧ s' = s := here

/-! ### Programs -/

/-- A program of the backend. -/
abbrev Backend := Prog Query.Answer

def ask (query : Query) : Backend query.Answer := Prog.call query

/-! ### Requests and responses -/

/-- The claims of a validated access token: who sends a request. -/
structure Caller where
  userID : Int
  email : String
  role : UserRole

/-- A request body: text that does not decode, no body at all, or a decoded value. -/
inductive Body (β : Type)
  | malformed
  | empty
  | json (value : β)

/-- The claims of an access token (`CustomClaims`). -/
structure AccessToken where
  userID : Int
  email : String
  role : UserRole
  expiresAt : Instant
  issuedAt : Instant
  deriving DecidableEq

/-- What a response does to the two auth cookies. -/
inductive Cookies
  | keep
  | set (accessToken : AccessToken) (refreshToken : List UInt8)
  | clear
  deriving DecidableEq

/-- The body of a response. -/
inductive Payload
  | empty
  | text (message : String)
  | issue (i : Option Issue)
  | task (t : Task)
  | comment (c : Comment)
  | label (l : Label)
  | project (p : Project)
  | release (r : Release)
  | statusConfig (cfg : StatusConfig)
  | user (u : User)
  deriving DecidableEq

/-- A response. Status 0 stands for none: the handler panicked and the connection was closed. -/
structure Response where
  status : Nat
  payload : Payload := .empty
  etag : Option String := none
  cookies : Cookies := .keep
  deriving DecidableEq

/-- `http.Error`. -/
def httpError (message : String) (status : Nat) : Response := { status, payload := .text message }

def internalServerError : Response := httpError "Internal server error" 500

/-- A program that may stop early with its response. -/
abbrev Handler := ExceptT Response Backend

/-- Stop with a response unless a check holds. -/
def ensure (holds : Bool) (otherwise : Response) : Handler Unit :=
  if holds then pure () else throw otherwise

/-- Stop with a response if there is no value. -/
def orRespond {α : Type} (value : Option α) (otherwise : Response) : Handler α :=
  match value with
  | some value => pure value
  | none => throw otherwise

/-- Run a database function and turn its error into a response. -/
def orFail {α : Type} (p : Backend (Except Err α)) (respond : Err → Response) : Handler α := do
  match ← (p : Backend _) with
  | .ok value => pure value
  | .error err => throw (respond err)

/-- Run a database function whose errors are all internal. -/
def orInternal {α : Type} (p : Backend (Except Err α)) : Handler α := orFail p fun _ => internalServerError

/-- `decodeAndValidate`. -/
def decodeAndValidate {β : Type} (body : Body β) (validate : β → Except String β) : Handler β :=
  match body with
  | .json value =>
      match validate value with
      | .ok value => pure value
      | .error message => throw (httpError message 400)
  | _ => throw (httpError "Invalid request body" 400)

/-- The response of a handler, however it ends. -/
def Handler.respond (h : Handler Response) : Backend Response := do
  match ← h.run with
  | .ok response | .error response => return response

end Wuflow

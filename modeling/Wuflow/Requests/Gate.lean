/-
**What gets past the middlewares.**

* `receive_cases` — every way through the middlewares, with what it needed and what it asked `apiLimiter`.
* `receive_serves` — whoever is served as a caller has shown a valid access token of this caller.
* `api_writes_bounded` — whatever requests arrive, at most `2 * apiMaxRequests` writing requests of one user are
  served in an interval no longer than `apiRateWindow`.
-/

import Wuflow.Backend.Http
import Wuflow.Invariants.UserRole
import Wuflow.Limits.Admission
import Wuflow.Limits.SlidingWindow

namespace FixedWindow

variable {window : Int} {limit : Nat}

/-- Windows that do not adjoin let through at most twice the limit in an interval no longer than one. -/
theorem within_take_le {ws : List (List Int)} (apart : Separated window ws) {a b : Int} (near : b - a ≤ window) :
    within a b (ws.flatMap (List.take limit)) ≤ 2 * limit := by
  induction ws with
  | nil => exact Nat.zero_le _
  | cons w ws ih =>
      obtain ⟨⟨s, rest, _, here, later⟩, _, next⟩ := apart
      have few := le_trans (within_le_length a b (w.take limit)) (List.length_take_le limit w)
      rw [List.flatMap_cons, within_append]
      by_cases hits : ∃ x ∈ w.take limit, a ≤ x ∧ x ≤ b
      · -- only the next window can be reached from here
        obtain ⟨x, member, inside⟩ := hits
        have bound := (here x (List.take_subset _ _ member)).2
        cases ws with
        | nil => exact le_trans few (by omega)
        | cons w' ws =>
            obtain ⟨⟨s', rest', begins', _, later'⟩, _, _⟩ := next
            have start : s + window < s' := later s' (List.mem_flatten_of_mem List.mem_cons_self
              (begins' ▸ List.mem_cons_self))
            have beyond : within a b (ws.flatMap (List.take limit)) = 0 := by
              refine within_eq_zero fun y among inside' => ?_
              obtain ⟨v, member', taken⟩ := List.mem_flatMap.mp among
              have far := later' y (List.mem_flatten_of_mem member' (List.take_subset _ _ taken))
              omega
            have few' := le_trans (within_le_length a b (w'.take limit)) (List.length_take_le limit w')
            rw [List.flatMap_cons, within_append, beyond]
            omega
      · have none : within a b (w.take limit) = 0 :=
          within_eq_zero fun x member inside => hits ⟨x, member, inside⟩
        rw [none, Nat.zero_add]
        exact ih next

/-- **At most twice the limit is let through** in any interval no longer than the window. -/
theorem within_passed_le (limit : Nat) {ts : List Int} (positive : 1 ≤ limit) (wide : 0 ≤ window)
    (sorted : ts.Pairwise (· ≤ ·)) {a b : Int} (near : b - a ≤ window) :
    within a b (passed limit window none ts) ≤ 2 * limit := by
  rw [passed_eq_flatMap, show max 1 (limit : Int).toNat = limit by omega]
  exact within_take_le (windows_separated sorted wide) near

end FixedWindow

namespace Wuflow

open Calendar (Instant)
open FixedWindow (within)
open Routing (segments)

/-! ### One request -/

section Receive

variable {env : Env} {now : Instant} {clock : Clock} {http : HttpRequest} {limiter : KeyedLimiter Int}

/-- The request has shown an access token with these claims that is valid at `now`. -/
def Shows (env : Env) (now : Instant) (http : HttpRequest) (claims : AccessToken) : Prop :=
  ∃ token, http.accessToken = some token ∧ env.verify token = some claims ∧ now < claims.expiresAt

theorem shows_of_valid {claims : AccessToken} (valid : http.accessToken.bind (validateToken env now) = some claims) :
    Shows env now http claims := by
  obtain ⟨token, sent, valid⟩ := Option.bind_eq_some_iff.mp valid
  unfold validateToken at valid
  split at valid
  · cases valid
  · obtain ⟨verified, fresh⟩ := Option.filter_eq_some_iff.mp valid
    exact ⟨token, sent, verified, of_decide_eq_true fresh⟩

/-- For whom a request is served. -/
def Outcome.caller : Outcome → Option Caller
  | .serve req => req.caller
  | .read caller _ _ => some caller
  | .respond _ | .file _ | .redirect => none

/-- The requests that need no access token. -/
def Request.Anonymous : Request → Prop
  | .login _ _ | .logout _ | .refresh _ _ | .pageLoad _ => True
  | _ => False

/-- The outcome reads and changes no data of the projects and of the accounts, but for the login. -/
def Outcome.Anonymous : Outcome → Prop
  | .serve req => req.Anonymous
  | .read _ _ _ => False
  | .respond _ | .file _ | .redirect => True

theorem Outcome.Anonymous.caller {outcome : Outcome} (anonymous : outcome.Anonymous) : outcome.caller = none := by
  cases outcome with
  | serve req =>
      cases req with
      | login | logout | refresh | pageLoad => rfl
      | _ => exact anonymous.elim
  | read => exact anonymous.elim
  | respond | file | redirect => rfl

/-- The handlers behind `authAPI` run for the caller they are given. -/
theorem Endpoint.handle_caller {endpoint : Endpoint} {caller : Caller} {vars : String → Option Int} :
    endpoint.handle env http caller vars = .respond { status := 200, payload := .text env.version } ∨
      (endpoint.handle env http caller vars).caller = some caller := by
  cases endpoint with
  | getVersion => exact .inl rfl
  | _ => exact .inr rfl

theorem Endpoint.handlePublic_anonymous (endpoint : Endpoint) : (endpoint.handlePublic env http).Anonymous := by
  cases endpoint <;> exact trivial

/-- **What becomes of a request**: it needs no token, or it is served for the caller of a valid token; if it may
write, the limiter has been asked for this user. -/
inductive Received (env : Env) (now : Instant) (clock : Clock) (http : HttpRequest) (limiter : KeyedLimiter Int) :
    Outcome × KeyedLimiter Int → Prop
  | anonymous (outcome : Outcome) (anonymous : outcome.Anonymous) :
      Received env now clock http limiter (outcome, limiter)
  | free (claims : AccessToken) (outcome : Outcome) (shows : Shows env now http claims)
      (own : ∀ caller, outcome.caller = some caller → caller = claims.caller)
      (free : env.apiRateLimitEnabled = false ∨ http.method.writes = false ∨ claims.userID = 0) :
      Received env now clock http limiter (outcome, limiter)
  | allowed (claims : AccessToken) (outcome : Outcome) (shows : Shows env now http claims)
      (own : ∀ caller, outcome.caller = some caller → caller = claims.caller)
      (allow : (limiter.allow claims.userID clock).1 = some true) :
      Received env now clock http limiter (outcome, (limiter.allow claims.userID clock).2)
  | refused (claims : AccessToken) (response : Response)
      (refuse : (limiter.allow claims.userID clock).1 ≠ some true) :
      Received env now clock http limiter (.respond response, (limiter.allow claims.userID clock).2)

theorem Received.answered (response : Response) : Received env now clock http limiter (.respond response, limiter) :=
  .anonymous _ trivial

theorem received_commonAPI {h : Serving} (public_ : ∀ http, (h http none limiter).1.Anonymous)
    (keeps : ∀ http, (h http none limiter).2 = limiter) :
    Received env now clock http limiter (commonAPI h http none limiter) := by
  unfold commonAPI validatePathMiddleware limitBodyMiddleware requireJSONMiddleware
  dsimp only
  split
  · exact .answered _
  · split
    · exact .answered _
    · generalize ({ http with body := _ } : HttpRequest) = cut
      have whole : h cut none limiter = ((h cut none limiter).1, limiter) := Prod.ext rfl (keeps cut)
      rw [whole]
      exact .anonymous _ (public_ cut)

theorem received_authAPI {h : Serving}
    (own : ∀ http caller limiter caller', (h http (some caller) limiter).1.caller = some caller' → caller' = caller)
    (keeps : ∀ http caller limiter, (h http (some caller) limiter).2 = limiter) :
    Received env now clock http limiter (authAPI env now clock h http none limiter) := by
  unfold authAPI validatePathMiddleware limitBodyMiddleware requireJSONMiddleware authMiddleware
  dsimp only
  split
  · exact .answered _
  · split
    · exact .answered _
    · cases valid : http.accessToken.bind (validateToken env now) with
      | none => exact .answered _
      | some claims =>
          have shows := shows_of_valid valid
          unfold userRateLimitMiddleware
          dsimp only
          have handled : ∀ (http' : HttpRequest) (limiter' : KeyedLimiter Int),
              h http' (some claims.caller) limiter' = ((h http' (some claims.caller) limiter').1, limiter') :=
            fun http' limiter' => Prod.ext rfl (keeps http' claims.caller limiter')
          split
          · rw [handled]
            exact .free claims _ shows (fun caller same => own _ _ _ caller same) ‹_›
          · have asked : limiter.allow claims.caller.userID clock =
                ((limiter.allow claims.userID clock).1, (limiter.allow claims.userID clock).2) := rfl
            rw [asked]
            cases answer : (limiter.allow claims.userID clock).1 with
            | none => exact .refused claims _ (by rw [answer]; simp)
            | some allowed =>
                cases allowed with
                | true =>
                    dsimp only
                    rw [handled]
                    exact .allowed claims _ shows (fun caller same => own _ _ _ caller same) answer
                | false => exact .refused claims _ (by rw [answer]; simp)

/-- **Every request is received in one of these ways.** -/
theorem receive_cases : Received env now clock http limiter (receive env now clock http limiter) := by
  unfold receive
  cases dispatch http.method http.path with
  | redirect => exact .anonymous _ trivial
  | methodNotAllowed => exact .answered _
  | notFound => exact .answered _
  | route r =>
      show Received env now clock http limiter (r.serving env now clock http none limiter)
      unfold Route.serving
      cases r.chain with
      | commonAPI => exact received_commonAPI (fun _ => Endpoint.handlePublic_anonymous _) fun _ => rfl
      | authAPI =>
          refine received_authAPI (fun http caller _ caller' same => ?_) fun _ _ _ => rfl
          have called : (r.endpoint.handle env http caller fun name =>
              atoi (r.pattern.pathValue (segments http.path) name)).caller = some caller' := same
          rcases Endpoint.handle_caller with version | own
          · rw [version] at called
            cases called
          · exact Option.some.inj (called.symm.trans own)
      | files =>
          dsimp only
          split
          · unfold handleStaticFiles
            cases (http.accessToken.filter (· ≠ "")).bind (validateToken env now) with
            | some claims => exact .anonymous _ trivial
            | none => exact .anonymous _ trivial
          · exact .anonymous _ trivial

/-- **Whoever is served as a caller has shown a valid token of this caller**, and nothing but logins, logouts and
refreshes is served without. -/
theorem receive_serves :
    (receive env now clock http limiter).1.Anonymous ∨
      ∀ caller, (receive env now clock http limiter).1.caller = some caller →
        ∃ claims, Shows env now http claims ∧ claims.caller = caller := by
  have ways := @receive_cases env now clock http limiter
  generalize receive env now clock http limiter = received at ways
  cases ways with
  | anonymous outcome anonymous => exact .inl anonymous
  | free claims outcome shows own => exact .inr fun caller same => ⟨claims, shows, (own caller same).symm⟩
  | allowed claims outcome shows own => exact .inr fun caller same => ⟨claims, shows, (own caller same).symm⟩
  | refused => exact .inl trivial

end Receive

/-! ### Many requests -/

section Arrivals

variable {env : Env} {arrivals : List Arrival} {limiter : KeyedLimiter Int} {start : Int} {user : Int}

/-- A request, when its token is checked and when the limiter is asked. -/
structure Arrival where
  http : HttpRequest
  now : Instant
  clock : Clock

/-- What becomes of requests, in the order in which they are given to the limiter. -/
def receiveAll (env : Env) (limiter : KeyedLimiter Int) : List Arrival → List (Arrival × Outcome)
  | [] => []
  | arrival :: arrivals =>
      let (outcome, limiter) := receive env arrival.now arrival.clock arrival.http limiter
      (arrival, outcome) :: receiveAll env limiter arrivals

/-- A request with a writing method is served for this user. -/
def ServedWrite (user : Int) (received : Arrival × Outcome) : Bool :=
  received.1.http.method.writes && received.2.caller.map Caller.userID == some user

/-- When the writing requests of a user are served. -/
def writesOf (user : Int) (received : List (Arrival × Outcome)) : List Int :=
  (received.filter (ServedWrite user)).map fun received => received.1.clock.now

theorem servedWrite_iff {arrival : Arrival} {outcome : Outcome} :
    ServedWrite user (arrival, outcome) = true ↔ arrival.http.method.writes = true ∧
      ∃ caller, outcome.caller = some caller ∧ caller.userID = user := by
  simp [ServedWrite]

theorem Clocked.since {first : Int} {clocks : List Clock} (clocked : Clocked start clocks) (earlier : first ≤ start) :
    Clocked first clocks := by
  cases clocks with
  | nil => trivial
  | cons clock clocks => exact ⟨le_trans earlier clocked.1, clocked.2⟩

theorem letThrough_cons (key : Int) (clock : Clock) (calls : List (Int × Clock)) :
    letThrough limiter user ((key, clock) :: calls) =
      (if key = user ∧ (limiter.allow key clock).1 = some true then [clock.now] else []) ++
        letThrough (limiter.allow key clock).2 user calls := by
  unfold letThrough
  rw [KeyedLimiter.answers, List.zip_cons_cons, List.filter_cons]
  by_cases passes : key = user ∧ (limiter.allow key clock).1 = some true
  · rw [if_pos passes, if_pos (decide_eq_true passes)]
    rfl
  · rw [if_neg passes, if_neg (mt of_decide_eq_true passes)]
    rfl

theorem writesOf_cons (received : Arrival × Outcome) (rest : List (Arrival × Outcome)) :
    writesOf user (received :: rest) =
      (if ServedWrite user received = true then [received.1.clock.now] else []) ++ writesOf user rest := by
  unfold writesOf
  rw [List.filter_cons]
  split <;> rfl

/-- **The served writes of a user are among the calls that the limiter lets through.** -/
theorem writesOf_sublist (enabled : env.apiRateLimitEnabled = true) (real : user ≠ 0)
    (clocked : Clocked start (arrivals.map Arrival.clock)) :
    ∃ calls : List (Int × Clock), Clocked start (calls.map Prod.snd) ∧
      (writesOf user (receiveAll env limiter arrivals)).Sublist (letThrough limiter user calls) := by
  induction arrivals generalizing limiter start with
  | nil => exact ⟨[], trivial, List.Sublist.slnil⟩
  | cons arrival arrivals ih =>
      obtain ⟨after, order, rest⟩ := clocked
      have ways := @receive_cases env arrival.now arrival.clock arrival.http limiter
      show ∃ calls : List (Int × Clock), _ ∧ (writesOf user
        ((arrival, (receive env arrival.now arrival.clock arrival.http limiter).1) ::
          receiveAll env (receive env arrival.now arrival.clock arrival.http limiter).2 arrivals)).Sublist _
      generalize receive env arrival.now arrival.clock arrival.http limiter = received at ways
      obtain ⟨calls, timed, passes⟩ := @ih received.2 arrival.clock.later rest
      rw [writesOf_cons]
      cases ways with
      | anonymous outcome anonymous =>
          have other : ¬ ServedWrite user (arrival, outcome) = true := fun served => by
            obtain ⟨_, caller, called, _⟩ := servedWrite_iff.mp served
            rw [anonymous.caller] at called
            cases called
          rw [if_neg other]
          exact ⟨calls, timed.since (le_trans after order), passes⟩
      | free claims outcome shows own free =>
          have other : ¬ ServedWrite user (arrival, outcome) = true := fun served => by
            obtain ⟨writes, caller, called, rfl⟩ := servedWrite_iff.mp served
            obtain rfl := own caller called
            rcases free with off | reads | anonymous
            · simp [enabled] at off
            · simp [writes] at reads
            · exact real anonymous
          rw [if_neg other]
          exact ⟨calls, timed.since (le_trans after order), passes⟩
      | allowed claims outcome shows own allow =>
          refine ⟨(claims.userID, arrival.clock) :: calls, ⟨after, order, timed⟩, ?_⟩
          rw [letThrough_cons]
          refine List.Sublist.append ?_ passes
          split
          · obtain ⟨_, caller, called, rfl⟩ := servedWrite_iff.mp ‹_›
            obtain rfl := own caller called
            rw [if_pos ⟨rfl, allow⟩]
          · exact List.nil_sublist _
      | refused claims response refuse =>
          refine ⟨(claims.userID, arrival.clock) :: calls, ⟨after, order, timed⟩, ?_⟩
          have other : ¬ ServedWrite user (arrival, .respond response) = true := fun served => by
            obtain ⟨_, caller, called, _⟩ := servedWrite_iff.mp served
            cases called
          rw [letThrough_cons, if_neg other]
          exact passes.trans (List.sublist_append_right _ _)

/-- **At most twice `apiMaxRequests` writing requests of a user are served** in an interval no longer than
`apiRateWindow`, whatever other requests arrive. -/
theorem api_writes_bounded (enabled : env.apiRateLimitEnabled = true) (real : user ≠ 0)
    (clocked : Clocked start (arrivals.map Arrival.clock)) {a b : Int} (near : b - a ≤ apiRateWindow) :
    (within a b (writesOf user (receiveAll env apiLimiter arrivals)) : Int) ≤ 2 * apiMaxRequests := by
  obtain ⟨calls, timed, passes⟩ : ∃ calls : List (Int × Clock), Clocked start (calls.map Prod.snd) ∧
      (writesOf user (receiveAll env apiLimiter arrivals)).Sublist (letThrough apiLimiter user calls) :=
    writesOf_sublist enabled real clocked
  have few : within a b (letThrough apiLimiter user calls) ≤ 2 * 60 := by
    unfold apiLimiter
    rw [letThrough_eq timed, if_neg (by decide)]
    exact FixedWindow.within_passed_le 60 (by decide) (by decide) (clocked_sorted timed).2 near
  have kept : within a b (writesOf user (receiveAll env apiLimiter arrivals)) ≤
      within a b (letThrough apiLimiter user calls) := passes.countP_le
  show (_ : Int) ≤ 2 * 60
  omega

end Arrivals

def seven : AccessToken :=
  { userID := 7, email := "seven@example.com", role := .user, issuedAt := 0, expiresAt := 900 }

/-- A server on which every token is that of user 7, and whose bodies say nothing. -/
def quietEnv : Env where
  wire :=
    { issue := fun _ => .malformed, positions := fun _ => .malformed, move := fun _ => .malformed
      adminPassword := fun _ => .malformed, task := fun _ => .malformed, comment := fun _ => .malformed
      label := fun _ => .malformed, statusConfig := fun _ => .malformed, project := fun _ => .malformed
      release := fun _ => .malformed, trigger := fun _ => .malformed, user := fun _ => .malformed
      login := fun _ => .malformed }
  verify := fun _ => some seven
  apiRateLimitEnabled := true
  version := "1"

/-- User 7 deletes the same issue over and over. -/
def deletions (times : List Int) : List Arrival :=
  times.map fun t =>
    { http := { method := .delete, path := ["api", "projects", "3", "issues", "4"], accessToken := some "token" }
      now := 0, clock := ⟨t, t⟩ }

theorem api_writes_bounded_deletions :
    writesOf 7 (receiveAll quietEnv apiLimiter (deletions [0, 1, 2])) = [0, 1, 2] ∧
      (within 0 2 (writesOf 7 (receiveAll quietEnv apiLimiter (deletions [0, 1, 2]))) : Int) ≤ 2 * apiMaxRequests :=
  ⟨by decide +kernel, api_writes_bounded rfl (by decide) (show Clocked 0 _ by decide) (by decide)⟩

end Wuflow

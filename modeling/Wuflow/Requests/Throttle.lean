/-
**How many failed logins are counted when logins overlap.**

A login asks the limiter whether it is blocked, and counts its failure much later. Other logins ask in between
and are let in by the same count. `login_failures_bounded` says how far this goes: while at most `k` logins from
one address are under way at once, in any 15 minutes at most `2 * (20 + k - 1)` failures are counted for it, and
at most `2 * (10 + k - 1)` for it and one email between two successes.

* `login_obeys` — a login counts a failure only once, and only after both limits have let it in.
* `LoginCounter.gate` — a counter with the logins that it has let in, as a gate; `Guards.step` — every step of a
  run is one of the gate.
* `Throttled.bounded` — what a counter reaches.
-/

import Mathlib.Data.Fintype.Card
import Wuflow.Limits.Admission
import Wuflow.Limits.Cleanup
import Wuflow.Requests.Sanctioned

namespace Wuflow

open Admission (AtMost Gate)
open FixedWindow (counted liveCount within)
open Interleave (Prog Entry Event Run own)
open Interleave.Stopping (Asks Obeys)

/-! ### The limiter behind the logins -/

/-- The login limiter, when it was last called, and the calls it has seen. -/
structure Throttle where
  limiter : RateLimiter
  time : Int
  calls : List (LoginCall × Clock)

def newThrottle (start : Int) : Throttle := { limiter := loginLimiter, time := start, calls := [] }

/-- A call of the limiter, which holds its lock and reads the clock. -/
def Throttle.Called (t : Throttle) (call : LoginCall) (answer : Option Bool) (t' : Throttle) : Prop :=
  ∃ clock : Clock, t.time ≤ clock.now ∧ clock.now ≤ clock.later ∧
    t.limiter.step clock call = (answer, t'.limiter) ∧ t'.time = clock.later ∧
    t'.calls = t.calls ++ [(call, clock)]

/-- **What a query does to the limiter.** The rest of the server may answer anything, which covers all that
other requests do in between: none of them calls this limiter. -/
def Query.throttled : (query : Query) → Throttle → query.Answer → Throttle → Prop
  | .checkIP ip, t, blocked, t' => t.Called (.checkIP ip) (some blocked) t'
  | .checkIPAndEmail ip email, t, blocked, t' => t.Called (.checkIPAndEmail ip email) (some blocked) t'
  | .recordFailure ip email, t, _, t' => t.Called (.recordFailure ip email) none t'
  | .resetOnSuccess ip email, t, _, t' => t.Called (.resetOnSuccess ip email) none t'
  | .read _, t, _, t' | .write _, t, _, t' | .now, t, _, t' | .currentTimestamp, t, _, t' | .randomText, t, _, t'
  | .randomSecret, t, _, t' | .hashPassword _, t, _, t' | .refreshAllow _, t, _, t' => t' = t

/-- A login: the address it comes from, and its body. -/
abbrev Login := String × Body LoginRequest

/-- **A run of overlapping logins.** -/
abbrev Throttled {ι : Type} [DecidableEq ι] (host : Host) (start : Int) (logins : ι → Login)
    (trace : List (Step ι)) (t : Throttle) (current : ι → Backend Response) : Prop :=
  Run Query.throttled (newThrottle start) (fun i => serve host (.login (logins i).1 (logins i).2)) trace t
    current

/-! ### What a login asks -/

/-- No failure has been counted. -/
def Unrecorded (past : Past) : Prop := ∀ ip email, (⟨.recordFailure ip email, ()⟩ : Entry Query.Answer) ∉ past

/-- **When a login calls the limiter.** -/
def LoginRule (login : Login) (past : Past) : Query → Prop
  | .checkIP ip => ip = login.1
  | .checkIPAndEmail ip email => ip = login.1 ∧ ∃ req, Decoded login.2 validateLoginRequest req ∧ req.email = email
  | .recordFailure ip email =>
      Unrecorded past ∧ (⟨.checkIP ip, false⟩ : Entry Query.Answer) ∈ past ∧
        (⟨.checkIPAndEmail ip email, false⟩ : Entry Query.Answer) ∈ past
  | _ => True

/-- Neither a check nor a failure. -/
def Query.Unlimited : Query → Prop
  | .checkIP _ | .checkIPAndEmail _ _ | .recordFailure _ _ => False
  | _ => True

theorem Query.Unlimited.ruled {query : Query} (unlimited : query.Unlimited) (login : Login) (past : Past) :
    LoginRule login past query := by
  cases query with
  | checkIP | checkIPAndEmail | recordFailure => exact unlimited.elim
  | _ => trivial

/-- What a login asks once it knows the password. -/
def Query.Opening : Query → Prop
  | .resetOnSuccess _ _ | .write _ | .now | .currentTimestamp | .randomText | .randomSecret => True
  | _ => False

theorem Query.Opening.unlimited {query : Query} (opening : query.Opening) : query.Unlimited := by
  cases query with
  | checkIP | checkIPAndEmail | recordFailure => exact opening.elim
  | _ => trivial

theorem generateAccessToken_opening (user : User) : (generateAccessToken user).Asks Query.Opening := by
  unfold generateAccessToken
  cases user.active with
  | false => exact trivial
  | true => exact ⟨trivial, fun _ => ⟨trivial, fun _ => trivial⟩⟩

theorem createUserSession_opening (host : Host) (user : User) :
    (createUserSession host user).Asks Query.Opening := by
  refine Prog.Asks.bind (generateAccessToken_opening user) fun accessToken => ?_
  cases accessToken with
  | none => exact trivial
  | some accessToken =>
      refine ⟨trivial, fun sessionToken => ⟨trivial, fun secret => ⟨trivial, fun now => ⟨trivial, fun answer => ?_⟩⟩⟩⟩
      cases answer with
      | ok id => exact trivial
      | error err => exact trivial

theorem updateUserLastLogin_opening (userID : Int) : Asks Query.Opening (updateUserLastLogin userID) :=
  Asks.bind (Asks.lift (ask_asks (by exact trivial))) fun _ => Asks.bind (exec_asks trivial) fun _ => Asks.pure _

/-- **Every login keeps the rule.** -/
theorem login_obeys (host : Host) (login : Login) :
    (serve host (.login login.1 login.2)).Obeys (LoginRule login) (fun _ _ => True) [] := by
  refine Handler.respond_obeys ?_
  have opens : ∀ {later : Past} {α : Type} {p : Handler α}, Asks Query.Opening p →
      Obeys (LoginRule login) (fun _ _ => True) (fun _ _ => True) later p := fun asks =>
    Obeys.of_asks asks (fun past _ here => here.unlimited.ruled login past) (fun _ _ _ => trivial) fun _ _ _ => trivial
  refine Obeys.bind (ask_obeys (by exact rfl)) ?_
  rintro _ blocked rfl
  refine Obeys.bind (ensure_obeys fun _ => trivial) ?_
  rintro _ _ ⟨rfl, first⟩
  refine Obeys.bind (decodeAndValidate_obeys fun _ => trivial) ?_
  rintro _ req ⟨rfl, decoded⟩
  refine Obeys.bind (ask_obeys (by exact ⟨rfl, req, decoded, rfl⟩)) ?_
  rintro _ refused rfl
  refine Obeys.bind (ensure_obeys fun _ => trivial) ?_
  rintro _ _ ⟨rfl, second⟩
  have open_ : blocked = false ∧ refused = false := by
    rw [Bool.not_eq_true'] at first second
    exact ⟨first, second⟩
  refine Obeys.bind (orFail_obeys (select_told trivial)
    fun _ _ _ => trivial) ?_
  rintro _ found rfl
  have counts : LoginRule login [⟨.read (.userByEmail req.email), .ok found⟩,
      ⟨.checkIPAndEmail login.1 req.email, refused⟩, ⟨.checkIP login.1, blocked⟩]
      (.recordFailure login.1 req.email) := by
    rw [open_.1, open_.2]
    refine ⟨fun ip email member => ?_, by simp, by simp⟩
    simp at member
  have fails : Obeys (LoginRule login) (fun _ _ => True) (fun _ _ => True)
      [⟨.read (.userByEmail req.email), .ok found⟩, ⟨.checkIPAndEmail login.1 req.email, refused⟩,
        ⟨.checkIP login.1, blocked⟩]
      (do
        ask (.recordFailure login.1 req.email)
        throw invalidCredentials : Handler Response) :=
    Obeys.bind (ask_obeys counts) fun _ _ _ => Obeys.throw trivial
  cases found with
  | none => exact fails
  | some user =>
      dsimp only
      split
      · exact fails
      · refine opens (Asks.bind (Asks.lift (createUserSession_opening host user)) fun made => ?_)
        cases made with
        | none => exact Asks.throw _
        | some made =>
            refine Asks.bind (Asks.lift (ask_asks (by exact trivial))) fun _ => ?_
            exact Asks.bind (Asks.lift (updateUserLastLogin_opening _)) fun _ => Asks.pure _

/-! ### The counters -/

/-- A counter of the limiter: for an address, or for an address and an email. -/
inductive LoginCounter
  | ofIP (key : String)
  | ofIPAndEmail (key : String)

namespace LoginCounter

def limit : LoginCounter → Nat
  | .ofIP _ => ipMaxFailures
  | .ofIPAndEmail _ => emailMaxFailures

def window : LoginCounter → Int
  | .ofIP _ => ipWindow
  | .ofIPAndEmail _ => emailWindow

def event : LoginCounter → LoginCall × Clock → Option FixedWindow.Event
  | .ofIP key => RateLimiter.ipEvent key
  | .ofIPAndEmail key => RateLimiter.emailEvent key

/-- The logins that it counts. -/
def Of : LoginCounter → Login → Prop
  | .ofIP key, login => limiterKey login.1 = key
  | .ofIPAndEmail key, login =>
      ∃ req, Decoded login.2 validateLoginRequest req ∧ emailKey login.1 req.email = key

/-- The counter of an address, and of an address and an email. -/
def Keyed : LoginCounter → String → String → Prop
  | .ofIP key, ip, _ => limiterKey ip = key
  | .ofIPAndEmail key, ip, email => emailKey ip email = key

/-- The call asks this counter. -/
def Asked : LoginCounter → LoginCall → Prop
  | .ofIP key, .checkIP ip => limiterKey ip = key
  | .ofIPAndEmail key, .checkIPAndEmail ip email => emailKey ip email = key
  | _, _ => False

/-- The answer lets a login in. -/
def LetsIn : LoginCounter → Entry Query.Answer → Prop
  | .ofIP key, ⟨.checkIP ip, blocked⟩ => limiterKey ip = key ∧ blocked = false
  | .ofIPAndEmail key, ⟨.checkIPAndEmail ip email, blocked⟩ => emailKey ip email = key ∧ blocked = false
  | _, _ => False

/-- The counter after some calls, if it were never dropped. -/
def tally (counter : LoginCounter) (calls : List (LoginCall × Clock)) : Option FixedWindow.Counter :=
  counted counter.window (calls.filterMap counter.event)

/-- When the failures were counted. -/
def failures (counter : LoginCounter) (calls : List (LoginCall × Clock)) : List Int :=
  (calls.filterMap counter.event).filterMap FixedWindow.Event.time

variable {counter : LoginCounter} {call : LoginCall} {clock : Clock} {calls : List (LoginCall × Clock)}

theorem limit_pos (counter : LoginCounter) : 0 < counter.limit := by
  cases counter with
  | ofIP => exact (by decide : 0 < ipMaxFailures)
  | ofIPAndEmail => exact (by decide : 0 < emailMaxFailures)

theorem window_nonneg (counter : LoginCounter) : 0 ≤ counter.window := by
  cases counter with
  | ofIP => exact (by decide : 0 ≤ ipWindow)
  | ofIPAndEmail => exact (by decide : 0 ≤ emailWindow)

theorem tally_append (none : counter.event (call, clock) = none) :
    counter.tally (calls ++ [(call, clock)]) = counter.tally calls := by
  unfold tally
  rw [List.filterMap_append, List.filterMap_cons_none none, List.filterMap_nil, List.append_nil]

theorem tally_append_event {event : FixedWindow.Event} (some_ : counter.event (call, clock) = some event) :
    counter.tally (calls ++ [(call, clock)]) = counted counter.window (calls.filterMap counter.event ++ [event]) := by
  unfold tally
  rw [List.filterMap_append, List.filterMap_cons_some some_, List.filterMap_nil]

/-- Only a failure of its own key is a hit. -/
theorem event_hit {now : Int} (hits : counter.event (call, clock) = some (.hit now)) :
    now = clock.now ∧ ∃ ip email, call = .recordFailure ip email ∧ counter.Keyed ip email := by
  cases counter with
  | ofIP key =>
      cases call with
      | recordFailure ip email =>
          change (if limiterKey ip = key then some (FixedWindow.Event.hit clock.now) else none) = _ at hits
          split at hits
          · cases hits
            exact ⟨rfl, ip, email, rfl, ‹_›⟩
          · cases hits
      | _ => cases hits
  | ofIPAndEmail key =>
      cases call with
      | recordFailure ip email =>
          change (if emailKey ip email = key then some (FixedWindow.Event.hit clock.now) else none) = _ at hits
          split at hits
          · cases hits
            exact ⟨rfl, ip, email, rfl, ‹_›⟩
          · cases hits
      | resetOnSuccess ip email =>
          change (if emailKey ip email = key then some FixedWindow.Event.reset else none) = _ at hits
          split at hits <;> cases hits
      | _ => cases hits

/-- A counter that is asked answers whether it has reached its limit. -/
theorem answer_asked (asked : counter.Asked call) :
    RateLimiter.independentAnswer calls clock call =
      some (FixedWindow.reached counter.limit clock.now (counter.tally calls)) := by
  cases counter with
  | ofIP key =>
      cases call with
      | checkIP ip =>
          have same : limiterKey ip = key := asked
          subst same
          rfl
      | _ => exact asked.elim
  | ofIPAndEmail key =>
      cases call with
      | checkIPAndEmail ip email =>
          have same : emailKey ip email = key := asked
          subst same
          rfl
      | _ => exact asked.elim

/-- A success leaves the counter of an address. -/
theorem ofIP_kept (key : String) (call : LoginCall × Clock) : (ofIP key).event call ≠ some .reset := by
  obtain ⟨call, clock⟩ := call
  intro resets
  cases call with
  | recordFailure ip email =>
      change (if limiterKey ip = key then some (FixedWindow.Event.hit clock.now) else none) = _ at resets
      split at resets <;> cases resets
  | _ => cases resets

theorem failures_sublist (counter : LoginCounter) (calls : List (LoginCall × Clock)) :
    (counter.failures calls).Sublist (calls.map fun call => call.2.now) := by
  induction calls with
  | nil => exact List.Sublist.slnil
  | cons call calls ih =>
      unfold failures at ih ⊢
      rw [List.map_cons]
      cases happens : counter.event call with
      | none =>
          rw [List.filterMap_cons_none happens]
          exact ih.cons _
      | some event =>
          rw [List.filterMap_cons_some happens]
          cases event with
          | reset => exact ih.cons _
          | hit now =>
              obtain ⟨rfl, _⟩ := event_hit happens
              exact ih.cons_cons _

/-- Without resets the failures are all that happens. -/
theorem map_hit_failures (kept : ∀ call ∈ calls, counter.event call ≠ some .reset) :
    (counter.failures calls).map .hit = calls.filterMap counter.event := by
  refine FixedWindow.map_hit_time fun event member => ?_
  obtain ⟨call, among, happens⟩ := List.mem_filterMap.mp member
  rintro rfl
  exact kept call among happens

/-- To ask a counter changes nothing. -/
theorem event_asked (asked : counter.Asked call) : counter.event (call, clock) = none := by
  cases counter with
  | ofIP key =>
      cases call with
      | checkIP ip => rfl
      | _ => exact asked.elim
  | ofIPAndEmail key =>
      cases call with
      | checkIPAndEmail ip email => rfl
      | _ => exact asked.elim

end LoginCounter

/-! ### The logins that a counter has let in -/

section Gate

variable {ι : Type} [DecidableEq ι] {host : Host} {start : Int} {logins : ι → Login} {trace : List (Step ι)}
  {t t' : Throttle} {current : ι → Backend Response} {counter : LoginCounter} {k : Nat}

/-- A login that has begun and has not ended. -/
def UnderWay (trace : List (Step ι)) (current : ι → Backend Response) (i : ι) : Prop :=
  own i trace ≠ [] ∧ ∀ response, current i ≠ .done response

/-- **At no moment are more than `k` of these logins under way.** -/
def Overlap (k : Nat) (among : ι → Prop) (host : Host) (start : Int) (logins : ι → Login)
    (trace : List (Step ι)) : Prop :=
  ∀ earlier t current, earlier <:+ trace → Throttled host start logins earlier t current →
    AtMost k {i | among i ∧ UnderWay earlier current i}

theorem Overlap.earlier {among : ι → Prop} {event : Step ι}
    (overlap : Overlap k among host start logins (event :: trace)) : Overlap k among host start logins trace :=
  fun earlier t current suffix run => overlap earlier t current (suffix.trans (List.suffix_cons _ _)) run

/-- The login has been let in, has not been counted and has not ended. -/
structure LoginCounter.Inside (counter : LoginCounter) (trace : List (Step ι))
    (current : ι → Backend Response) (i : ι) : Prop where
  admitted : ∃ entry ∈ own i trace, counter.LetsIn entry
  unrecorded : Unrecorded (own i trace)
  open_ : ∀ response, current i ≠ .done response

/-- The counter at a time, with the logins that it has let in. -/
def LoginCounter.gate (counter : LoginCounter) (now : Int) (calls : List (LoginCall × Clock))
    (trace : List (Step ι)) (current : ι → Backend Response) : Gate ι :=
  { count := liveCount now (counter.tally calls), inside := {i | counter.Inside trace current i} }

/-- Whom a counter lets in, it counts. -/
theorem LoginCounter.Inside.of {i : ι} (run : Throttled host start logins trace t current)
    (inside : counter.Inside trace current i) : counter.Of (logins i) := by
  obtain ⟨entry, member, lets⟩ := inside.admitted
  obtain ⟨event, place, rfl, rfl⟩ := Interleave.mem_own.mp member
  obtain ⟨later, earlier, rfl⟩ := List.append_of_mem place
  have local_ : (serve host (.login (logins event.thread).1 (logins event.thread).2)).Obeys
      (LoginRule (logins event.thread)) (fun _ _ => True) [] := login_obeys host (logins event.thread)
  have ruled := run.rule_of_event local_
  obtain ⟨thread, query, answer⟩ := event
  cases counter with
  | ofIP key =>
      cases query with
      | checkIP ip =>
          have same : ip = (logins thread).1 := ruled
          exact same ▸ lets.1
      | _ => exact lets.elim
  | ofIPAndEmail key =>
      cases query with
      | checkIPAndEmail ip email =>
          obtain ⟨same, req, decoded, rfl⟩ := ruled
          have key_ : emailKey ip req.email = key := lets.1
          exact ⟨req, decoded, same ▸ key_⟩
      | _ => exact lets.elim

theorem LoginCounter.Inside.underWay {i : ι} (inside : counter.Inside trace current i) :
    UnderWay trace current i := by
  obtain ⟨entry, member, _⟩ := inside.admitted
  exact ⟨List.ne_nil_of_mem member, inside.open_⟩

/-- At most `k` are inside. -/
theorem Overlap.inside (overlap : Overlap k (fun i => counter.Of (logins i)) host start logins trace)
    (run : Throttled host start logins trace t current) (now : Int) (calls : List (LoginCall × Clock)) :
    AtMost k (counter.gate now calls trace current).inside :=
  AtMost.mono (overlap trace t current (List.suffix_refl _) run) fun _ inside =>
    ⟨LoginCounter.Inside.of run inside, LoginCounter.Inside.underWay inside⟩

/-- Who is inside after a step was inside before, or has just been let in. -/
theorem LoginCounter.Inside.before {mover i : ι} {query : Query} {answer : query.Answer}
    {next : query.Answer → Backend Response} (asks : current mover = .ask query next)
    (inside : counter.Inside (⟨mover, query, answer⟩ :: trace) (Function.update current mover (next answer)) i) :
    counter.Inside trace current i ∨ (i = mover ∧ counter.LetsIn ⟨query, answer⟩) := by
  obtain ⟨⟨entry, member, lets⟩, unrecorded, open_⟩ := inside
  by_cases same : mover = i
  · subst same
    have history : own mover (⟨mover, query, answer⟩ :: trace) = ⟨query, answer⟩ :: own mover trace :=
      Interleave.own_cons_self (⟨mover, query, answer⟩) trace
    rw [history] at member unrecorded
    rcases List.mem_cons.mp member with rfl | member
    · exact .inr ⟨rfl, lets⟩
    · refine .inl ⟨⟨entry, member, lets⟩, fun ip email here => ?_, fun response ended => ?_⟩
      · exact unrecorded ip email (List.mem_cons_of_mem _ here)
      · rw [asks] at ended
        cases ended
  · rw [Interleave.own_cons_other same] at member unrecorded
    rw [Function.update_of_ne (Ne.symm same)] at open_
    exact .inl ⟨⟨entry, member, lets⟩, unrecorded, open_⟩

/-- Who is about to count a failure is inside. -/
theorem LoginCounter.Inside.of_recording {mover : ι} {ip email : String} {next : Unit → Backend Response}
    (run : Throttled host start logins trace t current)
    (asks : current mover = .ask (.recordFailure ip email) next)
    (own_ : counter.Keyed ip email) : counter.Inside trace current mover := by
  have local_ : ((fun i => serve host (.login (logins i).1 (logins i).2)) mover).Obeys
      (LoginRule (logins mover)) (fun _ _ => True) [] := login_obeys host (logins mover)
  have obeyed : (current mover).Obeys (LoginRule (logins mover)) (fun _ _ => True) (own mover trace) :=
    run.obeys local_
  rw [asks] at obeyed
  obtain ⟨⟨unrecorded, byIP, byIPAndEmail⟩, _⟩ := obeyed
  refine ⟨?_, unrecorded, fun response ended => ?_⟩
  · cases counter with
    | ofIP key => exact ⟨_, byIP, own_, rfl⟩
    | ofIPAndEmail key => exact ⟨_, byIPAndEmail, own_, rfl⟩
  · rw [asks] at ended
    cases ended

/-! ### One step of a run -/

/-- The counter is guarded, and has always been. -/
structure Guards (counter : LoginCounter) (k : Nat) (trace : List (Step ι)) (t : Throttle)
    (current : ι → Backend Response) : Prop where
  counts : t.limiter.Counts t.time t.calls
  guarded : (counter.gate t.time t.calls trace current).Guarded counter.limit k
  bounded : ∀ calls, calls <+: t.calls → ∀ c, counter.tally calls = some c → c.count < counter.limit + k
  sorted : (t.calls.map fun call => call.2.now).Pairwise (· ≤ ·)
  latest : ∀ call ∈ t.calls, call.2.now ≤ t.time

/-- As time passes, a gate stays or its counter starts again. -/
theorem LoginCounter.gate_later {now soon : Int} (order : now ≤ soon) (calls : List (LoginCall × Clock)) :
    Gate.Step counter.limit (counter.gate now calls trace current) (counter.gate soon calls trace current) := by
  rcases FixedWindow.liveCount_later order (counter.tally calls) with same | zero
  · exact .leave same fun _ inside => inside
  · exact .restart zero

/-- **A call of the limiter is a step of the gate.** -/
theorem LoginCounter.gate_step {mover : ι} {query : Query} {answer : query.Answer}
    {next : query.Answer → Backend Response} (asks : current mover = .ask query next) {call : LoginCall}
    {clock : Clock} {calls : List (LoginCall × Clock)}
    (lets : counter.LetsIn ⟨query, answer⟩ → liveCount clock.now (counter.tally calls) < counter.limit ∧
      counter.event (call, clock) = none)
    (hits : ∀ now, counter.event (call, clock) = some (.hit now) → now = clock.now ∧
      counter.Inside trace current mover ∧
      ∃ ip email, (⟨query, answer⟩ : Entry Query.Answer) = ⟨.recordFailure ip email, ()⟩) :
    Gate.Step counter.limit (counter.gate clock.now calls trace current)
      (counter.gate clock.now (calls ++ [(call, clock)]) (⟨mover, query, answer⟩ :: trace)
        (Function.update current mover (next answer))) := by
  have fewer : ¬ counter.LetsIn ⟨query, answer⟩ → ∀ i,
      counter.Inside (⟨mover, query, answer⟩ :: trace) (Function.update current mover (next answer)) i →
      counter.Inside trace current i := fun none i inside =>
    (inside.before asks).resolve_right fun new => none new.2
  cases happens : counter.event (call, clock) with
  | none =>
      have same : (counter.gate clock.now (calls ++ [(call, clock)]) (⟨mover, query, answer⟩ :: trace)
          (Function.update current mover (next answer))).count =
          (counter.gate clock.now calls trace current).count :=
        congrArg (liveCount clock.now) (tally_append happens)
      by_cases new : counter.LetsIn ⟨query, answer⟩
      · exact .enter (lets new).1 same
      · exact .leave same (fewer new)
  | some event =>
      have old : ¬ counter.LetsIn ⟨query, answer⟩ := fun new => by
        rw [(lets new).2] at happens
        cases happens
      cases event with
      | reset =>
          refine .restart ?_
          show liveCount clock.now (counter.tally (calls ++ [(call, clock)])) = 0
          rw [tally_append_event happens, FixedWindow.counted_reset]
          rfl
      | hit now =>
          obtain ⟨rfl, inside, ip, email, records⟩ := hits now happens
          refine .count mover inside ?_ (fewer old) fun left => ?_
          · show liveCount clock.now (counter.tally (calls ++ [(call, clock)])) =
              liveCount clock.now (counter.tally calls) + 1
            rw [tally_append_event happens, FixedWindow.counted_hit]
            exact FixedWindow.liveCount_some_hit counter.window_nonneg _
          · have history : own mover (⟨mover, query, answer⟩ :: trace) = ⟨query, answer⟩ :: own mover trace :=
              Interleave.own_cons_self (⟨mover, query, answer⟩) trace
            refine left.unrecorded ip email ?_
            rw [history, records]
            exact List.mem_cons_self

/-- **A call of the limiter keeps a counter guarded.** -/
theorem Guards.called {mover : ι} {query : Query} {answer : query.Answer} {next : query.Answer → Backend Response}
    (guards : Guards counter k trace t current) (asks : current mover = .ask query next)
    (run : Throttled host start logins trace t current)
    (run' : Throttled host start logins (⟨mover, query, answer⟩ :: trace) t'
      (Function.update current mover (next answer)))
    (overlap : Overlap k (fun i => counter.Of (logins i)) host start logins (⟨mover, query, answer⟩ :: trace))
    {call : LoginCall} {reply : Option Bool} (called : t.Called call reply t')
    (lets : counter.LetsIn ⟨query, answer⟩ → counter.Asked call ∧ reply = some false)
    (records : ∀ ip email, call = .recordFailure ip email →
      (⟨query, answer⟩ : Entry Query.Answer) = ⟨.recordFailure ip email, ()⟩) :
    Guards counter k (⟨mover, query, answer⟩ :: trace) t' (Function.update current mover (next answer)) := by
  obtain ⟨clock, after, order, stepped, time, calls⟩ := called
  obtain ⟨replied, counted_⟩ := guards.counts.step after order call
  rw [stepped] at replied counted_
  have before : (counter.gate clock.now t.calls trace current).Guarded counter.limit k :=
    (counter.gate_later after t.calls).guarded counter.limit_pos (overlap.earlier.inside run _ _) guards.guarded
  have here : Gate.Step counter.limit (counter.gate clock.now t.calls trace current)
      (counter.gate clock.now (t.calls ++ [(call, clock)]) (⟨mover, query, answer⟩ :: trace)
        (Function.update current mover (next answer))) := by
    refine LoginCounter.gate_step asks (fun new => ?_) fun now hits => ?_
    · -- the counter has just answered that it is below its limit
      obtain ⟨asked, unblocked⟩ := lets new
      refine ⟨?_, counter.event_asked asked⟩
      rw [unblocked, LoginCounter.answer_asked asked, Option.some.injEq] at replied
      refine Nat.lt_of_not_le fun full => ?_
      rw [(FixedWindow.reached_iff counter.limit_pos _).mpr full] at replied
      cases replied
    · obtain ⟨same, ip, email, rfl, own_⟩ := LoginCounter.event_hit hits
      refine ⟨same, ?_, ip, email, records ip email rfl⟩
      cases records ip email rfl
      exact LoginCounter.Inside.of_recording run asks own_
  have now : (counter.gate clock.now (t.calls ++ [(call, clock)]) (⟨mover, query, answer⟩ :: trace)
      (Function.update current mover (next answer))).Guarded counter.limit k :=
    here.guarded counter.limit_pos (overlap.earlier.inside run _ _) before
  have latest : ∀ other ∈ t.calls, other.2.now ≤ clock.now := fun other member =>
    le_trans (guards.latest other member) after
  refine ⟨by rw [time, calls]; exact counted_, ?_, ?_, ?_, ?_⟩
  · rw [time, calls]
    exact (counter.gate_later order _).guarded counter.limit_pos (overlap.inside run' _ _) now
  · rw [calls]
    intro early begins c held
    rcases List.prefix_concat_iff.mp begins with rfl | begins
    · cases happens : counter.event (call, clock) with
      | none =>
          rw [LoginCounter.tally_append happens] at held
          exact guards.bounded t.calls (List.prefix_refl _) c held
      | some event =>
          have low : liveCount clock.now (counter.tally (t.calls ++ [(call, clock)])) < counter.limit + k :=
            now.count_lt
          rw [LoginCounter.tally_append_event happens] at held low
          cases event with
          | reset =>
              rw [FixedWindow.counted_reset] at held
              cases held
          | hit at_ =>
              obtain ⟨rfl, _⟩ := LoginCounter.event_hit happens
              rw [FixedWindow.counted_hit] at held low
              rw [FixedWindow.liveCount_some_hit counter.window_nonneg,
                ← FixedWindow.liveCount_hit counter.window] at low
              cases held
              exact low
    · exact guards.bounded early begins c held
  · rw [calls, List.map_append, List.pairwise_append]
    refine ⟨guards.sorted, List.pairwise_singleton _ _, fun x member y last => ?_⟩
    obtain ⟨other, among, rfl⟩ := List.mem_map.mp member
    rw [List.mem_singleton.mp last]
    exact latest other among
  · rw [calls, time]
    intro other member
    rcases List.mem_append.mp member with member | member
    · exact le_trans (latest other member) order
    · rw [List.mem_singleton.mp member]
      exact order

/-- **Any other query keeps a counter guarded.** -/
theorem Guards.aside {mover : ι} {query : Query} {answer : query.Answer} {next : query.Answer → Backend Response}
    (guards : Guards counter k trace t current) (asks : current mover = .ask query next)
    (run : Throttled host start logins trace t current)
    (overlap : Overlap k (fun i => counter.Of (logins i)) host start logins (⟨mover, query, answer⟩ :: trace))
    (none : ¬ counter.LetsIn ⟨query, answer⟩) :
    Guards counter k (⟨mover, query, answer⟩ :: trace) t (Function.update current mover (next answer)) := by
  refine { guards with guarded := ?_ }
  have here : Gate.Step counter.limit (counter.gate t.time t.calls trace current)
      (counter.gate t.time t.calls (⟨mover, query, answer⟩ :: trace)
        (Function.update current mover (next answer))) :=
    .leave rfl fun i inside => (inside.before asks).resolve_right fun new => none new.2
  exact here.guarded counter.limit_pos (overlap.earlier.inside run _ _) guards.guarded

theorem LoginCounter.not_letsIn {query : Query} {answer : query.Answer} (unlimited : query.Unlimited) :
    ¬ counter.LetsIn ⟨query, answer⟩ := by
  intro lets
  cases counter with
  | ofIP key =>
      cases query with
      | checkIP => exact unlimited
      | _ => exact lets
  | ofIPAndEmail key =>
      cases query with
      | checkIPAndEmail => exact unlimited
      | _ => exact lets

/-- **Every counter is guarded along a run.** -/
theorem Throttled.guards (run : Throttled host start logins trace t current)
    (overlap : Overlap k (fun i => counter.Of (logins i)) host start logins trace) :
    Guards counter k trace t current := by
  induction run with
  | nil =>
      refine ⟨⟨fun _ => rfl, fun _ => rfl⟩, ?_, ?_, List.Pairwise.nil, fun _ member => absurd member List.not_mem_nil⟩
      · exact fun full => absurd full (Nat.not_le.mpr counter.limit_pos)
      · intro calls begins c held
        rw [List.prefix_nil.mp begins] at held
        cases held
  | @step past t t' current mover query next answer run asks here ih =>
      have guards := ih overlap.earlier
      have run' : Throttled host start logins (⟨mover, query, answer⟩ :: past) t'
          (Function.update current mover (next answer)) := .step mover answer run asks here
      cases query with
      | checkIP ip =>
          refine guards.called asks run run' overlap here (fun lets => ?_) fun _ _ same => by cases same
          cases counter with
          | ofIP key => exact ⟨lets.1, congrArg some lets.2⟩
          | ofIPAndEmail key => exact lets.elim
      | checkIPAndEmail ip email =>
          refine guards.called asks run run' overlap here (fun lets => ?_) fun _ _ same => by cases same
          cases counter with
          | ofIP key => exact lets.elim
          | ofIPAndEmail key => exact ⟨lets.1, congrArg some lets.2⟩
      | recordFailure ip email =>
          refine guards.called asks run run' overlap here (fun lets => ?_) fun _ _ same => by
            cases same
            rfl
          cases counter with
          | ofIP key => exact lets.elim
          | ofIPAndEmail key => exact lets.elim
      | resetOnSuccess ip email =>
          refine guards.called asks run run' overlap here (fun lets => ?_) fun _ _ same => by cases same
          exact absurd lets (counter.not_letsIn trivial)
      | _ =>
          cases here
          exact guards.aside asks run overlap (counter.not_letsIn trivial)

/-- **Failed logins are few, even when logins overlap.** -/
theorem login_failures_bounded (run : Throttled host start logins trace t current)
    (overlap : Overlap k (fun i => counter.Of (logins i)) host start logins trace)
    {before stretch after : List (LoginCall × Clock)} (split : t.calls = before ++ stretch ++ after)
    (kept : ∀ call ∈ stretch, counter.event call ≠ some .reset) {a b : Int} (near : b - a ≤ counter.window) :
    within a b (counter.failures stretch) ≤ 2 * (counter.limit + k - 1) := by
  have guards := Throttled.guards run overlap
  have sorted : ((stretch.map fun call => call.2.now)).Pairwise (· ≤ ·) := by
    refine guards.sorted.sublist ?_
    rw [split, List.map_append, List.map_append]
    exact (List.sublist_append_right _ _).trans (List.sublist_append_left _ _)
  refine FixedWindow.within_le (before.filterMap counter.event) near
    (sorted.sublist (counter.failures_sublist stretch)) fun early later failed c held => ?_
  unfold LoginCounter.failures at failed
  rw [List.filterMap_filterMap, List.filterMap_eq_append_iff] at failed
  obtain ⟨first, rest, rfl, rfl, _⟩ := failed
  rw [← List.filterMap_filterMap] at held
  have hits := counter.map_hit_failures fun call member => kept call (List.mem_append_left rest member)
  have reached : counter.tally (before ++ first) = some c := by
    unfold LoginCounter.tally
    rw [List.filterMap_append, ← hits]
    exact held
  have begins : before ++ first <+: t.calls := by
    rw [split, ← List.append_assoc, List.append_assoc]
    exact List.prefix_append _ _
  have low := guards.bounded (before ++ first) begins c reached
  omega

end Gate

/-! ### A run of two logins -/

/-- A query answered by the limiter at a given time, and by the input otherwise. -/
def Query.respondThrottled : (query : Query) → Input → Throttle → query.Answer × Throttle
  | .checkIP ip, input, t => call (.checkIP ip) input t fun reply => reply.getD false
  | .checkIPAndEmail ip email, input, t => call (.checkIPAndEmail ip email) input t fun reply => reply.getD false
  | .recordFailure ip email, input, t => call (.recordFailure ip email) input t fun _ => ()
  | .resetOnSuccess ip email, input, t => call (.resetOnSuccess ip email) input t fun _ => ()
  | query, input, t => ((query.respond input createTables).1, t)
where
  call {α : Type} (call : LoginCall) (input : Input) (t : Throttle) (read : Option Bool → α) : α × Throttle :=
    let now := max t.time input.instant
    (read (t.limiter.step ⟨now, now⟩ call).1,
      { limiter := (t.limiter.step ⟨now, now⟩ call).2, time := now, calls := t.calls ++ [(call, ⟨now, now⟩)] })

theorem Query.throttled_respond (query : Query) (input : Input) (t : Throttle) :
    query.throttled t (query.respondThrottled input t).1 (query.respondThrottled input t).2 := by
  cases query with
  | checkIP | checkIPAndEmail | recordFailure | resetOnSuccess =>
      exact ⟨_, le_max_left _ _, Int.le_refl _, rfl, rfl, rfl⟩
  | _ => exact rfl

/-- A login of an unknown user. -/
def strangerLogin : Login := ("192.0.2.1", .json { email := "nobody@example.com", password := "secret" })

/-- Two of them at once: both have passed the checks before the first failure is counted. -/
def strangersRun : Interleave.Config Bool Query.Answer Throttle Response :=
  Interleave.Config.play Query.respondThrottled
    ⟨[], newThrottle 0, fun _ => serve sampleHost (.login strangerLogin.1 strangerLogin.2)⟩
    (stepsOf false 3 { instant := 7 } ++ stepsOf true 3 { instant := 7 } ++ stepsOf false 1 { instant := 8 } ++
      stepsOf true 1 { instant := 9 })

theorem login_failures_bounded_stranger :
    (LoginCounter.ofIP "192.0.2.1").failures strangersRun.store.calls = [8, 9] ∧
      within 8 9 ((LoginCounter.ofIP "192.0.2.1").failures strangersRun.store.calls) ≤
        2 * ((LoginCounter.ofIP "192.0.2.1").limit + 2 - 1) := by
  refine ⟨by decide +kernel, ?_⟩
  have run : Throttled sampleHost 0 (fun _ : Bool => strangerLogin) strangersRun.past strangersRun.store
      strangersRun.current := Run.of_schedule Query.throttled_respond _ Run.nil
  have calls : strangersRun.store.calls = [] ++ strangersRun.store.calls ++ [] := (List.append_nil _).symm
  refine login_failures_bounded run (fun _ _ _ _ _ threads _ => ?_) calls (fun call _ => ?_) (by decide)
  · exact Finset.card_le_univ threads
  · exact LoginCounter.ofIP_kept _ call

end Wuflow

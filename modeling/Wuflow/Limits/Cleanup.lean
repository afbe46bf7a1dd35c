/-
**Cleaning up is invisible.**

The limiters drop entries of other keys now and then. Their answers are those of counters that are never
dropped, one for each key:

* `KeyedLimiter.answers_eq` — `allow`; `RateLimiter.answers_eq` — failed logins.
* `limiterKey_eq_iff` — which addresses share a counter; `emailKey_eq_iff` — with an email.
* `cleanup_invisible` — all of it.
-/

import Wuflow.Backend.RateLimit

namespace Wuflow

open FixedWindow (Alike AllAlike Event counters)
open Netip (Addr)

/-- The clock does not go back, from call to call and within one. -/
def Clocked : Int → List Clock → Prop
  | _, [] => True
  | start, clock :: clocks => start ≤ clock.now ∧ clock.now ≤ clock.later ∧ Clocked clock.later clocks

instance decidableClocked (start : Int) : (clocks : List Clock) → Decidable (Clocked start clocks)
  | [] => .isTrue trivial
  | clock :: clocks =>
      have := decidableClocked clock.later clocks
      inferInstanceAs (Decidable (_ ∧ _ ∧ _))

theorem cleanup_alike {κ : Type} {later : Int} {entries others : κ → Option FailEntry}
    (alike : AllAlike later entries others) : AllAlike later (cleanup later entries) others := by
  refine FixedWindow.prune_alike ?_ alike
  unfold rlMaxAge minute
  omega

/-! ### One key -/

section Keyed

variable {κ : Type} [DecidableEq κ] {rl : KeyedLimiter κ} {key : κ} {clock : Clock} {start : Int}

/-- What `allow` answers in turn. -/
def KeyedLimiter.answers (rl : KeyedLimiter κ) : List (κ × Clock) → List (Option Bool)
  | [] => []
  | (key, clock) :: calls => (rl.allow key clock).1 :: (rl.allow key clock).2.answers calls

/-- A call is a hit of its own key. -/
def callEvent (key : κ) (call : κ × Clock) : Option Event :=
  if call.1 = key then some (.hit call.2.now) else none

theorem callEvent_apply (key : κ) (clock : Clock) (k : κ) :
    callEvent k (key, clock) = if key = k then some (.hit clock.now) else none := rfl

/-- **The answers of independent counters**, which see only the calls for their own key, after `past`. -/
def independentAnswers (limit window : Int) (past : List (κ × Clock)) : List (κ × Clock) → List Bool
  | [] => []
  | (key, clock) :: calls =>
      FixedWindow.allows limit clock.now (counters window callEvent past key) ::
        independentAnswers limit window (past ++ [(key, clock)]) calls

theorem KeyedLimiter.allow_eq :
    rl.allow key clock =
      (if rl.cleanupEvery = 0 then none else some (FixedWindow.allows rl.max clock.now (rl.counts key)),
        KeyedLimiter.recordCall { rl with
          counts := Function.update rl.counts key (some (FixedWindow.hit rl.window clock.now (rl.counts key))) }
          clock.later) := by
  unfold KeyedLimiter.allow
  cases rl.counts key with
  | none => rfl
  | some e =>
      by_cases ended : clock.now > e.windowEnd
      · rw [FixedWindow.allows_of_ended ended, FixedWindow.hit_of_ended ended]
        exact if_pos ended
      · rw [FixedWindow.allows_of_open ended, FixedWindow.hit_of_open ended]
        exact if_neg ended

/-- The limiter counts like the independent counters after `past`. -/
def KeyedLimiter.Counts (rl : KeyedLimiter κ) (now : Int) (past : List (κ × Clock)) : Prop :=
  AllAlike now rl.counts (counters rl.window callEvent past)

theorem KeyedLimiter.Counts.recordCall {now : Int} {past : List (κ × Clock)} (counts : rl.Counts now past) :
    (rl.recordCall now).Counts now past ∧ (rl.recordCall now).max = rl.max ∧
      (rl.recordCall now).window = rl.window ∧ (rl.recordCall now).cleanupEvery = rl.cleanupEvery := by
  by_cases due : (rl.calls + 1).tmod rl.cleanupEvery = 0
  · have cleaned : rl.recordCall now = { rl with calls := rl.calls + 1, counts := cleanup now rl.counts } :=
      if_pos due
    rw [cleaned]
    exact ⟨cleanup_alike counts, rfl, rfl, rfl⟩
  · have kept : rl.recordCall now = { rl with calls := rl.calls + 1 } := if_neg due
    rw [kept]
    exact ⟨counts, rfl, rfl, rfl⟩

/-- One call. -/
theorem KeyedLimiter.Counts.allow {past : List (κ × Clock)} (counts : rl.Counts start past) (key : κ)
    (after : start ≤ clock.now) (order : clock.now ≤ clock.later) :
    ((rl.allow key clock).1 = if rl.cleanupEvery = 0 then none else
      some (FixedWindow.allows rl.max clock.now (counters rl.window callEvent past key))) ∧
    (rl.allow key clock).2.Counts clock.later (past ++ [(key, clock)]) ∧
    (rl.allow key clock).2.max = rl.max ∧ (rl.allow key clock).2.window = rl.window ∧
    (rl.allow key clock).2.cleanupEvery = rl.cleanupEvery := by
  have now : AllAlike clock.now rl.counts (counters rl.window callEvent past) := counts.later after
  rw [allow_eq]
  refine ⟨by rw [(now key).allows_eq], KeyedLimiter.Counts.recordCall ?_⟩
  unfold KeyedLimiter.Counts
  dsimp only
  rw [FixedWindow.counters_hit (callEvent_apply key clock), (now key).hit_eq]
  exact (now.later order).update key (Alike.refl _ _)

/-- **`allow` answers like independent counters.** -/
theorem KeyedLimiter.answers_eq {past calls : List (κ × Clock)} (counts : rl.Counts start past)
    (clocked : Clocked start (calls.map Prod.snd)) :
    rl.answers calls = (independentAnswers rl.max rl.window past calls).map fun b =>
      if rl.cleanupEvery = 0 then none else some b := by
  induction calls generalizing rl start past with
  | nil => rfl
  | cons call calls ih =>
      obtain ⟨key, clock⟩ := call
      obtain ⟨after, order, rest⟩ := clocked
      obtain ⟨answer, next, max, window, cleanupEvery⟩ := counts.allow key after order
      unfold KeyedLimiter.answers independentAnswers
      rw [List.map_cons, answer, ih next rest, max, window, cleanupEvery]

theorem newKeyedLimiter_answers (limit window cleanupEvery : Int) {calls : List (κ × Clock)}
    (clocked : Clocked start (calls.map Prod.snd)) :
    (newKeyedLimiter limit window cleanupEvery).answers calls =
      (independentAnswers limit window [] calls).map fun b => if cleanupEvery = 0 then none else some b :=
  KeyedLimiter.answers_eq (fun _ => Alike.refl start _) clocked

end Keyed

/-! ### Failed logins -/

inductive LoginCall
  | checkIP (ip : String)
  | checkIPAndEmail (ip email : String)
  | recordFailure (ip email : String)
  | resetOnSuccess (ip email : String)

namespace RateLimiter

variable {rl : RateLimiter} {start : Int} {clock : Clock} {past calls : List (LoginCall × Clock)}

def step (rl : RateLimiter) (clock : Clock) : LoginCall → Option Bool × RateLimiter
  | .checkIP ip => (some (rl.checkIP ip clock).1, (rl.checkIP ip clock).2)
  | .checkIPAndEmail ip email => (some (rl.checkIPAndEmail ip email clock).1, (rl.checkIPAndEmail ip email clock).2)
  | .recordFailure ip email => (none, rl.recordFailure ip email clock)
  | .resetOnSuccess ip email => (none, rl.resetOnSuccess ip email)

/-- What the calls answer in turn. -/
def answers (rl : RateLimiter) : List (LoginCall × Clock) → List (Option Bool)
  | [] => []
  | (call, clock) :: calls => (rl.step clock call).1 :: (rl.step clock call).2.answers calls

/-- What a call does to the counter of an address. -/
def ipEvent (key : String) : LoginCall × Clock → Option Event
  | (.recordFailure ip _, clock) => if limiterKey ip = key then some (.hit clock.now) else none
  | _ => none

/-- What a call does to the counter of an address and an email. -/
def emailEvent (key : String) : LoginCall × Clock → Option Event
  | (.recordFailure ip email, clock) => if emailKey ip email = key then some (.hit clock.now) else none
  | (.resetOnSuccess ip email, _) => if emailKey ip email = key then some .reset else none
  | _ => none

theorem ipEvent_recordFailure (ip email : String) (clock : Clock) (key : String) :
    ipEvent key (.recordFailure ip email, clock) =
      if limiterKey ip = key then some (.hit clock.now) else none := rfl

theorem emailEvent_recordFailure (ip email : String) (clock : Clock) (key : String) :
    emailEvent key (.recordFailure ip email, clock) =
      if emailKey ip email = key then some (.hit clock.now) else none := rfl

theorem emailEvent_resetOnSuccess (ip email : String) (clock : Clock) (key : String) :
    emailEvent key (.resetOnSuccess ip email, clock) =
      if emailKey ip email = key then some .reset else none := rfl

/-- The answer of the counters that have seen `past`. -/
def independentAnswer (past : List (LoginCall × Clock)) (clock : Clock) : LoginCall → Option Bool
  | .checkIP ip =>
      some (FixedWindow.reached ipMaxFailures clock.now (counters ipWindow ipEvent past (limiterKey ip)))
  | .checkIPAndEmail ip email =>
      some (FixedWindow.reached emailMaxFailures clock.now
        (counters emailWindow emailEvent past (emailKey ip email)))
  | .recordFailure .. => none
  | .resetOnSuccess .. => none

/-- **The answers of independent counters**, which only failures and resets of their own key change. -/
def independentAnswers (past : List (LoginCall × Clock)) : List (LoginCall × Clock) → List (Option Bool)
  | [] => []
  | (call, clock) :: calls =>
      independentAnswer past clock call :: independentAnswers (past ++ [(call, clock)]) calls

/-- The limiter counts like the independent counters after `past`. -/
structure Counts (rl : RateLimiter) (now : Int) (past : List (LoginCall × Clock)) : Prop where
  byIP : AllAlike now rl.byIP (counters ipWindow ipEvent past)
  byIPAndEmail : AllAlike now rl.byIPAndEmail (counters emailWindow emailEvent past)

theorem Counts.later {now soon : Int} (counts : rl.Counts now past) (order : now ≤ soon) :
    rl.Counts soon past :=
  ⟨counts.byIP.later order, counts.byIPAndEmail.later order⟩

theorem isBlocked_alike {m others : String → Option FailEntry} {now : Int} (alike : AllAlike now m others)
    (key : String) (limit : Nat) :
    (isBlocked m key limit now).1 = FixedWindow.reached limit now (others key) ∧
      AllAlike now (isBlocked m key limit now).2 others := by
  rw [← (alike key).reached_eq]
  unfold isBlocked
  cases found : m key with
  | none => exact ⟨rfl, alike⟩
  | some e =>
      by_cases ended : now > e.windowEnd
      · dsimp only
        rw [if_pos ended, FixedWindow.reached_of_ended ended]
        refine ⟨rfl, alike.update_left ?_⟩
        rw [found]
        exact FixedWindow.alike_none ended
      · dsimp only
        rw [if_neg ended, FixedWindow.reached_of_open ended]
        exact ⟨rfl, alike⟩

theorem recordIn_eq (m : String → Option FailEntry) (key : String) (window now : Int) :
    recordIn m key window now = Function.update m key (some (FixedWindow.hit window now (m key))) := by
  unfold recordIn
  cases m key with
  | none => rfl
  | some e =>
      by_cases ended : now > e.windowEnd
      · rw [FixedWindow.hit_of_ended ended]
        exact if_pos ended
      · rw [FixedWindow.hit_of_open ended]
        exact if_neg ended

theorem recordIn_alike {m others : String → Option FailEntry} {now : Int} (alike : AllAlike now m others)
    (key : String) (window : Int) :
    AllAlike now (recordIn m key window now)
      (Function.update others key (some (FixedWindow.hit window now (others key)))) := by
  rw [recordIn_eq, (alike key).hit_eq]
  exact alike.update key (Alike.refl _ _)

theorem Counts.recordFailure (counts : rl.Counts clock.now past) (order : clock.now ≤ clock.later)
    (ip email : String) :
    (rl.recordFailure ip email clock).Counts clock.later (past ++ [(.recordFailure ip email, clock)]) := by
  have recorded : Counts
      { byIP := recordIn rl.byIP (limiterKey ip) ipWindow clock.now
        byIPAndEmail := recordIn rl.byIPAndEmail (emailKey ip email) emailWindow clock.now
        calls := rl.calls + 1 } clock.later (past ++ [(.recordFailure ip email, clock)]) := by
    refine Counts.later ⟨?_, ?_⟩ order
    · rw [FixedWindow.counters_hit (ipEvent_recordFailure ip email clock)]
      exact recordIn_alike counts.byIP (limiterKey ip) ipWindow
    · rw [FixedWindow.counters_hit (emailEvent_recordFailure ip email clock)]
      exact recordIn_alike counts.byIPAndEmail (emailKey ip email) emailWindow
  unfold RateLimiter.recordFailure
  dsimp only
  split
  · exact ⟨cleanup_alike recorded.byIP, cleanup_alike recorded.byIPAndEmail⟩
  · exact recorded

theorem Counts.resetOnSuccess (counts : rl.Counts clock.now past) (order : clock.now ≤ clock.later)
    (ip email : String) :
    (rl.resetOnSuccess ip email).Counts clock.later (past ++ [(.resetOnSuccess ip email, clock)]) := by
  refine Counts.later ⟨?_, ?_⟩ order
  · rw [FixedWindow.counters_other fun _ => rfl]
    exact counts.byIP
  · rw [FixedWindow.counters_reset (emailEvent_resetOnSuccess ip email clock)]
    exact counts.byIPAndEmail.update (emailKey ip email) (Alike.refl _ _)

/-- One call. -/
theorem Counts.step (counts : rl.Counts start past) (after : start ≤ clock.now)
    (order : clock.now ≤ clock.later) (call : LoginCall) :
    (rl.step clock call).1 = independentAnswer past clock call ∧
      (rl.step clock call).2.Counts clock.later (past ++ [(call, clock)]) := by
  have now := counts.later after
  cases call with
  | checkIP ip =>
      obtain ⟨answer, left⟩ := isBlocked_alike now.byIP (limiterKey ip) ipMaxFailures
      refine ⟨congrArg some answer, Counts.later ⟨?_, ?_⟩ order⟩
      · rw [FixedWindow.counters_other fun _ => rfl]
        exact left
      · rw [FixedWindow.counters_other fun _ => rfl]
        exact now.byIPAndEmail
  | checkIPAndEmail ip email =>
      obtain ⟨answer, left⟩ := isBlocked_alike now.byIPAndEmail (emailKey ip email) emailMaxFailures
      refine ⟨congrArg some answer, Counts.later ⟨?_, ?_⟩ order⟩
      · rw [FixedWindow.counters_other fun _ => rfl]
        exact now.byIP
      · rw [FixedWindow.counters_other fun _ => rfl]
        exact left
  | recordFailure ip email => exact ⟨rfl, now.recordFailure order ip email⟩
  | resetOnSuccess ip email => exact ⟨rfl, now.resetOnSuccess order ip email⟩

/-- **Failed logins are counted as by independent counters.** -/
theorem answers_eq (counts : rl.Counts start past) (clocked : Clocked start (calls.map Prod.snd)) :
    rl.answers calls = independentAnswers past calls := by
  induction calls generalizing rl start past with
  | nil => rfl
  | cons call calls ih =>
      obtain ⟨call, clock⟩ := call
      obtain ⟨after, order, rest⟩ := clocked
      obtain ⟨answer, next⟩ := counts.step after order call
      unfold answers independentAnswers
      rw [answer, ih next rest]

end RateLimiter

/-! ### Shared counters -/

section Keys

variable {ip ip' : String} {a b : Addr}

/-- One IPv4 address, or two IPv6 addresses with the same first 64 bits. -/
def SharesCounter : Addr → Addr → Prop
  | .v4 a, .v4 b => a = b
  | .v6 hi _ _, .v6 hi' _ _ => hi = hi'
  | _, _ => False

theorem limiterKey_v4 {bits : BitVec 32} (parsed : parseIP ip = some (.v4 bits)) :
    limiterKey ip = (Addr.v4 bits).text := by
  unfold limiterKey
  rw [parsed]

theorem limiterKey_v6 {hi lo : BitVec 64} {zone : String} (parsed : parseIP ip = some (.v6 hi lo zone)) :
    limiterKey ip = ((Addr.v6 hi lo zone).network 64).text := by
  unfold limiterKey
  rw [parsed]
  rfl

/-- An IPv4 address has no colon, and an IPv6 network has. -/
theorem text_v4_ne_network (bits : BitVec 32) (hi lo : BitVec 64) (zone : String) :
    (Addr.v4 bits).text ≠ ((Addr.v6 hi lo zone).network 64).text := by
  intro same
  have colon : ':' ∈ (Addr.v4 bits).text.toList := same ▸ Netip.colon_mem_network_text hi lo zone
  rcases Netip.mem_text_v4 colon with dot | digit
  · exact absurd dot (by decide)
  · exact absurd digit (by decide)

/-- **Which addresses share a counter.** -/
theorem limiterKey_eq_iff (parsed : parseIP ip = some a) (parsed' : parseIP ip' = some b) :
    limiterKey ip = limiterKey ip' ↔ SharesCounter a b := by
  cases a with
  | v4 bits =>
      rw [limiterKey_v4 parsed]
      cases b with
      | v4 bits' =>
          rw [limiterKey_v4 parsed']
          exact ⟨Addr.text_v4_inj, fun same => congrArg (fun bits => (Addr.v4 bits).text) same⟩
      | v6 hi lo zone =>
          rw [limiterKey_v6 parsed']
          exact iff_of_false (text_v4_ne_network bits hi lo zone) not_false
  | v6 hi lo zone =>
      rw [limiterKey_v6 parsed]
      cases b with
      | v4 bits =>
          rw [limiterKey_v4 parsed']
          exact iff_of_false (fun same => text_v4_ne_network bits hi lo zone same.symm) not_false
      | v6 hi' lo' zone' =>
          rw [limiterKey_v6 parsed']
          exact Netip.network_text_eq_iff

/-- The key of an address has no bar. -/
theorem bar_not_mem_limiterKey (parsed : parseIP ip = some a) : '|' ∉ (limiterKey ip).toList := by
  intro bar
  cases a with
  | v4 bits =>
      rw [limiterKey_v4 parsed] at bar
      rcases Netip.mem_text_v4 bar with dot | digit
      · exact absurd dot (by decide)
      · exact absurd digit (by decide)
  | v6 hi lo zone =>
      rw [limiterKey_v6 parsed] at bar
      rcases Netip.mem_network_text bar with colon | slash | hex
      · exact absurd colon (by decide)
      · exact absurd slash (by decide)
      · exact absurd hex (by decide)

theorem emailKey_eq_iff (parsed : parseIP ip = some a) (parsed' : parseIP ip' = some b)
    (email email' : String) :
    emailKey ip email = emailKey ip' email' ↔ SharesCounter a b ∧ email = email' := by
  rw [← limiterKey_eq_iff parsed parsed']
  constructor
  · intro same
    have texts : (limiterKey ip).toList ++ '|' :: email.toList =
        (limiterKey ip').toList ++ '|' :: email'.toList := by
      have texts := congrArg String.toList same
      simpa [emailKey] using texts
    obtain ⟨keys, emails⟩ := Join.append_cons_inj (bar_not_mem_limiterKey parsed)
      (bar_not_mem_limiterKey parsed') texts
    exact ⟨String.toList_inj.mp keys, String.toList_inj.mp emails⟩
  · rintro ⟨keys, rfl⟩
    unfold emailKey
    rw [keys]

end Keys

/-! ### The result -/

/-- **Cleaning up is invisible**, and addresses share a counter iff they are one IPv4 address or in one IPv6
network of 64 bits. -/
theorem cleanup_invisible :
    (∀ (κ : Type) [DecidableEq κ] (limit window cleanupEvery start : Int) (calls : List (κ × Clock)),
      Clocked start (calls.map Prod.snd) →
      (newKeyedLimiter limit window cleanupEvery).answers calls =
        (independentAnswers limit window [] calls).map fun b => if cleanupEvery = 0 then none else some b) ∧
    (∀ (start : Int) (calls : List (LoginCall × Clock)), Clocked start (calls.map Prod.snd) →
      loginLimiter.answers calls = RateLimiter.independentAnswers [] calls) ∧
    ∀ (ip ip' : String) (a b : Addr), parseIP ip = some a → parseIP ip' = some b →
      (limiterKey ip = limiterKey ip' ↔ SharesCounter a b) ∧
      ∀ email email' : String, emailKey ip email = emailKey ip' email' ↔
        SharesCounter a b ∧ email = email' := by
  refine ⟨?_, ?_, ?_⟩
  · intro κ _ limit window cleanupEvery start calls clocked
    exact newKeyedLimiter_answers limit window cleanupEvery clocked
  · intro start calls clocked
    exact RateLimiter.answers_eq ⟨fun _ => Alike.refl start _, fun _ => Alike.refl start _⟩ clocked
  · intro ip ip' a b parsed parsed'
    exact ⟨limiterKey_eq_iff parsed parsed', emailKey_eq_iff parsed parsed'⟩

/-- Two calls for `0`, and an hour later one for `1` that drops the counter of `0`. -/
def lateCalls : List (Int × Clock) := [(0, ⟨1, 1⟩), (0, ⟨2, 2⟩), (1, ⟨2 * rlMaxAge, 2 * rlMaxAge⟩)]

theorem lateCalls_invisible :
    (newKeyedLimiter 1 minute 3).answers lateCalls = [some true, some false, some true] ∧
    loginLimiter.answers [(.recordFailure "1.2.3.4" "a@b.com", ⟨1, 1⟩), (.checkIP "1.2.3.4", ⟨2, 2⟩)] =
      [none, some false] ∧
    limiterKey "2001:db8::a" = limiterKey "2001:DB8:0:0::b" := by
  obtain ⟨keyed, login, keys⟩ := cleanup_invisible
  refine ⟨?_, ?_, ?_⟩
  · rw [keyed Int 1 minute 3 0 lateCalls (by unfold lateCalls; decide)]
    decide
  · rw [login 0 _ (by decide)]
    decide +kernel
  · exact (keys _ _ (.v6 0x20010db800000000 0xa "") (.v6 0x20010db800000000 0xb "") (by decide +kernel)
      (by decide +kernel)).1.mpr rfl

end Wuflow

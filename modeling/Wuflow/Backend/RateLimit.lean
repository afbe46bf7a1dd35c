/-
**Rate limits** (`ratelimit.go`).

Times are in nanoseconds. Every call reads the clock once for itself (`now`) and, if it cleans up, once more
(`later`).
-/

import Wuflow.Backend.ClientIP
import Wuflow.Limits.FixedWindow

namespace Wuflow

open Netip (Addr)

abbrev FailEntry := FixedWindow.Counter

def minute : Int := 60000000000

def ipMaxFailures : Nat := 20
def emailMaxFailures : Nat := 10
def ipWindow : Int := 15 * minute
def emailWindow : Int := 15 * minute
def rlCleanupEvery : Int := 500
def rlMaxAge : Int := 60 * minute

def apiMaxRequests : Int := 60
def apiRateWindow : Int := minute
def apiCleanupEvery : Int := 200

def refreshIPMax : Int := 10
def refreshIPWindow : Int := minute

def ipv6LimitPrefix : Nat := 64

/-- `limiterKey`. -/
def limiterKey (ip : String) : String :=
  match parseIP ip with
  | none => ip
  | some (.v4 bits) => (Addr.v4 bits).text
  | some addr => (addr.network ipv6LimitPrefix).text

/-- When a call runs. -/
structure Clock where
  now : Int
  later : Int

/-- `cleanup` of one map. -/
def cleanup {κ : Type} (later : Int) (entries : κ → Option FailEntry) : κ → Option FailEntry :=
  FixedWindow.prune (later - rlMaxAge) entries

/-! ### One key -/

section Keyed

variable {κ : Type} [DecidableEq κ]

structure KeyedLimiter (κ : Type) where
  counts : κ → Option FailEntry
  calls : Int
  max : Int
  window : Int
  cleanupEvery : Int

def newKeyedLimiter (limit window cleanupEvery : Int) : KeyedLimiter κ :=
  { counts := fun _ => none, calls := 0, max := limit, window, cleanupEvery }

def apiLimiter : KeyedLimiter Int := newKeyedLimiter apiMaxRequests apiRateWindow apiCleanupEvery

def refreshLimiter : KeyedLimiter String := newKeyedLimiter refreshIPMax refreshIPWindow rlCleanupEvery

/-- `recordCall`. -/
def KeyedLimiter.recordCall (rl : KeyedLimiter κ) (later : Int) : KeyedLimiter κ :=
  let rl := { rl with calls := rl.calls + 1 }
  if rl.calls.tmod rl.cleanupEvery = 0 then { rl with counts := cleanup later rl.counts } else rl

/-- `allow`: no answer means that `recordCall` has panicked, which it does by dividing by zero. -/
def KeyedLimiter.allow (rl : KeyedLimiter κ) (key : κ) (clock : Clock) : Option Bool × KeyedLimiter κ :=
  let answer := fun b => if rl.cleanupEvery = 0 then none else some b
  let put := fun entry : FailEntry => { rl with counts := Function.update rl.counts key (some entry) }
  match rl.counts key with
  | none => (answer true, (put ⟨1, clock.now + rl.window⟩).recordCall clock.later)
  | some e =>
      if clock.now > e.windowEnd then
        (answer true, (put ⟨1, clock.now + rl.window⟩).recordCall clock.later)
      else
        (answer (decide ((e.count : Int) + 1 ≤ rl.max)),
          (put ⟨e.count + 1, e.windowEnd⟩).recordCall clock.later)

end Keyed

/-! ### Failed logins -/

structure RateLimiter where
  byIP : String → Option FailEntry := fun _ => none
  byIPAndEmail : String → Option FailEntry := fun _ => none
  calls : Int := 0

def loginLimiter : RateLimiter := {}

/-- `isBlocked`, and the map that it leaves. -/
def isBlocked (m : String → Option FailEntry) (key : String) (limit : Nat) (now : Int) :
    Bool × (String → Option FailEntry) :=
  match m key with
  | none => (false, m)
  | some e =>
      if now > e.windowEnd then (false, Function.update m key none) else (decide (e.count ≥ limit), m)

/-- The key of an address and an email. -/
def emailKey (ip email : String) : String := limiterKey ip ++ "|" ++ email

/-- `record` in `recordFailure`. -/
def recordIn (m : String → Option FailEntry) (key : String) (window now : Int) : String → Option FailEntry :=
  match m key with
  | none => Function.update m key (some ⟨1, now + window⟩)
  | some e =>
      if now > e.windowEnd then Function.update m key (some ⟨1, now + window⟩)
      else Function.update m key (some ⟨e.count + 1, e.windowEnd⟩)

namespace RateLimiter

def checkIP (rl : RateLimiter) (ip : String) (clock : Clock) : Bool × RateLimiter :=
  let (blocked, byIP) := isBlocked rl.byIP (limiterKey ip) ipMaxFailures clock.now
  (blocked, { rl with byIP })

def checkIPAndEmail (rl : RateLimiter) (ip email : String) (clock : Clock) : Bool × RateLimiter :=
  let (blocked, byIPAndEmail) := isBlocked rl.byIPAndEmail (emailKey ip email) emailMaxFailures clock.now
  (blocked, { rl with byIPAndEmail })

def cleanup (rl : RateLimiter) (later : Int) : RateLimiter :=
  { rl with byIP := Wuflow.cleanup later rl.byIP, byIPAndEmail := Wuflow.cleanup later rl.byIPAndEmail }

def recordFailure (rl : RateLimiter) (ip email : String) (clock : Clock) : RateLimiter :=
  let rl : RateLimiter :=
    { byIP := recordIn rl.byIP (limiterKey ip) ipWindow clock.now
      byIPAndEmail := recordIn rl.byIPAndEmail (emailKey ip email) emailWindow clock.now
      calls := rl.calls + 1 }
  if rl.calls.tmod rlCleanupEvery = 0 then rl.cleanup clock.later else rl

def resetOnSuccess (rl : RateLimiter) (ip email : String) : RateLimiter :=
  { rl with byIPAndEmail := Function.update rl.byIPAndEmail (emailKey ip email) none }

end RateLimiter

end Wuflow

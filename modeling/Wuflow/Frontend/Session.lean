/-
**The session of a tab** (`api.js`, `session.js`).

`authFetch` sends a request, repeats a read once that did not reach the server, and on a 401 waits for the
renewal of the session and sends the request again. The calls that are refused at the same time share one
renewal (`singleFlight`); if the refresh is refused too, the renewal waits for the re-login dialog, which a
login here or one in another tab closes. Every `await` is a task of the event loop, so all of this may
happen in any order.

* `Tended` — what belongs to whom: each call and each renewal that is not over has one task, the running
  renewal is the one in flight, and an open dialog has its renewal waiting for it.
* `Told` — what a call has heard so far; what it returns is `Api.authFetch` of its own exchanges.
* `session_kept` — both, in every run: in particular one refresh at a time, and no write is sent again unless
  it was refused.
* `session_rests` — no call is lost and no request is repeated for ever: every run can be brought to an end,
  and is as long as its calls allow.
-/

import Wuflow.Frontend.Api
import Wuflow.Interleave.Tally
import Mathlib.Logic.Function.Basic

namespace Wuflow.Session

open Api (Response Fetched Thrown Exchanges)
open EventLoop (Machine Move Step Run Owned owned owned_single owned_cons Wanes load)

/-! ### The tab -/

/-- What the scripts of a tab read and write. `inFlight` is the promise of `renewSessionOnce`, `checking`
whether `closeDialogIfSessionValid` has one, `pendingReauth` the open dialog; calls, renewals and dialogs are
numbered, and what their promises have settled with is in `ended`, `renewed` and `closed`. -/
structure Tab (α : Type) where
  sessionExpiredHandler : Bool := false
  location : String := "/"
  inFlight : Option Nat := none
  pendingReauth : Option Nat := none
  checking : Bool := false
  calls : Nat := 0
  isRead : Nat → Bool := fun _ => false
  ended : Nat → Option (Except Thrown (Response α)) := fun _ => none
  renewals : Nat := 0
  renewed : Nat → Option (Except Thrown Bool) := fun _ => none
  dialogs : Nat := 0
  closed : Nat → Bool := fun _ => false

/-- `onReturn` is called when the user comes back to the tab; its probe is `due` when it is forced or the
last one is long enough ago. -/
inductive Call
  | setupSession
  | authFetch (isRead : Bool)
  | submitReauth
  | onReturn (due : Bool)

/-- Which of its requests a call has sent. -/
inductive Stage
  | first
  | again
  | replay
  deriving DecidableEq

/-- What is awaited: the request of a call, its renewal (with the response that was refused), the refresh and
the dialog of a renewal, the `finally` of `singleFlight` and the promise of the callers, the request of
`reauthenticate`, and `hasValidSession` with its own `finally`. -/
inductive Task (α : Type)
  | request (c : Nat) (stage : Stage)
  | renewal (c : Nat) (res : Response α) (r : Nat)
  | refresh (r : Nat)
  | dialog (r d : Nat)
  | cleanup (r : Nat) (outcome : Except Thrown Bool)
  | settle (r : Nat) (outcome : Except Thrown Bool)
  | reauthenticate
  | hasValidSession
  | checked

/-- What arrives: an answer with a body that is read, one whose status is enough, or the turn of a
promise. -/
inductive Answer (α : Type)
  | fetched (f : Fetched α)
  | plain (f : Fetched Unit)
  | turn

variable {α : Type}

/-- What `authFetch` returns in the end. -/
def returned (res : Response α) : Response α := if res.status = 429 then Api.tooManyRequests else res

namespace Tab

def finish (s : Tab α) (c : Nat) (result : Except Thrown (Response α)) : Tab α × List (Task α) :=
  ({ s with ended := Function.update s.ended c (some result) }, [])

/-- `renewSessionOnce`, called by a call that was refused. -/
def renewSessionOnce (s : Tab α) (c : Nat) (res : Response α) : Tab α × List (Task α) :=
  match s.inFlight with
  | some r => (s, [.renewal c res r])
  | none =>
      ({ s with inFlight := some s.renewals, renewals := s.renewals + 1 },
        [.refresh s.renewals, .renewal c res s.renewals])

/-- `authFetch`, from an answer on. -/
def received (s : Tab α) (c : Nat) (stage : Stage) (f : Fetched α) : Tab α × List (Task α) :=
  match Api.rawFetch f, stage with
  | .error err, .first =>
      if !s.isRead c || err != .networkError then s.finish c (.error err) else (s, [.request c .again])
  | .error err, _ => s.finish c (.error err)
  | .ok res, .replay => s.finish c (.ok (returned res))
  | .ok res, _ => if res.status = 401 then s.renewSessionOnce c res else s.finish c (.ok (returned res))

/-- `authFetch`, from the end of the renewal on. -/
def resumed (s : Tab α) (c : Nat) (res : Response α) : Except Thrown Bool → Tab α × List (Task α)
  | .ok true => (s, [.request c .replay])
  | .ok false => s.finish c (.ok (returned res))
  | .error err => s.finish c (.error err)

/-- `showReauthDialog`, called by a renewal. -/
def showReauthDialog (s : Tab α) (r : Nat) : Tab α × List (Task α) :=
  match s.pendingReauth with
  | some d => (s, [.dialog r d])
  | none =>
      ({ s with pendingReauth := some s.dialogs, dialogs := s.dialogs + 1 }, [.dialog r s.dialogs])

/-- `renewSession`, from the answer to the refresh on. -/
def refreshed (s : Tab α) (r : Nat) (f : Fetched Unit) : Tab α × List (Task α) :=
  match Api.rawFetch f with
  | .error err => (s, [.cleanup r (.error err)])
  | .ok res =>
      if res.ok then (s, [.cleanup r (.ok true)])
      else if s.sessionExpiredHandler then s.showReauthDialog r
      else ({ s with location := "/login" }, [.cleanup r (.ok false)])

def finishReauth (s : Tab α) : Tab α :=
  match s.pendingReauth with
  | none => s
  | some d => { s with pendingReauth := none, closed := Function.update s.closed d true }

/-- `finishReauth` after a request that has reached the server and was accepted. -/
def reached (s : Tab α) (f : Fetched Unit) : Tab α :=
  match Api.rawFetch f with
  | .ok res => if res.ok then s.finishReauth else s
  | .error _ => s

def authFetch (s : Tab α) (isRead : Bool) : Tab α × List (Task α) :=
  ({ s with calls := s.calls + 1, isRead := Function.update s.isRead s.calls isRead },
    [.request s.calls .first])

/-- `closeDialogIfSessionValid`, while a dialog is open. -/
def closeDialogIfSessionValid (s : Tab α) : Tab α × List (Task α) :=
  if s.checking then (s, []) else ({ s with checking := true }, [.hasValidSession])

def call (s : Tab α) : Call → Tab α × List (Task α)
  | .setupSession => ({ s with sessionExpiredHandler := true }, [])
  | .authFetch isRead => s.authFetch isRead
  | .submitReauth => (s, [.reauthenticate])
  | .onReturn due =>
      if s.pendingReauth.isSome then s.closeDialogIfSessionValid
      else if due then s.authFetch true
      else (s, [])

def resume (s : Tab α) : Task α → Answer α → Option (Tab α × List (Task α))
  | .request c stage, .fetched f => some (s.received c stage f)
  | .renewal c res r, .turn => (s.renewed r).map (s.resumed c res)
  | .refresh r, .plain f => some (s.refreshed r f)
  | .dialog r d, .turn => if s.closed d then some (s, [.cleanup r (.ok true)]) else none
  | .cleanup r outcome, .turn => some ({ s with inFlight := none }, [.settle r outcome])
  | .settle r outcome, .turn => some ({ s with renewed := Function.update s.renewed r (some outcome) }, [])
  | .reauthenticate, .plain f => some (s.reached f, [])
  | .hasValidSession, .plain f => some (s.reached f, [.checked])
  | .checked, .turn => some ({ s with checking := false }, [])
  | _, _ => none

end Tab

/-- **The tab on the event loop.** -/
def tab : Machine (Tab α) Call (Task α) (Answer α) where
  call c s := some (s.call c)
  resume t a s := s.resume t a

/-! ### What a move does -/

section Moves

variable {s s' : Tab α} {new : List (Task α)}

/-- What a call does. -/
inductive Called (s : Tab α) : Tab α → List (Task α) → Prop
  | installs : Called s { s with sessionExpiredHandler := true } []
  | sends (isRead : Bool) : Called s (s.authFetch isRead).1 [.request s.calls .first]
  | logsIn : Called s s [.reauthenticate]
  | asks (idle : s.checking = false) : Called s { s with checking := true } [.hasValidSession]
  | nothing : Called s s []

theorem call_cases {c : Call} (acts : s.call c = (s', new)) : Called s s' new := by
  cases c with
  | setupSession =>
      cases acts
      exact .installs
  | authFetch isRead =>
      cases acts
      exact .sends isRead
  | submitReauth =>
      cases acts
      exact .logsIn
  | onReturn due =>
      simp only [Tab.call, Tab.closeDialogIfSessionValid] at acts
      split at acts
      · split at acts
        · cases acts
          exact .nothing
        · next idle =>
            cases acts
            exact .asks (Bool.not_eq_true _ ▸ idle)
      · split at acts
        · cases acts
          exact .sends true
        · cases acts
          exact .nothing

/-- What a call that has heard `f` returns without a renewal. -/
inductive Final (isRead : Bool) (stage : Stage) (f : Fetched α) : Except Thrown (Response α) → Prop
  | failed (err : Thrown) (failure : Api.rawFetch f = .error err)
      (last : stage = .first → isRead = true → err ≠ .networkError) : Final isRead stage f (.error err)
  | answered (res : Response α) (answer : Api.rawFetch f = .ok res)
      (last : stage ≠ .replay → res.status ≠ 401) : Final isRead stage f (.ok (returned res))

/-- What `renewSession` makes of the answer to the refresh without a dialog. -/
inductive Decided (handler : Bool) (f : Fetched Unit) : Except Thrown Bool → Prop
  | failed (err : Thrown) (failure : Api.rawFetch f = .error err) : Decided handler f (.error err)
  | renewed (res : Response Unit) (answer : Api.rawFetch f = .ok res) (ok : res.ok = true) :
      Decided handler f (.ok true)
  | redirected (res : Response Unit) (answer : Api.rawFetch f = .ok res) (refused : res.ok = false)
      (none : handler = false) : Decided handler f (.ok false)

/-- What happens to a task. -/
inductive Resumed (s : Tab α) : Task α → Answer α → Tab α → List (Task α) → Prop
  | again (c : Nat) (f : Fetched α) (read : s.isRead c = true) (missed : Api.rawFetch f = .error .networkError) :
      Resumed s (.request c .first) (.fetched f) s [.request c .again]
  | joins (c : Nat) (stage : Stage) (f : Fetched α) (res : Response α) (r : Nat) (early : stage ≠ .replay)
      (answer : Api.rawFetch f = .ok res) (refused : res.status = 401) (running : s.inFlight = some r) :
      Resumed s (.request c stage) (.fetched f) s [.renewal c res r]
  | renews (c : Nat) (stage : Stage) (f : Fetched α) (res : Response α) (early : stage ≠ .replay)
      (answer : Api.rawFetch f = .ok res) (refused : res.status = 401) (idle : s.inFlight = none) :
      Resumed s (.request c stage) (.fetched f)
        { s with inFlight := some s.renewals, renewals := s.renewals + 1 }
        [.refresh s.renewals, .renewal c res s.renewals]
  | ends (c : Nat) (stage : Stage) (f : Fetched α) (result : Except Thrown (Response α))
      (final : Final (s.isRead c) stage f result) :
      Resumed s (.request c stage) (.fetched f) (s.finish c result).1 []
  | replays (c : Nat) (res : Response α) (r : Nat) (renewed : s.renewed r = some (.ok true)) :
      Resumed s (.renewal c res r) .turn s [.request c .replay]
  | givesUp (c : Nat) (res : Response α) (r : Nat) (renewed : s.renewed r = some (.ok false)) :
      Resumed s (.renewal c res r) .turn (s.finish c (.ok (returned res))).1 []
  | rejects (c : Nat) (res : Response α) (r : Nat) (err : Thrown) (renewed : s.renewed r = some (.error err)) :
      Resumed s (.renewal c res r) .turn (s.finish c (.error err)).1 []
  | decides (r : Nat) (f : Fetched Unit) (outcome : Except Thrown Bool) (location : String)
      (decided : Decided s.sessionExpiredHandler f outcome) :
      Resumed s (.refresh r) (.plain f) { s with location } [.cleanup r outcome]
  | waits (r : Nat) (f : Fetched Unit) (res : Response Unit) (answer : Api.rawFetch f = .ok res)
      (refused : res.ok = false) (d : Nat) (shown : s.pendingReauth = some d) :
      Resumed s (.refresh r) (.plain f) s [.dialog r d]
  | shows (r : Nat) (f : Fetched Unit) (res : Response Unit) (answer : Api.rawFetch f = .ok res)
      (refused : res.ok = false) (hidden : s.pendingReauth = none) :
      Resumed s (.refresh r) (.plain f) { s with pendingReauth := some s.dialogs, dialogs := s.dialogs + 1 }
        [.dialog r s.dialogs]
  | loggedIn (r d : Nat) (closed : s.closed d = true) : Resumed s (.dialog r d) .turn s [.cleanup r (.ok true)]
  | cleanup (r : Nat) (outcome : Except Thrown Bool) :
      Resumed s (.cleanup r outcome) .turn { s with inFlight := none } [.settle r outcome]
  | settle (r : Nat) (outcome : Except Thrown Bool) :
      Resumed s (.settle r outcome) .turn { s with renewed := Function.update s.renewed r (some outcome) } []
  | reauthenticates (f : Fetched Unit) : Resumed s .reauthenticate (.plain f) (s.reached f) []
  | validates (f : Fetched Unit) : Resumed s .hasValidSession (.plain f) (s.reached f) [.checked]
  | checked : Resumed s .checked .turn { s with checking := false } []

theorem renewSessionOnce_cases {c : Nat} {stage : Stage} {f : Fetched α} {res : Response α}
    (early : stage ≠ .replay) (answer : Api.rawFetch f = .ok res) (refused : res.status = 401)
    (acts : s.renewSessionOnce c res = (s', new)) : Resumed s (.request c stage) (.fetched f) s' new := by
  simp only [Tab.renewSessionOnce] at acts
  split at acts
  · next r running =>
      cases acts
      exact .joins c stage f res r early answer refused running
  · next idle =>
      cases acts
      exact .renews c stage f res early answer refused idle

theorem received_cases {c : Nat} {stage : Stage} {f : Fetched α} (acts : s.received c stage f = (s', new)) :
    Resumed s (.request c stage) (.fetched f) s' new := by
  cases answer : Api.rawFetch f with
  | error err =>
      cases stage with
      | first =>
          simp only [Tab.received, answer] at acts
          split at acts
          · next finished =>
              cases acts
              refine .ends c .first f _ (.failed err answer fun _ read missed => ?_)
              rw [read, missed] at finished
              exact absurd finished (by decide)
          · next missed =>
              cases acts
              simp only [Bool.or_eq_true, Bool.not_eq_true', bne_iff_ne, ne_eq, not_or, Bool.not_eq_false,
                not_not] at missed
              exact .again c f missed.1 (missed.2 ▸ answer)
      | again =>
          simp only [Tab.received, answer] at acts
          cases acts
          exact .ends c .again f _ (.failed err answer nofun)
      | replay =>
          simp only [Tab.received, answer] at acts
          cases acts
          exact .ends c .replay f _ (.failed err answer nofun)
  | ok res =>
      by_cases late : stage = .replay
      · subst late
        simp only [Tab.received, answer] at acts
        cases acts
        exact .ends c .replay f _ (.answered res answer fun early => absurd rfl early)
      · have other : s.received c stage f =
            if res.status = 401 then s.renewSessionOnce c res else s.finish c (.ok (returned res)) := by
          cases stage with
          | first => simp only [Tab.received, answer]
          | again => simp only [Tab.received, answer]
          | replay => exact absurd rfl late
        rw [other] at acts
        split at acts
        · next refused => exact renewSessionOnce_cases late answer refused acts
        · next accepted =>
            cases acts
            exact .ends c stage f _ (.answered res answer fun _ => accepted)

theorem refreshed_cases {r : Nat} {f : Fetched Unit} (acts : s.refreshed r f = (s', new)) :
    Resumed s (.refresh r) (.plain f) s' new := by
  cases answer : Api.rawFetch f with
  | error err =>
      simp only [Tab.refreshed, answer] at acts
      cases acts
      exact .decides r f _ s.location (.failed err answer)
  | ok res =>
      simp only [Tab.refreshed, answer, Tab.showReauthDialog] at acts
      split at acts
      · next ok =>
          cases acts
          exact .decides r f _ s.location (.renewed res answer ok)
      · next refused =>
          have refused := Bool.not_eq_true _ ▸ refused
          split at acts
          · split at acts
            · next d shown =>
                cases acts
                exact .waits r f res answer refused d shown
            · next hidden =>
                cases acts
                exact .shows r f res answer refused hidden
          · next none =>
              cases acts
              exact .decides r f _ "/login" (.redirected res answer refused (Bool.not_eq_true _ ▸ none))

theorem resumed_cases {c : Nat} {res : Response α} {r : Nat} {outcome : Except Thrown Bool}
    (renewed : s.renewed r = some outcome) (acts : s.resumed c res outcome = (s', new)) :
    Resumed s (.renewal c res r) .turn s' new := by
  cases outcome with
  | error err =>
      cases acts
      exact .rejects c res r err renewed
  | ok replay =>
      cases replay with
      | true =>
          cases acts
          exact .replays c res r renewed
      | false =>
          cases acts
          exact .givesUp c res r renewed

theorem resume_cases {t : Task α} {a : Answer α} (acts : s.resume t a = some (s', new)) :
    Resumed s t a s' new := by
  cases t with
  | request c stage =>
      cases a with
      | fetched f => exact received_cases (Option.some.inj acts)
      | plain f => exact nomatch acts
      | turn => exact nomatch acts
  | renewal c res r =>
      cases a with
      | turn =>
          obtain ⟨outcome, renewed, acts⟩ := Option.map_eq_some_iff.mp acts
          exact resumed_cases renewed acts
      | fetched f => exact nomatch acts
      | plain f => exact nomatch acts
  | refresh r =>
      cases a with
      | plain f => exact refreshed_cases (Option.some.inj acts)
      | fetched f => exact nomatch acts
      | turn => exact nomatch acts
  | dialog r d =>
      cases a with
      | turn =>
          simp only [Tab.resume] at acts
          split at acts
          · next closed =>
              cases acts
              exact .loggedIn r d closed
          · exact nomatch acts
      | fetched f => exact nomatch acts
      | plain f => exact nomatch acts
  | cleanup r outcome =>
      cases a with
      | turn =>
          cases acts
          exact .cleanup r outcome
      | fetched f => exact nomatch acts
      | plain f => exact nomatch acts
  | settle r outcome =>
      cases a with
      | turn =>
          cases acts
          exact .settle r outcome
      | fetched f => exact nomatch acts
      | plain f => exact nomatch acts
  | reauthenticate =>
      cases a with
      | plain f =>
          cases acts
          exact .reauthenticates f
      | fetched f => exact nomatch acts
      | turn => exact nomatch acts
  | hasValidSession =>
      cases a with
      | plain f =>
          cases acts
          exact .validates f
      | fetched f => exact nomatch acts
      | turn => exact nomatch acts
  | checked =>
      cases a with
      | turn =>
          cases acts
          exact .checked
      | fetched f => exact nomatch acts
      | plain f => exact nomatch acts

end Moves

/-! ### What belongs to whom -/

namespace Task

def call : Task α → Option Nat
  | request c _ => some c
  | renewal c _ _ => some c
  | refresh _ => none
  | dialog _ _ => none
  | cleanup _ _ => none
  | settle _ _ => none
  | reauthenticate => none
  | hasValidSession => none
  | checked => none

/-- The renewal that a task carries on. -/
def renews : Task α → Option Nat
  | request _ _ => none
  | renewal _ _ _ => none
  | refresh r => some r
  | dialog r _ => some r
  | cleanup r _ => some r
  | settle r _ => some r
  | reauthenticate => none
  | hasValidSession => none
  | checked => none

/-- The renewal that a task carries on, while it is in flight. -/
def flies : Task α → Option Nat
  | settle _ _ => none
  | t => t.renews

/-- The check that a task carries on; there is only one. -/
def checks : Task α → Option Unit
  | hasValidSession => some ()
  | checked => some ()
  | _ => none

end Task

/-- The call has been made and has not returned. -/
def Tab.open (s : Tab α) (c : Nat) : Bool := decide (c < s.calls) && (s.ended c).isNone

/-- The renewal has been started and its promise has not settled. -/
def Tab.renewing (s : Tab α) (r : Nat) : Bool := decide (r < s.renewals) && (s.renewed r).isNone

/-- Numbers that have not been given out stand for nothing, and the dialog that is shown is open. -/
structure Numbered (s : Tab α) : Prop where
  calls : ∀ c, s.calls ≤ c → s.ended c = none
  renewals : ∀ r, s.renewals ≤ r → s.renewed r = none
  dialogs : ∀ d, s.dialogs ≤ d → s.closed d = false
  shown : ∀ d, s.pendingReauth = some d → d < s.dialogs ∧ s.closed d = false

/-- Whoever waits has somebody to wait for. -/
structure Awaited (s : Tab α) (pending : List (Task α)) : Prop where
  started : ∀ c res r, .renewal c res r ∈ pending → r < s.renewals
  renewals : ∀ r, s.renewing r = true → ∃ c res, .renewal c res r ∈ pending
  closed : ∀ r d, .dialog r d ∈ pending → s.closed d = true ∨ s.pendingReauth = some d
  dialogs : ∀ d, s.pendingReauth = some d → ∃ r, .dialog r d ∈ pending

/-- **What belongs to whom.** Each open call, each renewal that has not settled and the check have one task,
and the renewal in flight is the one that is running. -/
structure Tended (s : Tab α) (pending : List (Task α)) : Prop where
  calls : Owned Task.call s.open pending
  renewals : Owned Task.renews s.renewing pending
  inFlight : Owned Task.flies (fun r => decide (s.inFlight = some r)) pending
  checking : Owned Task.checks (fun _ => s.checking) pending
  numbered : Numbered s
  awaited : Awaited s pending

section Tending

variable {s s' : Tab α} {pending before after new : List (Task α)} {t : Task α} {a : Answer α}

/-- A login closes the dialog and changes nothing else. -/
theorem reached_cases (s : Tab α) (f : Fetched Unit) : s.reached f = s ∨
    ∃ d, s.pendingReauth = some d ∧
      s.reached f = { s with pendingReauth := none, closed := Function.update s.closed d true } := by
  unfold Tab.reached
  split
  · split
    · unfold Tab.finishReauth
      split
      · exact .inl rfl
      · next d shown => exact .inr ⟨d, shown, rfl⟩
    · exact .inl rfl
  · exact .inl rfl

/-- What a login leaves alone. -/
structure Alike (s s' : Tab α) : Prop where
  sessionExpiredHandler : s'.sessionExpiredHandler = s.sessionExpiredHandler
  inFlight : s'.inFlight = s.inFlight
  checking : s'.checking = s.checking
  calls : s'.calls = s.calls
  isRead : s'.isRead = s.isRead
  ended : s'.ended = s.ended
  renewals : s'.renewals = s.renewals
  renewed : s'.renewed = s.renewed

theorem reached_alike (s : Tab α) (f : Fetched Unit) : Alike s (s.reached f) := by
  rcases reached_cases s f with same | ⟨d, _, closes⟩
  · rw [same]
    exact ⟨rfl, rfl, rfl, rfl, rfl, rfl, rfl, rfl⟩
  · rw [closes]
    exact ⟨rfl, rfl, rfl, rfl, rfl, rfl, rfl, rfl⟩

theorem Alike.open (alike : Alike s s') (c : Nat) : s'.open c = s.open c := by
  unfold Tab.open
  rw [alike.calls, alike.ended]

theorem Alike.renewing (alike : Alike s s') (r : Nat) : s'.renewing r = s.renewing r := by
  unfold Tab.renewing
  rw [alike.renewals, alike.renewed]

/-- The next number is the only new one. -/
theorem below_succ {n m : Nat} (other : m ≠ n) : decide (m < n + 1) = decide (m < n) :=
  decide_eq_decide.mpr (by omega)

/-! Calls. -/

theorem finish_open (s : Tab α) (c : Nat) (result : Except Thrown (Response α)) (j : Nat) :
    (s.finish c result).1.open j = (s.open j && decide (j ≠ c)) := by
  unfold Tab.open Tab.finish
  by_cases here : j = c
  · subst here
    simp
  · simp [here]

theorem calls_call (held : Owned Task.call s.open pending) (numbered : Numbered s)
    (called : Called s s' new) : Owned Task.call s'.open (pending ++ new) := by
  cases called with
  | installs => exact held.called fun _ => Nat.zero_add _
  | sends isRead =>
      refine held.called fun c => ?_
      have made : (s.authFetch isRead).1.open c = (s.open c || decide (c = s.calls)) := by
        unfold Tab.open Tab.authFetch
        by_cases here : c = s.calls
        · subst here
          simp [numbered.calls s.calls (Nat.le_refl _)]
        · simp only [below_succ here, here, decide_false, Bool.or_false]
      have closed : s.open s.calls = false := by
        unfold Tab.open
        simp
      rw [made, owned_single]
      by_cases here : c = s.calls
      · subst here
        rw [closed]
        simp [Task.call]
      · simp [Task.call, here, Ne.symm here]
  | logsIn => exact held.called fun _ => Nat.zero_add _
  | asks idle => exact held.called fun _ => Nat.zero_add _
  | nothing => exact held.called fun _ => Nat.zero_add _

theorem calls_resume (held : Owned Task.call s.open (before ++ t :: after)) (resumed : Resumed s t a s' new) :
    Owned Task.call s'.open (before ++ after ++ new) := by
  cases resumed with
  | again c f read missed => exact held.kept (fun _ => rfl) fun _ => rfl
  | joins c stage f res r early answer refused running => exact held.kept (fun _ => rfl) fun _ => rfl
  | renews c stage f res early answer refused idle => exact held.kept (fun _ => rfl) fun _ => rfl
  | ends c stage f result final => exact held.ended rfl (finish_open s c _) fun _ => rfl
  | replays c res r renewed => exact held.kept (fun _ => rfl) fun _ => rfl
  | givesUp c res r renewed => exact held.ended rfl (finish_open s c _) fun _ => rfl
  | rejects c res r err renewed => exact held.ended rfl (finish_open s c _) fun _ => rfl
  | decides r f outcome location decided => exact held.kept (fun _ => rfl) fun _ => rfl
  | waits r f res answer refused d shown => exact held.kept (fun _ => rfl) fun _ => rfl
  | shows r f res answer refused hidden => exact held.kept (fun _ => rfl) fun _ => rfl
  | loggedIn r d closed => exact held.kept (fun _ => rfl) fun _ => rfl
  | cleanup r outcome => exact held.kept (fun _ => rfl) fun _ => rfl
  | settle r outcome => exact held.kept (fun _ => rfl) fun _ => rfl
  | reauthenticates f => exact held.kept (reached_alike s f).open fun _ => rfl
  | validates f => exact held.kept (reached_alike s f).open fun _ => rfl
  | checked => exact held.kept (fun _ => rfl) fun _ => rfl

/-! Renewals. -/

theorem renewals_call (held : Owned Task.renews s.renewing pending) (called : Called s s' new) :
    Owned Task.renews s'.renewing (pending ++ new) := by
  cases called with
  | installs => exact held.called fun _ => Nat.zero_add _
  | sends isRead => exact held.called fun _ => Nat.zero_add _
  | logsIn => exact held.called fun _ => Nat.zero_add _
  | asks idle => exact held.called fun _ => Nat.zero_add _
  | nothing => exact held.called fun _ => Nat.zero_add _

theorem renewals_resume (held : Owned Task.renews s.renewing (before ++ t :: after))
    (numbered : Numbered s) (resumed : Resumed s t a s' new) :
    Owned Task.renews s'.renewing (before ++ after ++ new) := by
  cases resumed with
  | again c f read missed => exact held.kept (fun _ => rfl) fun _ => rfl
  | joins c stage f res r early answer refused running => exact held.kept (fun _ => rfl) fun _ => rfl
  | renews c stage f res early answer refused idle =>
      refine held.moved fun r => ?_
      have begun : Tab.renewing { s with inFlight := some s.renewals, renewals := s.renewals + 1 } r =
          (s.renewing r || decide (r = s.renewals)) := by
        unfold Tab.renewing
        by_cases here : r = s.renewals
        · subst here
          simp [numbered.renewals s.renewals (Nat.le_refl _)]
        · simp only [below_succ here, here, decide_false, Bool.or_false]
      have settled : s.renewing s.renewals = false := by
        unfold Tab.renewing
        simp
      rw [begun, owned_cons, owned_single, owned_single, owned_single]
      by_cases here : r = s.renewals
      · subst here
        rw [settled]
        simp [Task.renews]
      · simp [Task.renews, here, Ne.symm here]
  | ends c stage f result final => exact held.kept (fun _ => rfl) fun _ => rfl
  | replays c res r renewed => exact held.kept (fun _ => rfl) fun _ => rfl
  | givesUp c res r renewed => exact held.kept (fun _ => rfl) fun _ => rfl
  | rejects c res r err renewed => exact held.kept (fun _ => rfl) fun _ => rfl
  | decides r f outcome location decided => exact held.kept (fun _ => rfl) fun _ => rfl
  | waits r f res answer refused d shown => exact held.kept (fun _ => rfl) fun _ => rfl
  | shows r f res answer refused hidden => exact held.kept (fun _ => rfl) fun _ => rfl
  | loggedIn r d closed => exact held.kept (fun _ => rfl) fun _ => rfl
  | cleanup r outcome => exact held.kept (fun _ => rfl) fun _ => rfl
  | settle r outcome =>
      refine held.ended rfl (fun j => ?_) fun _ => rfl
      unfold Tab.renewing
      by_cases here : j = r
      · subst here
        simp
      · simp [here]
  | reauthenticates f => exact held.kept (reached_alike s f).renewing fun _ => rfl
  | validates f => exact held.kept (reached_alike s f).renewing fun _ => rfl
  | checked => exact held.kept (fun _ => rfl) fun _ => rfl

/-! The renewal in flight. -/

theorem inFlight_call (held : Owned Task.flies (fun r => decide (s.inFlight = some r)) pending)
    (called : Called s s' new) : Owned Task.flies (fun r => decide (s'.inFlight = some r)) (pending ++ new) := by
  cases called with
  | installs => exact held.called fun _ => Nat.zero_add _
  | sends isRead => exact held.called fun _ => Nat.zero_add _
  | logsIn => exact held.called fun _ => Nat.zero_add _
  | asks idle => exact held.called fun _ => Nat.zero_add _
  | nothing => exact held.called fun _ => Nat.zero_add _

theorem inFlight_resume (held : Owned Task.flies (fun r => decide (s.inFlight = some r)) (before ++ t :: after))
    (resumed : Resumed s t a s' new) :
    Owned Task.flies (fun r => decide (s'.inFlight = some r)) (before ++ after ++ new) := by
  cases resumed with
  | again c f read missed => exact held.kept (fun _ => rfl) fun _ => rfl
  | joins c stage f res r early answer refused running => exact held.kept (fun _ => rfl) fun _ => rfl
  | renews c stage f res early answer refused idle =>
      refine held.moved fun r => ?_
      rw [idle, owned_cons, owned_single, owned_single, owned_single]
      by_cases here : s.renewals = r
      · simp [Task.flies, Task.renews, here]
      · simp [Task.flies, Task.renews, here]
  | ends c stage f result final => exact held.kept (fun _ => rfl) fun _ => rfl
  | replays c res r renewed => exact held.kept (fun _ => rfl) fun _ => rfl
  | givesUp c res r renewed => exact held.kept (fun _ => rfl) fun _ => rfl
  | rejects c res r err renewed => exact held.kept (fun _ => rfl) fun _ => rfl
  | decides r f outcome location decided => exact held.kept (fun _ => rfl) fun _ => rfl
  | waits r f res answer refused d shown => exact held.kept (fun _ => rfl) fun _ => rfl
  | shows r f res answer refused hidden => exact held.kept (fun _ => rfl) fun _ => rfl
  | loggedIn r d closed => exact held.kept (fun _ => rfl) fun _ => rfl
  | cleanup r outcome =>
      have running : s.inFlight = some r :=
        of_decide_eq_true (held.alive (EventLoop.mem_pending.mpr (.inl rfl)) rfl)
      refine held.ended (k := r) rfl (fun j => ?_) fun _ => rfl
      rw [running]
      by_cases here : j = r
      · simp [here]
      · simp [here, Ne.symm here]
  | settle r outcome => exact held.kept (fun _ => rfl) fun _ => rfl
  | reauthenticates f =>
      exact held.kept (fun r => by rw [(reached_alike s f).inFlight]) fun _ => rfl
  | validates f =>
      exact held.kept (fun r => by rw [(reached_alike s f).inFlight]) fun _ => rfl
  | checked => exact held.kept (fun _ => rfl) fun _ => rfl

/-! The check. -/

theorem checking_call (held : Owned Task.checks (fun _ => s.checking) pending) (called : Called s s' new) :
    Owned Task.checks (fun _ => s'.checking) (pending ++ new) := by
  cases called with
  | asks idle =>
      refine held.called fun _ => ?_
      rw [idle]
      rfl
  | _ => exact held.called fun _ => Nat.zero_add _

theorem checking_resume (held : Owned Task.checks (fun _ => s.checking) (before ++ t :: after))
    (resumed : Resumed s t a s' new) : Owned Task.checks (fun _ => s'.checking) (before ++ after ++ new) := by
  cases resumed with
  | reauthenticates f => exact held.kept (fun _ => (reached_alike s f).checking) fun _ => rfl
  | validates f => exact held.kept (fun _ => (reached_alike s f).checking) fun _ => rfl
  | checked => exact held.ended rfl (fun _ => (Bool.and_false _).symm) fun _ => rfl
  | _ => exact held.kept (fun _ => rfl) fun _ => rfl

/-! Numbers. -/

theorem numbered_call (numbered : Numbered s) (called : Called s s' new) : Numbered s' := by
  obtain ⟨calls, renewals, dialogs, shown⟩ := numbered
  cases called with
  | sends isRead => exact ⟨fun c later => calls c ((Nat.le_succ _).trans later), renewals, dialogs, shown⟩
  | _ => exact ⟨calls, renewals, dialogs, shown⟩

/-- A call that is open has been made. -/
theorem finish_numbered {c : Nat} (numbered : Numbered s) (opened : s.open c = true)
    (result : Except Thrown (Response α)) : Numbered (s.finish c result).1 := by
  refine ⟨fun j later => ?_, numbered.renewals, numbered.dialogs, numbered.shown⟩
  have made : c < s.calls := of_decide_eq_true (Bool.and_eq_true_iff.mp opened).1
  exact (Function.update_of_ne (ne_of_gt (made.trans_le later)) ..).trans (numbered.calls j later)

theorem reached_numbered (numbered : Numbered s) (f : Fetched Unit) : Numbered (s.reached f) := by
  rcases reached_cases s f with same | ⟨d, shown, closes⟩
  · rw [same]
    exact numbered
  · rw [closes]
    refine ⟨numbered.calls, numbered.renewals, fun j later => ?_, nofun⟩
    have before := (numbered.shown d shown).1
    exact (Function.update_of_ne (ne_of_gt (before.trans_le later)) ..).trans (numbered.dialogs j later)

theorem numbered_resume (numbered : Numbered s) (opened : ∀ c, t.call = some c → s.open c = true)
    (running : ∀ r, t.renews = some r → s.renewing r = true) (resumed : Resumed s t a s' new) : Numbered s' := by
  cases resumed with
  | renews c stage f res early answer refused idle =>
      exact ⟨numbered.calls, fun r later => numbered.renewals r ((Nat.le_succ _).trans later), numbered.dialogs,
        numbered.shown⟩
  | ends c stage f result final => exact finish_numbered numbered (opened c rfl) _
  | givesUp c res r renewed => exact finish_numbered numbered (opened c rfl) _
  | rejects c res r err renewed => exact finish_numbered numbered (opened c rfl) _
  | shows r f res answer refused hidden =>
      refine ⟨numbered.calls, numbered.renewals, fun d later => numbered.dialogs d ((Nat.le_succ _).trans later),
        fun d shown => ?_⟩
      obtain rfl := Option.some.inj shown
      exact ⟨Nat.lt_succ_self _, numbered.dialogs _ (Nat.le_refl _)⟩
  | settle r outcome =>
      refine ⟨numbered.calls, fun j later => ?_, numbered.dialogs, numbered.shown⟩
      have started : r < s.renewals := of_decide_eq_true (Bool.and_eq_true_iff.mp (running r rfl)).1
      exact (Function.update_of_ne (ne_of_gt (started.trans_le later)) ..).trans (numbered.renewals j later)
  | reauthenticates f => exact reached_numbered numbered f
  | validates f => exact reached_numbered numbered f
  | _ => exact ⟨numbered.calls, numbered.renewals, numbered.dialogs, numbered.shown⟩

/-! Who waits. -/

/-- What a move must do for those who wait: `gone` are the tasks that it ends, `new` the ones it starts. -/
structure Heeds (s s' : Tab α) (gone : Task α → Prop) (new : List (Task α)) : Prop where
  more : s.renewals ≤ s'.renewals
  started : ∀ c res r, .renewal c res r ∈ new → r < s'.renewals
  renewals : ∀ r, s'.renewing r = true →
    (s.renewing r = true ∧ ∀ c res, ¬ gone (.renewal c res r)) ∨ ∃ c res, .renewal c res r ∈ new
  still : ∀ d, s.closed d = true ∨ s.pendingReauth = some d → s'.closed d = true ∨ s'.pendingReauth = some d
  closed : ∀ r d, .dialog r d ∈ new → s'.closed d = true ∨ s'.pendingReauth = some d
  dialogs : ∀ d, s'.pendingReauth = some d →
    (s.pendingReauth = some d ∧ ∀ r, ¬ gone (.dialog r d)) ∨ ∃ r, .dialog r d ∈ new

theorem Awaited.moved {gone : Task α → Prop} {pending' : List (Task α)} (awaited : Awaited s pending)
    (heeds : Heeds s s' gone new) (come : ∀ u, u ∈ pending' → u ∈ pending ∨ u ∈ new)
    (stay : ∀ u, u ∈ pending → gone u ∨ u ∈ pending') (start : ∀ u, u ∈ new → u ∈ pending') :
    Awaited s' pending' := by
  refine ⟨fun c res r member => ?_, fun r running => ?_, fun r d member => ?_, fun d shown => ?_⟩
  · rcases come _ member with old | fresh
    · exact (awaited.started c res r old).trans_le heeds.more
    · exact heeds.started c res r fresh
  · rcases heeds.renewals r running with ⟨before, remain⟩ | ⟨c, res, fresh⟩
    · obtain ⟨c, res, old⟩ := awaited.renewals r before
      exact ⟨c, res, (stay _ old).resolve_left (remain c res)⟩
    · exact ⟨c, res, start _ fresh⟩
  · rcases come _ member with old | fresh
    · exact heeds.still d (awaited.closed r d old)
    · exact heeds.closed r d fresh
  · rcases heeds.dialogs d shown with ⟨before, remain⟩ | ⟨r, fresh⟩
    · obtain ⟨r, old⟩ := awaited.dialogs d before
      exact ⟨r, (stay _ old).resolve_left (remain r)⟩
    · exact ⟨r, start _ fresh⟩

/-- A move that starts nobody who waits, and ends only a wait for a renewal that has settled. -/
theorem Heeds.idle {gone : Task α → Prop} (more : s'.renewals = s.renewals) (same : s'.renewed = s.renewed)
    (closed : s'.closed = s.closed) (shown : s'.pendingReauth = s.pendingReauth)
    (finished : ∀ c res r, gone (.renewal c res r) → s.renewing r = false) (others : ∀ r d, ¬ gone (.dialog r d))
    (waiting : ∀ c res r, .renewal c res r ∉ new) (asking : ∀ r d, .dialog r d ∉ new) : Heeds s s' gone new := by
  refine ⟨more.ge, fun c res r fresh => absurd fresh (waiting c res r), fun r running => .inl ?_,
    fun d here => ?_, fun r d fresh => absurd fresh (asking r d), fun d here => .inl ⟨shown ▸ here, ?_⟩⟩
  · have before : s.renewing r = true := by
      unfold Tab.renewing at running ⊢
      rwa [← more, ← same]
    exact ⟨before, fun c res gone => Bool.false_ne_true ((finished c res r gone).symm.trans before)⟩
  · rw [closed, shown]
    exact here
  · exact fun r => others r d

theorem awaited_call (awaited : Awaited s pending) (called : Called s s' new) : Awaited s' (pending ++ new) := by
  have heeds : Heeds s s' (fun _ => False) new := by
    cases called with
    | installs => exact .idle rfl rfl rfl rfl nofun nofun nofun nofun
    | sends isRead =>
        exact .idle rfl rfl rfl rfl nofun nofun (fun _ _ _ => by simp) fun _ _ => by simp
    | logsIn => exact .idle rfl rfl rfl rfl nofun nofun (fun _ _ _ => by simp) fun _ _ => by simp
    | asks idle => exact .idle rfl rfl rfl rfl nofun nofun (fun _ _ _ => by simp) fun _ _ => by simp
    | nothing => exact .idle rfl rfl rfl rfl nofun nofun nofun nofun
  exact awaited.moved heeds (fun _ => List.mem_append.mp) (fun _ old => .inr (List.mem_append_left _ old))
    fun _ => List.mem_append_right _

/-- A renewal that has settled is not running. -/
theorem settled_renewing {r : Nat} {outcome : Except Thrown Bool} (renewed : s.renewed r = some outcome) :
    s.renewing r = false := by
  unfold Tab.renewing
  rw [renewed]
  exact Bool.and_false _

theorem reached_heeds (f : Fetched Unit) (waits : t.call = none) (asks : ∀ r d, t ≠ .dialog r d)
    (waiting : ∀ c res r, .renewal c res r ∉ new) (asking : ∀ r d, .dialog r d ∉ new) :
    Heeds s (s.reached f) (· = t) new := by
  have calm : ∀ c res r, t ≠ .renewal c res r := fun c res r same => by
    rw [same] at waits
    exact nomatch waits
  rcases reached_cases s f with same | ⟨d, shown, closes⟩
  · rw [same]
    exact .idle rfl rfl rfl rfl (fun c res r here => absurd here.symm (calm c res r))
      (fun r d here => asks r d here.symm) waiting asking
  · rw [closes]
    refine ⟨Nat.le_refl _, fun c res r fresh => absurd fresh (waiting c res r),
      fun r running => .inl ⟨running, fun c res here => calm c res r here.symm⟩, fun j here => .inl ?_,
      fun r d fresh => absurd fresh (asking r d), nofun⟩
    by_cases last : j = d
    · rw [last]
      exact Function.update_self ..
    · rcases here with closed | open_
      · exact (Function.update_of_ne last ..).trans closed
      · exact absurd (Option.some.inj (open_.symm.trans shown)) last

theorem awaited_resume (awaited : Awaited s (before ++ t :: after)) (numbered : Numbered s)
    (running : ∀ r, s.inFlight = some r → s.renewing r = true) (resumed : Resumed s t a s' new) :
    Awaited s' (before ++ after ++ new) := by
  have heeds : Heeds s s' (· = t) new := by
    cases resumed with
    | joins c stage f res r early answer refused here =>
        have started : r < s.renewals := of_decide_eq_true (Bool.and_eq_true_iff.mp (running r here)).1
        exact ⟨Nat.le_refl _, fun _ _ j fresh => by simp at fresh; rw [fresh.2.2]; exact started,
          fun j renewing => .inl ⟨renewing, nofun⟩, fun d still => still, fun r d fresh => by simp at fresh,
          fun d shown => .inl ⟨shown, nofun⟩⟩
    | renews c stage f res early answer refused idle =>
        refine ⟨Nat.le_succ _, fun _ _ j fresh => by simp at fresh; rw [fresh.2.2]; exact Nat.lt_succ_self _,
          fun j renewing => ?_, fun d still => still, fun r d fresh => by simp at fresh,
          fun d shown => .inl ⟨shown, nofun⟩⟩
        by_cases here : j = s.renewals
        · rw [here]
          exact .inr ⟨c, res, List.mem_cons_of_mem _ (List.mem_singleton_self _)⟩
        · refine .inl ⟨?_, nofun⟩
          unfold Tab.renewing at renewing ⊢
          simp only [below_succ here] at renewing
          exact renewing
    | waits r f res answer refused d shown =>
        refine ⟨Nat.le_refl _, fun _ _ j fresh => by simp at fresh, fun j renewing => .inl ⟨renewing, nofun⟩,
          fun d still => still, fun _ j fresh => ?_, fun d shown => .inl ⟨shown, nofun⟩⟩
        simp at fresh
        rw [fresh.2]
        exact .inr shown
    | shows r f res answer refused hidden =>
        refine ⟨Nat.le_refl _, fun _ _ j fresh => by simp at fresh, fun j renewing => .inl ⟨renewing, nofun⟩,
          fun d still => .inl (still.resolve_right ?_), fun _ j fresh => ?_, fun d shown => ?_⟩
        · rw [hidden]
          exact nofun
        · simp at fresh
          rw [fresh.2]
          exact .inr rfl
        · obtain rfl := Option.some.inj shown
          exact .inr ⟨r, List.mem_singleton_self _⟩
    | loggedIn r d closed =>
        refine ⟨Nat.le_refl _, fun _ _ j fresh => by simp at fresh, fun j renewing => .inl ⟨renewing, nofun⟩,
          fun d still => still, fun _ j fresh => by simp at fresh, fun j shown => .inl ⟨shown, fun i here => ?_⟩⟩
        cases here
        exact Bool.false_ne_true ((numbered.shown d shown).2.symm.trans closed)
    | settle r outcome =>
        refine ⟨Nat.le_refl _, nofun, fun j renewing => .inl ⟨?_, nofun⟩, fun d still => still, nofun,
          fun d shown => .inl ⟨shown, nofun⟩⟩
        unfold Tab.renewing at renewing ⊢
        by_cases here : j = r
        · subst here
          simp at renewing
        · simpa [here] using renewing
    | replays c res r renewed =>
        refine .idle rfl rfl rfl rfl (fun _ _ _ here => ?_) nofun (fun _ _ _ => by simp) fun _ _ => by simp
        cases here
        exact settled_renewing renewed
    | givesUp c res r renewed =>
        refine .idle rfl rfl rfl rfl (fun _ _ _ here => ?_) nofun nofun nofun
        cases here
        exact settled_renewing renewed
    | rejects c res r err renewed =>
        refine .idle rfl rfl rfl rfl (fun _ _ _ here => ?_) nofun nofun nofun
        cases here
        exact settled_renewing renewed
    | reauthenticates f => exact reached_heeds f rfl nofun nofun nofun
    | validates f => exact reached_heeds f rfl nofun (fun _ _ _ => by simp) fun _ _ => by simp
    | _ => exact .idle rfl rfl rfl rfl nofun nofun (fun _ _ _ => by simp) fun _ _ => by simp
  refine awaited.moved heeds (fun u member => ?_) (fun u old => ?_) fun _ => List.mem_append_right _
  · rcases List.mem_append.mp member with old | fresh
    · exact .inl (EventLoop.mem_pending.mpr (.inr old))
    · exact .inr fresh
  · rcases EventLoop.mem_pending.mp old with here | rest
    · exact .inl here
    · exact .inr (List.mem_append_left _ rest)

theorem tended_start : Tended ({} : Tab α) [] where
  calls _ := rfl
  renewals _ := rfl
  inFlight _ := rfl
  checking _ := rfl
  numbered := ⟨fun _ _ => rfl, fun _ _ => rfl, fun _ _ => rfl, nofun⟩
  awaited := ⟨nofun, nofun, nofun, nofun⟩

/-- The renewal in flight is running. -/
theorem Tended.running {r : Nat} (tended : Tended s pending) (inFlight : s.inFlight = some r) :
    s.renewing r = true := by
  obtain ⟨t, member, flies⟩ := tended.inFlight.task (decide_eq_true inFlight)
  refine tended.renewals.alive member ?_
  cases t with
  | refresh r => exact flies
  | dialog r d => exact flies
  | cleanup r outcome => exact flies
  | _ => exact nomatch flies

/-- **What belongs to whom**, in every run. -/
theorem tended {allowed : Tab α → List (Task α) → Move Call (Task α) (Answer α) → Prop}
    {past : List (Move Call (Task α) (Answer α))} (run : Run tab allowed {} past s pending) : Tended s pending := by
  refine run.invariant (fun _ s pending => Tended s pending) tended_start
    fun past s pending move s' pending' _ _ here tended => ?_
  have ⟨calls, renewals, inFlight, checking, numbered, awaited⟩ := tended
  cases here with
  | call acts =>
      have called := call_cases (Option.some.inj acts)
      exact ⟨calls_call calls numbered called, renewals_call renewals called, inFlight_call inFlight called,
        checking_call checking called, numbered_call numbered called, awaited_call awaited called⟩
  | @resume before after _ t _ _ acts =>
      have resumed := resume_cases acts
      have here : t ∈ before ++ t :: after := EventLoop.mem_pending.mpr (.inl rfl)
      exact ⟨calls_resume calls resumed, renewals_resume renewals numbered resumed,
        inFlight_resume inFlight resumed, checking_resume checking resumed,
        numbered_resume numbered (fun _ => calls.alive here) (fun _ => renewals.alive here) resumed,
        awaited_resume awaited numbered (fun _ => tended.running) resumed⟩

end Tending

end Wuflow.Session

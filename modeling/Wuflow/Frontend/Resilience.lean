/-
**What the calls of a tab come to** (`api.js`, `session.js`).

Renewals are shared and everything overlaps, yet each call is as if it were alone: it returns what
`authFetch` makes of the answers that it got and of one refresh. A write is sent again only after the server
has refused it, and nobody waits in vain.

* `told` — what each task and each promise has to do with the answers so far.
* `session_kept` — in every run there is at most one refresh, a request that is sent again was refused (or is
  a read), and each call returns the `authFetch` of its own exchanges.
* `session_rests` — every run can be brought to an end by answers and a login, and is no longer than its
  calls allow.
-/

import Wuflow.Frontend.Session

namespace Wuflow.Session

open Api (Response Fetched Thrown Exchanges)
open EventLoop (Machine Move Step Run Owned owned owned_single owned_cons Wanes load mem_pending)

variable {α : Type}

/-! ### A call alone -/

/-- The last request before a renewal, and those before it. -/
def tries (isRead : Bool) (e : Exchanges α) : Fetched α × List (Fetched α) :=
  match Api.rawFetch e.first with
  | .error .networkError => if isRead then (e.again, [e.first]) else (e.first, [])
  | _ => (e.first, [])

/-- The answers to the requests that a call sends, newest first. -/
def requests (isRead : Bool) (e : Exchanges α) : List (Fetched α) :=
  let (last, earlier) := tries isRead e
  match Api.rawFetch last, Api.renewSession e with
  | .ok res, .ok true => if res.status = 401 then e.replay :: last :: earlier else last :: earlier
  | _, _ => last :: earlier

/-- A request was refused: the server did not execute it. -/
def Refusal (f : Fetched α) : Prop := ∃ res, Api.rawFetch f = .ok res ∧ res.status = 401

/-- The requests before the last one did not reach the server. -/
def Missed (isRead : Bool) : List (Fetched α) → Prop
  | [] => True
  | [f] => isRead = true ∧ Api.rawFetch f = .error .networkError
  | _ => False

theorem Missed.read {isRead : Bool} {earlier : List (Fetched α)} (missed : Missed isRead earlier)
    (some : earlier ≠ []) : isRead = true := by
  match earlier, missed with
  | [], _ => exact absurd rfl some
  | [_], ⟨read, _⟩ => exact read

/-- Every course of requests before the renewal is that of some exchanges. -/
theorem exists_tries {isRead : Bool} {earlier : List (Fetched α)} {f : Fetched α} (missed : Missed isRead earlier)
    (last : earlier = [] → isRead = true → Api.rawFetch f ≠ .error .networkError) (refresh : Fetched Unit)
    (handler : Option (Except Thrown Unit)) (replay : Fetched α) :
    ∃ first again, tries isRead ⟨first, again, refresh, handler, replay⟩ = (f, earlier) := by
  match earlier, missed with
  | [], _ =>
      refine ⟨f, .failed, ?_⟩
      unfold tries
      split
      · next error =>
          split
          · next read => exact absurd error (last rfl read)
          · rfl
      · rfl
  | [g], ⟨read, error⟩ =>
      refine ⟨g, f, ?_⟩
      unfold tries
      rw [error, read]
      rfl

/-- What `authFetch` makes of a renewal. -/
def replayed (res : Response α) (replay : Fetched α) : Except Thrown Bool → Except Thrown (Response α)
  | .error err => .error err
  | .ok false => .ok (returned res)
  | .ok true => (Api.rawFetch replay).map returned

/-- What `authFetch` makes of the last request before the renewal. -/
def concluded (e : Exchanges α) : Except Thrown (Response α) → Except Thrown (Response α)
  | .error err => .error err
  | .ok res =>
      if res.status = 401 then replayed res e.replay (Api.renewSession e) else .ok (returned res)

theorem returns (res : Response α) :
    (if res.status = 429 then pure Api.tooManyRequests else pure res : Except Thrown (Response α)) =
      .ok (returned res) := by
  unfold returned
  split <;> rfl

theorem concludes (e : Exchanges α) (answer : Except Thrown (Response α)) : (do
      let res ← answer
      let res ← if res.status = 401 then do
          if ← Api.renewSession e then Api.rawFetch e.replay else .ok res
        else .ok res
      if res.status = 429 then
        return Api.tooManyRequests
      return res) = concluded e answer := by
  cases answer with
  | error err => rfl
  | ok res =>
      simp only [concluded, bind, Except.bind, returns]
      split
      · cases Api.renewSession e with
        | error err => rfl
        | ok replay =>
            cases replay with
            | false => rfl
            | true =>
                simp only [replayed]
                cases Api.rawFetch e.replay <;> rfl
      · rfl

theorem authFetch_tries (isRead : Bool) (e : Exchanges α) :
    Api.authFetch isRead e = concluded e (Api.rawFetch (tries isRead e).1) := by
  rw [← concludes]
  unfold Api.authFetch tries
  cases answer : Api.rawFetch e.first with
  | ok res => simp only [answer]
  | error err =>
      cases err with
      | handlerError => simp [answer]
      | networkError =>
          cases isRead with
          | false => simp [answer]
          | true => simp

/-! ### What has been heard -/

/-- The answer that a move brings to a call. -/
def heardBy (c : Nat) : Move Call (Task α) (Answer α) → Option (Fetched α)
  | .resume (.request j _) (.fetched f) => if j = c then some f else none
  | _ => none

/-- **The answers to the requests of a call**, newest first. -/
def heard (past : List (Move Call (Task α) (Answer α))) (c : Nat) : List (Fetched α) :=
  past.filterMap (heardBy c)

/-- The renewal has got this answer to its refresh. -/
def Refreshed (past : List (Move Call (Task α) (Answer α))) (r : Nat) (f : Fetched Unit) : Prop :=
  .resume (.refresh r) (.plain f) ∈ past

/-- The renewal has come to what `renewSession` makes of the answer to its refresh. -/
def Renewed (past : List (Move Call (Task α) (Answer α))) (r : Nat) (outcome : Except Thrown Bool) : Prop :=
  ∃ f handler, Refreshed past r f ∧
    ∀ e : Exchanges α, e.refresh = f → e.sessionExpiredHandler = handler → Api.renewSession e = outcome

/-- The last answer refused the call. -/
def Refused (isRead : Bool) (res : Response α) (answers : List (Fetched α)) : Prop :=
  ∃ f earlier, answers = f :: earlier ∧ Api.rawFetch f = .ok res ∧ res.status = 401 ∧ Missed isRead earlier

/-- **The call has returned the `authFetch` of its exchanges**: they are the answers that it has got, and an
answer that a renewal has got if it needed one. -/
def Returned (past : List (Move Call (Task α) (Answer α))) (isRead : Bool) (c : Nat)
    (result : Except Thrown (Response α)) : Prop :=
  ∃ e : Exchanges α, requests isRead e = heard past c ∧ Api.authFetch isRead e = result ∧
    (Refusal (tries isRead e).1 → ∃ r, Refreshed past r e.refresh)

/-- What a task has to do with the answers so far. -/
def Story (past : List (Move Call (Task α) (Answer α))) (isRead : Nat → Bool) : Task α → Prop
  | .request c .first => heard past c = []
  | .request c .again => Missed (isRead c) (heard past c) ∧ heard past c ≠ []
  | .request c .replay => ∃ res r, Refused (isRead c) res (heard past c) ∧ Renewed past r (.ok true)
  | .renewal c res _ => Refused (isRead c) res (heard past c)
  | .dialog r _ => ∃ f res, Refreshed past r f ∧ Api.rawFetch f = .ok res ∧ res.ok = false
  | .cleanup r outcome => Renewed past r outcome
  | .settle r outcome => Renewed past r outcome
  | _ => True

/-- **What has been told so far**, to the tasks and to those who wait for a promise. -/
structure Told (past : List (Move Call (Task α) (Answer α))) (s : Tab α) (pending : List (Task α)) : Prop where
  tasks : ∀ t ∈ pending, Story past s.isRead t
  renewed : ∀ r outcome, s.renewed r = some outcome → Renewed past r outcome
  ended : ∀ c result, s.ended c = some result → Returned past (s.isRead c) c result
  unmade : ∀ c, s.calls ≤ c → heard past c = []

section Telling

variable {past : List (Move Call (Task α) (Answer α))} {move : Move Call (Task α) (Answer α)} {s s' : Tab α}
  {pending before after new : List (Task α)} {t : Task α} {a : Answer α} {isRead isRead' : Nat → Bool} {c r : Nat}

theorem heard_self (stage : Stage) (f : Fetched α) :
    heard (.resume (.request c stage) (.fetched f) :: past) c = f :: heard past c :=
  List.filterMap_cons_some (if_pos rfl)

theorem heardBy_other (other : t.call ≠ some c) : heardBy c (.resume t a) = none := by
  cases t with
  | request j stage =>
      cases a with
      | fetched f => exact if_neg fun same => other (congrArg some same)
      | plain f => rfl
      | turn => rfl
  | _ => rfl

theorem heard_other (other : t.call ≠ some c) : heard (.resume t a :: past) c = heard past c :=
  List.filterMap_cons_none (heardBy_other other)

theorem heard_call (call : Call) : heard (.call call :: past) c = heard past c := List.filterMap_cons_none rfl

theorem Renewed.later {outcome : Except Thrown Bool} (renewed : Renewed past r outcome) :
    Renewed (move :: past) r outcome := by
  obtain ⟨f, handler, refreshed, makes⟩ := renewed
  exact ⟨f, handler, List.mem_cons_of_mem _ refreshed, makes⟩

theorem Returned.later {read : Bool} {result : Except Thrown (Response α)} (done : Returned past read c result)
    (same : heard (move :: past) c = heard past c) : Returned (move :: past) read c result := by
  obtain ⟨e, asked, result, renewed⟩ := done
  refine ⟨e, asked.trans same.symm, result, fun refused => ?_⟩
  obtain ⟨r, refreshed⟩ := renewed refused
  exact ⟨r, List.mem_cons_of_mem _ refreshed⟩

/-- A story goes on while its call hears nothing. -/
theorem Story.later (story : Story past isRead t)
    (silent : ∀ c, t.call = some c → heard (move :: past) c = heard past c ∧ isRead' c = isRead c) :
    Story (move :: past) isRead' t := by
  cases t with
  | request c stage =>
      obtain ⟨same, reads⟩ := silent c rfl
      cases stage with
      | first => exact same.trans story
      | again =>
          simp only [Story, same, reads]
          exact story
      | replay =>
          obtain ⟨res, r, refused, renewed⟩ := story
          refine ⟨res, r, ?_, renewed.later⟩
          rw [same, reads]
          exact refused
  | renewal c res r =>
      obtain ⟨same, reads⟩ := silent c rfl
      simp only [Story, same, reads]
      exact story
  | dialog r d =>
      obtain ⟨f, res, refreshed, refused⟩ := story
      exact ⟨f, res, List.mem_cons_of_mem _ refreshed, refused⟩
  | cleanup r outcome => exact Renewed.later story
  | settle r outcome => exact Renewed.later story
  | _ => exact trivial

/-- A course of requests is what the exchanges say, as far as the renewal. -/
theorem requests_tries {read : Bool} {e : Exchanges α} {f : Fetched α} {earlier : List (Fetched α)}
    (tried : tries read e = (f, earlier))
    (accepted : ∀ res, Api.rawFetch f = .ok res → res.status = 401 → Api.renewSession e ≠ .ok true) :
    requests read e = f :: earlier := by
  unfold requests
  rw [tried]
  dsimp only
  split
  · next res answer renewed => exact if_neg fun refused => accepted res answer refused renewed
  · rfl

theorem requests_replay {read : Bool} {e : Exchanges α} {f : Fetched α} {earlier : List (Fetched α)} {res : Response α}
    (tried : tries read e = (f, earlier)) (answer : Api.rawFetch f = .ok res) (refused : res.status = 401)
    (renewed : Api.renewSession e = .ok true) : requests read e = e.replay :: f :: earlier := by
  unfold requests
  rw [tried]
  dsimp only
  rw [answer, renewed]
  exact if_pos refused

/-- A call that needs no renewal returns what its last answer says. -/
theorem returned_early {read : Bool} {earlier : List (Fetched α)} {stage : Stage} {f : Fetched α}
    {result : Except Thrown (Response α)} (here : heard past c = f :: earlier) (missed : Missed read earlier)
    (first : earlier = [] → stage = .first) (early : stage ≠ .replay) (final : Final read stage f result) :
    Returned past read c result := by
  have finished : earlier = [] → read = true → Api.rawFetch f ≠ .error .networkError := by
    intro only reads error
    cases final with
    | failed err failure last =>
        exact last (first only) reads (Except.error.inj (failure.symm.trans error))
    | answered res answer last => exact nomatch answer.symm.trans error
  have accepted : ¬ Refusal f := by
    rintro ⟨res, answer, refused⟩
    cases final with
    | failed err failure last => exact nomatch failure.symm.trans answer
    | answered res' answer' last =>
        obtain rfl := Except.ok.inj (answer'.symm.trans answer)
        exact last early refused
  obtain ⟨first, again, tried⟩ := exists_tries missed finished .failed none .failed
  refine ⟨⟨first, again, .failed, none, .failed⟩, ?_, ?_, fun refusal => ?_⟩
  · rw [here]
    exact requests_tries tried fun res answer refused => absurd ⟨res, answer, refused⟩ accepted
  · rw [authFetch_tries, tried]
    cases final with
    | failed err failure last =>
        rw [failure]
        rfl
    | answered res answer last =>
        rw [answer]
        exact if_neg (last early)
  · rw [tried] at refusal
    exact absurd refusal accepted

/-- A call that was refused returns what the renewal and the replay come to. -/
theorem returned_late {read : Bool} {res : Response α} {answers : List (Fetched α)} {outcome : Except Thrown Bool}
    {result : Except Thrown (Response α)} (replay : Fetched α) (refused : Refused read res answers)
    (renewed : Renewed past r outcome)
    (asked : heard past c = if outcome = .ok true then replay :: answers else answers)
    (ends : replayed res replay outcome = result) : Returned past read c result := by
  obtain ⟨f, earlier, rfl, answer, status, missed⟩ := refused
  obtain ⟨refresh, handler, refreshed, makes⟩ := renewed
  have finished : earlier = [] → read = true → Api.rawFetch f ≠ .error .networkError := fun _ _ error =>
    nomatch answer.symm.trans error
  obtain ⟨first, again, tried⟩ := exists_tries missed finished refresh handler replay
  have renews := makes ⟨first, again, refresh, handler, replay⟩ rfl rfl
  refine ⟨⟨first, again, refresh, handler, replay⟩, ?_, ?_, fun _ => ⟨r, refreshed⟩⟩
  · rw [asked]
    by_cases again' : outcome = .ok true
    · rw [if_pos again']
      exact requests_replay tried answer status (renews.trans again')
    · rw [if_neg again']
      exact requests_tries tried fun _ _ _ same => again' (renews.symm.trans same)
  · rw [authFetch_tries, tried, answer]
    exact (if_pos status).trans ((congrArg _ renews).trans ends)

/-- A refresh that needs no dialog. -/
theorem renewed_decided {handler : Bool} {f : Fetched Unit} {outcome : Except Thrown Bool}
    (decided : Decided handler f outcome) (refreshed : Refreshed past r f) : Renewed past r outcome := by
  refine ⟨f, none, refreshed, fun e refresh absent => ?_⟩
  unfold Api.renewSession
  rw [refresh, absent]
  cases decided with
  | failed err failure =>
      rw [failure]
      rfl
  | renewed res answer ok =>
      rw [answer]
      exact if_pos ok
  | redirected res answer refused none =>
      rw [answer]
      exact if_neg (refused ▸ Bool.false_ne_true)

/-- A refresh that was refused, and a login. -/
theorem renewed_login {f : Fetched Unit} {res : Response Unit} (answer : Api.rawFetch f = .ok res)
    (refused : res.ok = false) (refreshed : Refreshed past r f) : Renewed past r (.ok true) := by
  refine ⟨f, some (.ok ()), refreshed, fun e refresh login => ?_⟩
  unfold Api.renewSession
  rw [refresh, login, answer]
  exact if_neg (refused ▸ Bool.false_ne_true)

theorem resumed_calls (resumed : Resumed s t a s' new) : s'.calls = s.calls ∧ s'.isRead = s.isRead := by
  cases resumed with
  | reauthenticates f => exact ⟨(reached_alike s f).calls, (reached_alike s f).isRead⟩
  | validates f => exact ⟨(reached_alike s f).calls, (reached_alike s f).isRead⟩
  | _ => exact ⟨rfl, rfl⟩

/-- What is left of the past, after a move that tells something to one call at most. -/
theorem Told.moved (told : Told past s (before ++ t :: after)) (tended : Tended s (before ++ t :: after))
    (calls : s'.calls = s.calls) (isRead : s'.isRead = s.isRead)
    (fresh : ∀ u ∈ new, Story (.resume t a :: past) s.isRead u)
    (renewed : ∀ r outcome, s'.renewed r = some outcome → s.renewed r = some outcome ∨ Renewed past r outcome)
    (ended : ∀ c result, s'.ended c = some result →
      s.ended c = some result ∨ Returned (.resume t a :: past) (s.isRead c) c result) :
    Told (.resume t a :: past) s' (before ++ after ++ new) := by
  have opened : ∀ c, t.call = some c → s.open c = true := fun c =>
    tended.calls.alive (mem_pending.mpr (.inl rfl))
  refine ⟨fun u member => ?_, fun r outcome settled => ?_, fun c result finished => ?_, fun c later => ?_⟩
  · rw [isRead]
    rcases List.mem_append.mp member with old | new
    · refine (told.tasks u (mem_pending.mpr (.inr old))).later fun c here => ⟨heard_other fun same => ?_, rfl⟩
      exact tended.calls.alone same u old here
    · exact fresh u new
  · rcases renewed r outcome settled with old | new
    · exact (told.renewed r outcome old).later
    · exact new.later
  · rw [isRead]
    rcases ended c result finished with old | new
    · refine (told.ended c result old).later (heard_other fun same => ?_)
      have waiting := (Bool.and_eq_true_iff.mp (opened c same)).2
      rw [old] at waiting
      exact nomatch waiting
    · exact new
  · rw [calls] at later
    refine (heard_other fun same => ?_).trans (told.unmade c later)
    exact absurd (of_decide_eq_true (Bool.and_eq_true_iff.mp (opened c same)).1) (not_lt.mpr later)

/-- A call that hears that it was refused. -/
theorem refused_story {stage : Stage} {f : Fetched α} {res : Response α}
    (story : Story past isRead (.request c stage)) (early : stage ≠ .replay) (answer : Api.rawFetch f = .ok res)
    (refused : res.status = 401) : Refused (isRead c) res (f :: heard past c) := by
  refine ⟨f, heard past c, rfl, answer, refused, ?_⟩
  cases stage with
  | first =>
      rw [show heard past c = [] from story]
      exact trivial
  | again => exact story.1
  | replay => exact absurd rfl early

theorem ended_story {stage : Stage} {f : Fetched α} {result : Except Thrown (Response α)}
    (story : Story past isRead (.request c stage)) (final : Final (isRead c) stage f result) :
    Returned (.resume (.request c stage) (.fetched f) :: past) (isRead c) c result := by
  have here : heard (.resume (.request c stage) (.fetched f) :: past) c = f :: heard past c := heard_self stage f
  cases stage with
  | first =>
      have silent : heard past c = [] := story
      exact returned_early here (silent ▸ trivial) (fun _ => rfl) nofun final
  | again =>
      exact returned_early here story.1 (fun none => absurd none story.2) (show Stage.again ≠ .replay from nofun) final
  | replay =>
      obtain ⟨res, r, refused, renewed⟩ := story
      refine returned_late f refused renewed.later (here.trans (if_pos rfl).symm) ?_
      simp only [replayed]
      cases final with
      | failed err failure _ =>
          rw [failure]
          rfl
      | answered res answer _ =>
          rw [answer]
          rfl

theorem finish_ended {j : Nat} {result finished : Except Thrown (Response α)}
    (here : (s.finish c result).1.ended j = some finished) : s.ended j = some finished ∨ j = c ∧ result = finished := by
  simp only [Tab.finish, Function.update_apply] at here
  split at here
  · next same => exact .inr ⟨same, Option.some.inj here⟩
  · exact .inl here

theorem told_resume (told : Told past s (before ++ t :: after)) (tended : Tended s (before ++ t :: after))
    (resumed : Resumed s t a s' new) : Told (.resume t a :: past) s' (before ++ after ++ new) := by
  obtain ⟨calls, isRead⟩ := resumed_calls resumed
  have story : Story past s.isRead t := told.tasks t (mem_pending.mpr (.inl rfl))
  refine told.moved tended calls isRead ?_ ?_ ?_
  · -- the new tasks
    intro u member
    cases resumed with
    | again c f read missed =>
        obtain rfl := List.mem_singleton.mp member
        have silent : heard past c = [] := story
        simp only [Story, heard_self, silent]
        exact ⟨⟨read, missed⟩, List.cons_ne_nil _ _⟩
    | joins c stage f res r early answer refused running =>
        obtain rfl := List.mem_singleton.mp member
        simp only [Story, heard_self]
        exact refused_story story early answer refused
    | renews c stage f res early answer refused idle =>
        rcases List.mem_cons.mp member with rfl | member
        · exact trivial
        · obtain rfl := List.mem_singleton.mp member
          simp only [Story, heard_self]
          exact refused_story story early answer refused
    | replays c res r renewed =>
        obtain rfl := List.mem_singleton.mp member
        exact ⟨res, r, story, (told.renewed r _ renewed).later⟩
    | decides r f outcome location decided =>
        obtain rfl := List.mem_singleton.mp member
        exact renewed_decided decided List.mem_cons_self
    | waits r f res answer refused d shown =>
        obtain rfl := List.mem_singleton.mp member
        exact ⟨f, res, List.mem_cons_self, answer, refused⟩
    | shows r f res answer refused hidden =>
        obtain rfl := List.mem_singleton.mp member
        exact ⟨f, res, List.mem_cons_self, answer, refused⟩
    | loggedIn r d closed =>
        obtain rfl := List.mem_singleton.mp member
        obtain ⟨f, res, refreshed, answer, refused⟩ := story
        exact renewed_login answer refused (List.mem_cons_of_mem _ refreshed)
    | cleanup r outcome =>
        obtain rfl := List.mem_singleton.mp member
        exact Renewed.later story
    | validates f =>
        obtain rfl := List.mem_singleton.mp member
        exact trivial
    | _ => exact absurd member List.not_mem_nil
  · -- the promises of renewals
    intro r outcome settled
    cases resumed with
    | settle j result =>
        simp only [Function.update_apply] at settled
        split at settled
        · next same =>
            obtain rfl := Option.some.inj settled
            exact .inr (same ▸ story)
        · exact .inl settled
    | reauthenticates f => exact .inl ((congrFun (reached_alike s f).renewed r).symm.trans settled)
    | validates f => exact .inl ((congrFun (reached_alike s f).renewed r).symm.trans settled)
    | _ => exact .inl settled
  · -- the calls that return
    intro c result finished
    cases resumed with
    | ends j stage f final finals =>
        rcases finish_ended finished with old | ⟨rfl, rfl⟩
        · exact .inl old
        · exact .inr (ended_story story finals)
    | givesUp j res r renewed =>
        rcases finish_ended finished with old | ⟨rfl, rfl⟩
        · exact .inl old
        · exact .inr (returned_late .failed story (told.renewed r _ renewed).later rfl rfl)
    | rejects j res r err renewed =>
        rcases finish_ended finished with old | ⟨rfl, rfl⟩
        · exact .inl old
        · exact .inr (returned_late .failed story (told.renewed r _ renewed).later rfl rfl)
    | reauthenticates f => exact .inl ((congrFun (reached_alike s f).ended c).symm.trans finished)
    | validates f => exact .inl ((congrFun (reached_alike s f).ended c).symm.trans finished)
    | _ => exact .inl finished

theorem told_call {call : Call} (told : Told past s pending) (tended : Tended s pending) (called : Called s s' new) :
    Told (.call call :: past) s' (pending ++ new) := by
  have opened : ∀ u ∈ pending, ∀ c, u.call = some c → c < s.calls := fun u member c here =>
    of_decide_eq_true (Bool.and_eq_true_iff.mp (tended.calls.alive member here)).1
  have same : Told (.call call :: past) s pending :=
    ⟨fun u member => (told.tasks u member).later fun c _ => ⟨heard_call call, rfl⟩,
      fun r outcome settled => (told.renewed r outcome settled).later,
      fun c result finished => (told.ended c result finished).later (heard_call call),
      fun c later => (heard_call call).trans (told.unmade c later)⟩
  cases called with
  | installs => exact ⟨by rw [List.append_nil]; exact same.tasks, same.renewed, same.ended, same.unmade⟩
  | sends isRead =>
      have reads : ∀ c, c < s.calls → (s.authFetch isRead).1.isRead c = s.isRead c := fun c made =>
        Function.update_of_ne (ne_of_lt made) ..
      refine ⟨fun u member => ?_, same.renewed, fun c result finished => ?_, fun c later => ?_⟩
      · rcases List.mem_append.mp member with old | new
        · refine (told.tasks u old).later fun c here => ⟨heard_call call, reads c (opened u old c here)⟩
        · obtain rfl := List.mem_singleton.mp new
          exact same.unmade s.calls (Nat.le_refl _)
      · have made : c < s.calls := by
          by_contra later
          exact nomatch (tended.numbered.calls c (not_lt.mp later)).symm.trans finished
        rw [reads c made]
        exact same.ended c result finished
      · exact same.unmade c ((Nat.le_succ _).trans later)
  | logsIn =>
      refine ⟨fun u member => ?_, same.renewed, same.ended, same.unmade⟩
      rcases List.mem_append.mp member with old | new
      · exact same.tasks u old
      · obtain rfl := List.mem_singleton.mp new
        exact trivial
  | asks idle =>
      refine ⟨fun u member => ?_, same.renewed, same.ended, same.unmade⟩
      rcases List.mem_append.mp member with old | new
      · exact same.tasks u old
      · obtain rfl := List.mem_singleton.mp new
        exact trivial
  | nothing => exact ⟨by rw [List.append_nil]; exact same.tasks, same.renewed, same.ended, same.unmade⟩

/-- **What has been told**, in every run. -/
theorem told {allowed : Tab α → List (Task α) → Move Call (Task α) (Answer α) → Prop}
    (run : Run tab allowed {} past s pending) : Told past s pending := by
  refine run.invariant (fun past s pending => Told past s pending) ⟨nofun, nofun, nofun, fun _ _ => rfl⟩
    fun past s pending move s' pending' earlier _ here told => ?_
  cases here with
  | call acts => exact told_call told (tended earlier) (call_cases (Option.some.inj acts))
  | resume acts => exact told_resume told (tended earlier) (resume_cases acts)

end Telling

/-! ### Every run -/

/-- Any move may come next. -/
def anyMove : Tab α → List (Task α) → Move Call (Task α) (Answer α) → Prop := fun _ _ _ => True

def Task.isRefresh : Task α → Bool
  | refresh _ => true
  | _ => false

def Task.isRequest (c : Nat) : Task α → Bool
  | request j _ => decide (j = c)
  | _ => false

/-- **What a tab keeps**, whatever happens. -/
structure Kept (past : List (Move Call (Task α) (Answer α))) (s : Tab α) (pending : List (Task α)) : Prop where
  /-- There is at most one refresh at a time. -/
  refreshes : pending.countP Task.isRefresh ≤ 1
  /-- A write is only sent again after it was refused. -/
  writes : ∀ c stage, .request c stage ∈ pending → s.isRead c = false → ∀ f ∈ heard past c, Refusal f
  /-- A write is sent twice at most, a read three times. -/
  few : ∀ c, (heard past c).length + pending.countP (·.isRequest c) ≤ if s.isRead c then 3 else 2
  /-- What a call returns is `authFetch` of its own exchanges. -/
  returned : ∀ c result, s.ended c = some result → Returned past (s.isRead c) c result
  /-- The dialog is open for a call that waits. -/
  dialogs : ∀ d, s.pendingReauth = some d → ∃ c res r, .dialog r d ∈ pending ∧ .renewal c res r ∈ pending

section Runs

variable {past : List (Move Call (Task α) (Answer α))} {s s' : Tab α} {pending new : List (Task α)} {t : Task α}
  {a : Answer α} {c r : Nat}

theorem Tended.refreshes (tended : Tended s pending) : pending.countP Task.isRefresh ≤ 1 := by
  have flying : ∀ t ∈ pending, t.isRefresh = true → ∃ r, t.flies = some r ∧ s.inFlight = some r := by
    intro t member here
    cases t with
    | refresh r => exact ⟨r, rfl, of_decide_eq_true (tended.inFlight.alive member rfl)⟩
    | _ => exact nomatch here
  cases running : s.inFlight with
  | none =>
      have nothing : pending.countP Task.isRefresh = 0 := List.countP_eq_zero.mpr fun t member here => by
        obtain ⟨r, _, inFlight⟩ := flying t member here
        exact nomatch running.symm.trans inFlight
      omega
  | some r =>
      calc pending.countP Task.isRefresh ≤ owned Task.flies r pending := by
            refine List.countP_mono_left fun t member here => ?_
            obtain ⟨j, flies, inFlight⟩ := flying t member here
            obtain rfl := Option.some.inj (running.symm.trans inFlight)
            exact decide_eq_true flies
        _ ≤ 1 := (tended.inFlight r).trans_le (Bool.toNat_le _)

/-- A write has missed nothing. -/
theorem Refused.write {res : Response α} {answers : List (Fetched α)} (refused : Refused false res answers) :
    ∀ f ∈ answers, Refusal f := by
  obtain ⟨f, earlier, rfl, answer, status, missed⟩ := refused
  have none : earlier = [] := by
    by_contra some
    exact nomatch missed.read some
  subst none
  intro g member
  obtain rfl := List.mem_singleton.mp member
  exact ⟨res, answer, status⟩

theorem Told.writes {stage : Stage} (told : Told past s pending) (member : .request c stage ∈ pending)
    (write : s.isRead c = false) : ∀ f ∈ heard past c, Refusal f := by
  have story := told.tasks _ member
  cases stage with
  | first =>
      have silent : heard past c = [] := story
      rw [silent]
      exact nofun
  | again => exact nomatch write.symm.trans (story.1.read story.2)
  | replay =>
      obtain ⟨res, r, refused, _⟩ := story
      rw [write] at refused
      exact refused.write

theorem Missed.length_le {read : Bool} {earlier : List (Fetched α)} (missed : Missed read earlier) :
    earlier.length ≤ if read then 1 else 0 := by
  match earlier, missed with
  | [], _ => exact Nat.zero_le _
  | [_], ⟨reads, _⟩ => rw [reads]; exact Nat.le_refl _

theorem Refused.length_le {read : Bool} {res : Response α} {answers : List (Fetched α)}
    (refused : Refused read res answers) : answers.length ≤ if read then 2 else 1 := by
  obtain ⟨f, earlier, rfl, _, _, missed⟩ := refused
  have short := missed.length_le
  rw [List.length_cons]
  cases read with
  | false => exact Nat.succ_le_succ short
  | true => exact Nat.succ_le_succ short

theorem tries_length (read : Bool) (e : Exchanges α) : (tries read e).2.length ≤ if read then 1 else 0 := by
  unfold tries
  split
  · cases read with
    | false => exact Nat.le_refl _
    | true => exact Nat.le_refl _
  · exact Nat.zero_le _

theorem requests_length (read : Bool) (e : Exchanges α) : (requests read e).length ≤ if read then 3 else 2 := by
  have short := tries_length read e
  have long : (requests read e).length ≤ (tries read e).2.length + 2 := by
    unfold requests
    dsimp only
    split
    · split
      · exact Nat.le_refl _
      · exact Nat.le_succ _
    · exact Nat.le_succ _
  cases read with
  | false => exact long.trans (Nat.add_le_add_right short 2)
  | true => exact long.trans (Nat.add_le_add_right short 2)

/-- The task of a call leaves room for one more request. -/
theorem Told.room (told : Told past s pending) (member : t ∈ pending) (of : t.call = some c) :
    (heard past c).length + 1 ≤ if s.isRead c then 3 else 2 := by
  have story := told.tasks t member
  have room : ∀ {answers : List (Fetched α)} {res : Response α}, Refused (s.isRead c) res answers →
      answers.length + 1 ≤ if s.isRead c then 3 else 2 := fun refused => by
    have short := refused.length_le
    cases reads : s.isRead c with
    | false =>
        rw [reads] at short
        exact Nat.succ_le_succ short
    | true =>
        rw [reads] at short
        exact Nat.succ_le_succ short
  cases t with
  | request j stage =>
      obtain rfl := Option.some.inj of
      cases stage with
      | first =>
          rw [show heard past j = [] from story]
          split
          · exact Nat.succ_le_succ (Nat.zero_le 2)
          · exact Nat.succ_le_succ (Nat.zero_le 1)
      | again =>
          have short := story.1.length_le
          rw [story.1.read story.2] at short ⊢
          exact (Nat.succ_le_succ short).trans (by decide)
      | replay =>
          obtain ⟨res, r, refused, _⟩ := story
          exact room refused
  | renewal j res r =>
      obtain rfl := Option.some.inj of
      exact room story
  | _ => exact nomatch of

theorem few (told : Told past s pending) (tended : Tended s pending) (c : Nat) :
    (heard past c).length + pending.countP (·.isRequest c) ≤ if s.isRead c then 3 else 2 := by
  have one : pending.countP (·.isRequest c) ≤ owned Task.call c pending := by
    refine List.countP_mono_left fun t _ here => ?_
    cases t with
    | request j stage => exact decide_eq_true (congrArg some (of_decide_eq_true here))
    | _ => exact nomatch here
  rw [tended.calls c] at one
  cases opened : s.open c with
  | true =>
      obtain ⟨t, member, of⟩ := tended.calls.task opened
      have room := told.room member of
      rw [opened] at one
      exact (Nat.add_le_add_left one _).trans room
  | false =>
      rw [opened] at one
      have short : (heard past c).length ≤ if s.isRead c then 3 else 2 := by
        by_cases made : c < s.calls
        · cases finished : s.ended c with
          | none =>
              refine absurd opened ?_
              unfold Tab.open
              simp [made, finished]
          | some result =>
              obtain ⟨e, asked, _⟩ := told.ended c result finished
              rw [← asked]
              exact requests_length _ e
        · rw [told.unmade c (not_lt.mp made)]
          exact Nat.zero_le _
      exact (Nat.add_le_add_left one _).trans short

/-- **Whatever happens in a tab**, in any order: there is one refresh at a time, a write is sent again only
after it was refused, each call returns the `authFetch` of its own exchanges, and the dialog is open only
while a call waits for it. -/
theorem session_kept (run : Run tab anyMove {} past s pending) : Kept past s pending where
  refreshes := (tended run).refreshes
  writes _ _ member write := (told run).writes member write
  few := few (told run) (tended run)
  returned := (told run).ended
  dialogs d shown := by
    have tended := tended run
    obtain ⟨r, asking⟩ := tended.awaited.dialogs d shown
    obtain ⟨c, res, waiting⟩ := tended.awaited.renewals r (tended.renewals.alive asking rfl)
    exact ⟨c, res, r, asking, waiting⟩

end Runs

/-- An answer of this status. -/
def ofStatus (status : Nat) : Fetched Unit := .response { status, json := none, errorText := fun _ => rfl }

def everything : Tab Unit → List (Task Unit) → Move Call (Task Unit) (Answer Unit) → Bool := fun _ _ _ => true

/-- Two writes are refused, the refresh is refused, and a login lets both of them be sent again. -/
def relogin : EventLoop.Config (Tab Unit) Call (Task Unit) (Answer Unit) :=
  tab.play everything {}
    [.call .setupSession, .call (.authFetch false), .call (.authFetch false), .resume 0 (.fetched (ofStatus 401)),
      .resume 0 (.fetched (ofStatus 401)), .resume 0 (.plain (ofStatus 401)), .call .submitReauth,
      .resume 3 (.plain (ofStatus 200)), .resume 2 .turn, .resume 2 .turn, .resume 2 .turn, .resume 0 .turn,
      .resume 0 .turn, .resume 0 (.fetched (ofStatus 200))]

theorem relogin_run : Run tab anyMove {} relogin.past relogin.state relogin.pending :=
  Run.mono (Run.of_choices _ _) fun _ _ _ _ => trivial

theorem session_kept_relogin : Kept relogin.past relogin.state relogin.pending ∧
    relogin.pending = [.request 1 .replay] ∧ heard relogin.past 0 = [ofStatus 200, ofStatus 401] ∧
    relogin.state.renewals = 1 ∧ relogin.state.dialogs = 1 ∧ relogin.state.pendingReauth = none :=
  ⟨session_kept relogin_run, rfl, rfl, rfl, rfl, rfl⟩

/-! ### Every run ends -/

/-- What a task can still do. -/
def weight : Task α → Nat
  | .request _ .first => 8
  | .request _ .again => 7
  | .request _ .replay => 1
  | .renewal _ _ _ => 2
  | .refresh _ => 4
  | .dialog _ _ => 3
  | .cleanup _ _ => 2
  | .settle _ _ => 1
  | .reauthenticate => 1
  | .hasValidSession => 2
  | .checked => 1

section Ends

variable {past : List (Move Call (Task α) (Answer α))} {s s' : Tab α} {pending new before after : List (Task α)}
  {t : Task α} {a : Answer α} {c r d : Nat}

theorem weight_early {stage : Stage} (early : stage ≠ .replay) : 7 ≤ weight (.request c stage : Task α) := by
  cases stage with
  | first => exact Nat.le_succ 7
  | again => exact Nat.le_refl 7
  | replay => exact absurd rfl early

theorem weight_pos (t : Task α) : 0 < weight t := by
  cases t with
  | request c stage => cases stage <;> exact Nat.succ_pos _
  | _ => exact Nat.succ_pos _

/-- Whatever happens to a task, less is left to do. -/
theorem wanes : Wanes (tab : Machine (Tab α) Call (Task α) (Answer α)) weight 8 where
  call c s s' new acts := by
    cases call_cases (Option.some.inj acts) with
    | _ => simp [load, weight]
  resume t a s s' new acts := by
    cases resume_cases acts with
    | joins c stage f res r early answer refused running =>
        exact (show 2 < 7 by decide).trans_le (weight_early early)
    | renews c stage f res early answer refused idle =>
        exact (show 6 < 7 by decide).trans_le (weight_early early)
    | ends c stage f result final => exact weight_pos _
    | _ => simp [load, weight]

/-- Something can go on, or the dialog is open for a renewal. -/
def GoesOn (s : Tab α) (pending : List (Task α)) : Prop :=
  (∃ t ∈ pending, ∃ a s' new, tab.resume t a s = some (s', new)) ∨
    ∃ r d, .dialog r d ∈ pending ∧ s.pendingReauth = some d

/-- A renewal can go on, unless it waits for the dialog. -/
theorem renewal_goesOn (awaited : Awaited s pending) (member : t ∈ pending) (renews : t.renews = some r) :
    GoesOn s pending := by
  cases t with
  | refresh j => exact .inl ⟨_, member, .plain .failed, _, _, rfl⟩
  | dialog j d =>
      rcases awaited.closed j d member with closed | shown
      · exact .inl ⟨_, member, .turn, s, [.cleanup j (.ok true)], if_pos closed⟩
      · exact .inr ⟨j, d, member, shown⟩
  | cleanup j outcome => exact .inl ⟨_, member, .turn, _, _, rfl⟩
  | settle j outcome => exact .inl ⟨_, member, .turn, _, _, rfl⟩
  | _ => exact nomatch renews

/-- **A tab is never stuck.** -/
theorem goesOn (tended : Tended s pending) (member : t ∈ pending) : GoesOn s pending := by
  cases t with
  | request c stage => exact .inl ⟨_, member, .fetched .failed, _, _, rfl⟩
  | renewal c res r =>
      cases renewed : s.renewed r with
      | some outcome => exact .inl ⟨_, member, .turn, _, _, congrArg (Option.map (s.resumed c res)) renewed⟩
      | none =>
          have running : s.renewing r = true := by
            unfold Tab.renewing
            simp [tended.awaited.started c res r member, renewed]
          obtain ⟨u, here, renews⟩ := tended.renewals.task running
          exact renewal_goesOn tended.awaited here renews
  | refresh r => exact renewal_goesOn tended.awaited member rfl
  | dialog r d => exact renewal_goesOn tended.awaited member rfl
  | cleanup r outcome => exact renewal_goesOn tended.awaited member rfl
  | settle r outcome => exact renewal_goesOn tended.awaited member rfl
  | reauthenticate => exact .inl ⟨_, member, .plain .failed, _, _, rfl⟩
  | hasValidSession => exact .inl ⟨_, member, .plain .failed, _, _, rfl⟩
  | checked => exact .inl ⟨_, member, .turn, _, _, rfl⟩

/-- What is needed to bring a tab to rest: answers, and logins of the user. -/
def Helps : Move Call (Task α) (Answer α) → Prop
  | .call call => call = .submitReauth
  | .resume _ _ => True

/-- One resumption leaves less to do. -/
theorem goes_on (run : Run tab anyMove {} past s pending) (member : t ∈ pending)
    (acts : tab.resume t a s = some (s', new)) : ∃ pending', s'.calls = s.calls ∧
      Run tab anyMove {} (.resume t a :: past) s' pending' ∧ load weight pending' < load weight pending := by
  obtain ⟨before, after, rfl⟩ := List.append_of_mem member
  refine ⟨before ++ after ++ new, (resumed_calls (resume_cases acts)).1, .step run trivial (.resume acts), ?_⟩
  have less := wanes.resume _ _ _ _ _ acts
  rw [EventLoop.load_append, EventLoop.load_pending]
  omega

/-- A login closes the dialog, and the renewal goes on. -/
theorem login_goesOn (run : Run tab anyMove {} past s pending) (member : .dialog r d ∈ pending)
    (shown : s.pendingReauth = some d) : ∃ later s' pending', (∀ move ∈ later, Helps move) ∧
      s'.calls = s.calls ∧ Run tab anyMove {} (later ++ past) s' pending' ∧
      load weight pending' < load weight pending := by
  let closes : Tab α := { s with pendingReauth := none, closed := Function.update s.closed d true }
  have asked : Run tab anyMove {} (.call .submitReauth :: past) s (pending ++ [.reauthenticate]) :=
    .step run trivial (.call rfl)
  have reaches : s.reached (ofStatus 200) = closes := by
    show s.finishReauth = closes
    unfold Tab.finishReauth
    rw [shown]
  have accepted : tab.resume .reauthenticate (.plain (ofStatus 200)) s = some (closes, []) :=
    congrArg (fun s => some (s, [])) reaches
  have closed : Run tab anyMove {} (.resume .reauthenticate (.plain (ofStatus 200)) :: .call .submitReauth :: past)
      closes (pending ++ [] ++ []) := .step asked trivial (.resume accepted)
  rw [List.append_nil, List.append_nil] at closed
  have resumes : tab.resume (.dialog r d) .turn closes = some (closes, [.cleanup r (.ok true)]) :=
    if_pos (Function.update_self ..)
  obtain ⟨pending', calls, further, less⟩ := goes_on closed member resumes
  refine ⟨_ :: _ :: [.call .submitReauth], closes, pending', fun move here => ?_, rfl, further, less⟩
  rcases List.mem_cons.mp here with rfl | here
  · exact trivial
  · rcases List.mem_cons.mp here with rfl | here
    · exact trivial
    · obtain rfl := List.mem_singleton.mp here
      exact rfl

/-- **No call is lost, and none goes on for ever.** There are at most eight resumptions for each call, and
from every state answers and logins alone bring each call to its end and close the dialog. -/
theorem session_rests (run : Run tab anyMove {} past s pending) :
    past.countP (!·.isCall) ≤ 8 * past.countP (·.isCall) ∧
      ∃ later s', (∀ move ∈ later, Helps move) ∧ Run tab anyMove {} (later ++ past) s' [] ∧
        (∀ c < s.calls, ∃ result, s'.ended c = some result) ∧ s'.pendingReauth = none := by
  refine ⟨(Nat.le_add_right _ _).trans (run.bounded wanes), ?_⟩
  have ⟨later, s', helps, calls, rests⟩ := Run.rests weight Helps (fun s s' : Tab α => s'.calls = s.calls)
    (fun _ => rfl) (fun _ _ _ first second => second.trans first) (fun past s pending run some => by
      obtain ⟨t, member⟩ := List.exists_mem_of_ne_nil pending some
      rcases goesOn (tended run) member with ⟨t, here, a, s', new, acts⟩ | ⟨r, d, here, shown⟩
      · obtain ⟨pending', calls, further, less⟩ := goes_on run here acts
        refine ⟨[.resume t a], s', pending', fun move single => ?_, calls, further, less⟩
        obtain rfl := List.mem_singleton.mp single
        exact trivial
      · exact login_goesOn run here shown) run
  refine ⟨later, s', helps, rests, fun c made => ?_, ?_⟩
  · cases finished : s'.ended c with
    | some result => exact ⟨result, rfl⟩
    | none =>
        have opened : s'.open c = true := by
          unfold Tab.open
          rw [calls, finished]
          simp [made]
        obtain ⟨t, member, _⟩ := (tended rests).calls.task opened
        exact absurd member List.not_mem_nil
  · cases shown : s'.pendingReauth with
    | none => rfl
    | some d =>
        obtain ⟨r, member⟩ := (tended rests).awaited.dialogs d shown
        exact absurd member List.not_mem_nil

theorem session_rests_relogin : ∃ later s', (∀ move ∈ later, Helps move) ∧
    Run tab anyMove {} (later ++ relogin.past) s' [] ∧ (∀ c < 2, ∃ result, s'.ended c = some result) ∧
      s'.pendingReauth = none :=
  (session_rests relogin_run).2

end Ends

end Wuflow.Session

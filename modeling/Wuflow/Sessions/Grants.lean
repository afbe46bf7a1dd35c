/-
**How old the rights of a caller can be.**

An access token is not looked up again: it is believed until it expires. It is dated after the account it is for
has been read, in a request that may be slow. So a caller is served with the rights that the account had some time
ago, but never longer ago than `accessTokenDuration` and the length of a request.

* `serve_grants` — the tokens of a login or a refresh are dated after the account was read.
* `caller_recent` — whoever is served was an active account with this email and role less than that time ago.
* `update_takes_effect`, `delete_takes_effect` — after that time only what the last update has written is served,
  and nobody who has been deleted.
-/

import Wuflow.Requests.Gate
import Wuflow.Sessions.Refresh

namespace Wuflow

open Calendar (Instant)
open Interleave (Prog Entry Event Run Steps Config own own_eq_append_cons)
open Interleave.Stopping (Obeys)
open Relational (Table)

/-! ### What a token is made from -/

/-- The entry has read this account. -/
def ReadsUser (user : User) : Entry Query.Answer → Prop
  | ⟨.read (.userByID _), answer⟩ => answer = .ok (some user)
  | ⟨.read (.userByEmail _), answer⟩ => answer = .ok (some user)
  | _ => False

/-- **The token is dated after a read of the active account it is for.** -/
def Grants (past : Past) (token : AccessToken) : Prop :=
  ∃ user after between before entry dated, past = after ++ ⟨.now, dated⟩ :: (between ++ entry :: before) ∧
    ReadsUser user entry ∧ user.active = true ∧ token.userID = user.id ∧ token.email = user.email ∧
    token.role = user.role ∧ token.expiresAt = dated + accessTokenDuration

theorem Grants.mono {past later : Past} {token : AccessToken} (extends_ : past <:+ later)
    (grants : Grants past token) : Grants later token := by
  obtain ⟨more, rfl⟩ := extends_
  obtain ⟨user, after, between, before, entry, dated, rfl, rest⟩ := grants
  exact ⟨user, more ++ after, between, before, entry, dated, (List.append_assoc _ _ _).symm, rest⟩

/-- What is set as the access token is granted. -/
def Granting (past : Past) (response : Response) : Prop :=
  ∀ token refreshToken, response.cookies = .set token refreshToken → Grants past token

section Requests

variable {host : Host} {past : Past} {user : User}

/-- There are no conditions on what is asked here. -/
def Anything (_ : Past) (_ : Query) : Prop := True

theorem anything_obeys {α : Type} (p : Backend α) : p.Obeys Anything (fun later _ => past <:+ later) past :=
  (Prog.Obeys.extends_past p past).mono (fun _ _ _ => trivial) fun _ _ suffix => suffix

theorem generateAccessToken_grants {entry : Entry Query.Answer} (member : entry ∈ past) (reads : ReadsUser user entry) :
    (generateAccessToken user).Obeys Anything
      (fun later made => ∀ token, made = some token → Grants later token) past := by
  unfold generateAccessToken
  cases active : user.active with
  | false => exact fun _ none => by cases none
  | true =>
      refine ⟨trivial, fun dated => ⟨trivial, fun issued => ?_⟩⟩
      rintro _ ⟨⟩
      obtain ⟨between, before, rfl⟩ := List.append_of_mem member
      exact ⟨user, [⟨.now, issued⟩], between, before, entry, dated, rfl, reads, active, rfl, rfl, rfl, rfl⟩

theorem createUserSession_grants {entry : Entry Query.Answer} (member : entry ∈ past) (reads : ReadsUser user entry) :
    (createUserSession host user).Obeys Anything
      (fun later made => ∀ session token refreshToken, made = some (session, token, refreshToken) → Grants later token)
      past := by
  refine Prog.Obeys.bind (generateAccessToken_grants member reads) fun later made grants => ?_
  cases made with
  | none => exact fun _ _ _ none => by cases none
  | some token =>
      refine ⟨trivial, fun sessionToken => ⟨trivial, fun secret => ⟨trivial, fun now => ⟨trivial, fun answer => ?_⟩⟩⟩⟩
      cases answer with
      | error err => exact fun _ _ _ none => by cases none
      | ok id =>
          rintro _ _ _ ⟨⟩
          exact (grants token rfl).mono (List.suffix_append [_, _, _, _] later)

/-- A lookup of a refresh. -/
theorem looksUp_obeys (q : Select) (err : RefreshErr) :
    Obeys Anything (fun later row => later = ⟨.read q, .ok row⟩ :: past) (fun _ _ => True) past
      (orRefreshErr (select q) err) :=
  Obeys.adapt (select_told trivial) fun _ _ _ => trivial

theorem rotateSession_grants (session : Session) :
    Obeys Anything (fun later (made : User × AccessToken × List UInt8) => Grants later made.2.1) (fun _ _ => True) past
      (rotateSession host session) := by
  have quiet : ∀ {later : Past} {α : Type} (p : ExceptT RefreshErr Backend α),
      Obeys Anything (fun final _ => later <:+ final) (fun _ _ => True) later p := fun p =>
    Prog.Obeys.mono (fun _ _ here => here) (fun _ result suffix => by
      cases result with
      | ok value => exact suffix
      | error err => exact trivial) (anything_obeys p.run)
  refine Obeys.bind (looksUp_obeys _ _) ?_
  rintro _ found rfl
  cases found with
  | none => exact Obeys.bind (quiet _) fun _ _ _ => Obeys.throw trivial
  | some user =>
  show Obeys _ _ _ _ (if !user.active then _ else _)
  split
  · exact Obeys.bind (quiet _) fun _ _ _ => Obeys.throw trivial
  · refine Obeys.bind (Obeys.lift (generateAccessToken_grants List.mem_cons_self (by exact rfl)))
      fun later made grants => ?_
    cases made with
    | none => exact Obeys.throw trivial
    | some token =>
        refine Obeys.bind (Obeys.lift (anything_obeys _)) fun drawn _ first => ?_
        refine Obeys.bind (Obeys.lift (anything_obeys _)) fun dated _ second => ?_
        refine Obeys.bind (quiet _) fun updated _ third => ?_
        exact Obeys.pure ((grants token rfl).mono (first.trans (second.trans third)))

theorem refreshSession_grants (token : List UInt8) :
    Obeys Anything (fun later (made : User × AccessToken × List UInt8) => Grants later made.2.1) (fun _ _ => True) past
      (refreshSession host token) := by
  unfold refreshSession
  cases validateRefreshToken token with
  | none => exact Obeys.throw trivial
  | some parsed =>
  refine Obeys.bind (looksUp_obeys _ _) ?_
  rintro _ found rfl
  cases found with
  | none => exact Obeys.throw trivial
  | some session =>
  refine Obeys.bind (ask_obeys trivial) fun _ now _ => ?_
  split
  · exact Obeys.bind (Obeys.lift (anything_obeys _)) fun _ _ _ => Obeys.throw trivial
  · split
    · exact Obeys.bind (Obeys.lift (anything_obeys _)) fun _ _ _ => Obeys.throw trivial
    · exact rotateSession_grants session

theorem Granting.of_keeps {response : Response}
    (keeps : ∀ token refreshToken, response.cookies ≠ .set token refreshToken) : Granting past response :=
  fun token refreshToken same => absurd same (keeps token refreshToken)

theorem handleLogin_grants (ip : String) (body : Body LoginRequest) :
    Obeys Anything Granting Granting past (handleLogin host ip body) := by
  have refused : ∀ {later : Past} {message : String} {status : Nat}, Granting later (httpError message status) :=
    Granting.of_keeps (by rintro _ _ ⟨⟩)
  refine Obeys.bind (ask_obeys trivial) fun _ blocked _ => ?_
  refine Obeys.bind (ensure_obeys fun _ => refused) fun _ _ _ => ?_
  refine Obeys.bind (decodeAndValidate_obeys fun _ => refused) fun _ login _ => ?_
  refine Obeys.bind (ask_obeys trivial) fun _ blocked _ => ?_
  refine Obeys.bind (ensure_obeys fun _ => refused) fun _ _ _ => ?_
  refine Obeys.bind (orFail_obeys (select_told trivial)
    fun _ _ _ => refused) ?_
  rintro _ found rfl
  cases found with
  | none => exact Obeys.bind (ask_obeys trivial) fun _ _ _ => Obeys.throw refused
  | some user =>
  dsimp only
  split
  · exact Obeys.bind (ask_obeys trivial) fun _ _ _ => Obeys.throw refused
  · refine Obeys.bind (Obeys.lift (createUserSession_grants List.mem_cons_self (by exact rfl)))
      fun later made grants => ?_
    cases made with
    | none => exact Obeys.throw refused
    | some made =>
        obtain ⟨session, token, refreshToken⟩ := made
        refine Obeys.bind (ask_obeys trivial) ?_
        rintro _ _ rfl
        refine Obeys.bind (Obeys.lift (anything_obeys _)) fun final _ suffix => Obeys.pure ?_
        rintro _ _ ⟨⟩
        exact (grants session token refreshToken rfl).mono ((List.suffix_cons _ _).trans suffix)

theorem handleRefresh_grants (ip : String) (cookie : Option (List UInt8)) :
    Obeys Anything Granting Granting past (handleRefresh host ip cookie) := by
  refine Obeys.bind (ask_obeys trivial) fun _ allowed _ => ?_
  refine Obeys.bind (ensure_obeys fun _ => Granting.of_keeps (by rintro _ _ ⟨⟩)) fun _ _ _ => ?_
  refine Obeys.bind (orRespond_obeys fun _ => Granting.of_keeps (by rintro _ _ ⟨⟩)) fun _ token _ => ?_
  refine Obeys.bind (Obeys.lift (refreshSession_grants token)) fun later result grants => ?_
  cases result with
  | error err => exact Obeys.throw (Granting.of_keeps (by rintro _ _ ⟨⟩))
  | ok made =>
      refine Obeys.pure ?_
      rintro _ _ ⟨⟩
      exact grants

theorem handlePageLoad_grants (cookie : Option (List UInt8)) :
    Obeys Anything Granting Granting past (handlePageLoad host cookie) := by
  refine Obeys.bind (orRespond_obeys fun _ => Granting.of_keeps (by rintro _ _ ⟨⟩)) fun _ token _ => ?_
  refine Obeys.bind (Obeys.lift (refreshSession_grants token)) fun later result grants => ?_
  cases result with
  | error err => exact Obeys.throw (Granting.of_keeps (by rintro _ _ ⟨⟩))
  | ok made =>
      refine Obeys.pure ?_
      rintro _ _ ⟨⟩
      exact grants

/-- The requests whose handlers set the auth cookies. -/
def Request.SetsCookies : Request → Prop
  | .login _ _ | .refresh _ _ | .pageLoad _ => True
  | _ => False

/-- **The tokens of a login or a refresh are granted.** -/
theorem serve_grants {req : Request} (sets : req.SetsCookies) : (serve host req).Obeys Anything Granting past := by
  cases req with
  | login ip body => exact Handler.respond_obeys (handleLogin_grants ip body)
  | refresh ip cookie => exact Handler.respond_obeys (handleRefresh_grants ip cookie)
  | pageLoad cookie => exact Handler.respond_obeys (handlePageLoad_grants cookie)
  | _ => exact sets.elim

end Requests

/-! ### Time -/

section Time

variable {ι : Type}

/-- **The time of each step**: it does not go back, the clock is read at it, and no request takes longer than
`most`. -/
structure OnTime (most : Int) (timed : List (Int × Step ι)) : Prop where
  steady : timed.Pairwise fun later earlier => earlier.1 ≤ later.1
  clock : ∀ step ∈ timed, ∀ t ∈ clockReading step.2.entry, t = step.1
  prompt : timed.Pairwise fun later earlier => later.2.thread = earlier.2.thread → later.1 ≤ earlier.1 + most

/-- The signed token has times of whole seconds. -/
def AccessToken.signed (token : AccessToken) : AccessToken :=
  { token with
    expiresAt := token.expiresAt / Calendar.nanosPerSecond * Calendar.nanosPerSecond
    issuedAt := token.issuedAt / Calendar.nanosPerSecond * Calendar.nanosPerSecond }

theorem AccessToken.signed_le (token : AccessToken) : token.signed.expiresAt ≤ token.expiresAt :=
  Int.ediv_mul_le _ (by decide)

/-- A place in a timed trace. -/
theorem timed_place {timed : List (Int × Step ι)} {later earlier : List (Step ι)} {event : Step ι}
    (place : timed.map Prod.snd = later ++ event :: earlier) :
    ∃ later' t earlier', timed = later' ++ (t, event) :: earlier' ∧ later'.map Prod.snd = later ∧
      earlier'.map Prod.snd = earlier := by
  obtain ⟨later', rest, rfl, rfl, same⟩ := List.map_eq_append_iff.mp place
  obtain ⟨⟨t, event'⟩, earlier', rfl, rfl, rfl⟩ := List.map_eq_cons_iff.mp same
  exact ⟨later', t, earlier', rfl, rfl, rfl⟩

/-- The account that was read is stored. -/
theorem ReadsUser.stored {event : Step ι} {before after : Store} {user : User}
    (reads : ReadsUser user event.entry) (here : event.query.perform before event.answer after) :
    ∃ row, before.users.get? user.id = some row ∧ user = scanUserRow user.id row := by
  obtain ⟨thread, query, answer⟩ := event
  cases query with
  | read q =>
      obtain ⟨answered, _⟩ := perform_read here
      cases q with
      | userByID id =>
          obtain ⟨rfl, row, found, scanned⟩ := userByID_found (Except.ok.inj (answered.symm.trans reads))
          exact ⟨row, found, scanned⟩
      | userByEmail email =>
          obtain ⟨⟨id, row⟩, first, rfl⟩ := Option.map_eq_some_iff.mp (Except.ok.inj (answered.symm.trans reads))
          exact ⟨row, Table.mem_entries_iff.mp (List.mem_of_find?_eq_some first), rfl⟩
      | _ => exact reads.elim
  | _ => exact reads.elim

/-- A step that is late enough comes after another one. -/
theorem OnTime.after {timed later earlier later' earlier' : List (Int × Step ι)} {most t t' : Int}
    {event event' : Step ι}
    (onTime : OnTime most timed) (place : timed = later ++ (t, event) :: earlier)
    (place' : timed = later' ++ (t', event') :: earlier') (late : t < t') :
    ∃ between, earlier' = between ++ (t, event) :: earlier ∧ later = later' ++ (t', event') :: between := by
  subst place
  have order := (List.pairwise_append.mp onTime.steady).2.1
  rcases List.append_eq_append_iff.mp place' with ⟨between, rfl, same⟩ | ⟨between, rfl, same⟩
  · have member : (t', event') ∈ (t, event) :: earlier := same ▸ List.mem_append_right _ List.mem_cons_self
    rcases List.mem_cons.mp member with same | before
    · cases same
      exact absurd late (lt_irrefl _)
    · exact absurd ((List.pairwise_cons.mp order).1 _ before) (not_le_of_gt late)
  · cases between with
    | nil =>
        cases same
        exact absurd late (lt_irrefl _)
    | cons step between =>
        cases same
        exact ⟨between, rfl, rfl⟩

variable [DecidableEq ι]

/-- The request has set this access token. -/
def Issues (reqs : ι → Request) (current : ι → Backend Response) (token : AccessToken) : Prop :=
  ∃ i response refreshToken, (reqs i).SetsCookies ∧ current i = .done response ∧
    response.cookies = .set token refreshToken

/-- **Only tokens that were issued are signed.** -/
def Unforged (env : Env) (reqs : ι → Request) (current : ι → Backend Response) : Prop :=
  ∀ text claims, env.verify text = some claims → ∃ token, Issues reqs current token ∧ claims = token.signed

variable {host : Host} {reqs : ι → Request} {timed : List (Int × Step ι)} {s : Store}
  {current : ι → Backend Response} {most : Int}

/-- **An account is read not long before its token is dated.** -/
theorem Issues.recent {token : AccessToken} (run : Serves host reqs (timed.map Prod.snd) s current)
    (onTime : OnTime most timed) (issues : Issues reqs current token) :
    ∃ later t read earlier before row, timed = later ++ (t, read) :: earlier ∧
      Reaches (earlier.map Prod.snd) before ∧ before.users.get? token.userID = some row ∧ row.active = true ∧
      row.email = token.email ∧ row.role = token.role ∧ token.expiresAt ≤ t + most + accessTokenDuration := by
  obtain ⟨i, response, refreshToken, sets, finished, cookies⟩ := issues
  have granted : Granting (own i (timed.map Prod.snd)) response := run.post (serve_grants sets) finished
  obtain ⟨user, after, between, before, entry, dated, history, reads, active, userID, email, role, expires⟩ :=
    granted token refreshToken cookies
  obtain ⟨_, stamp, _, place, thread, stamped, _, history⟩ := own_eq_append_cons history
  obtain ⟨later, at_, rest, rfl, _, rfl⟩ := timed_place place
  obtain ⟨_, read, _, place, thread', found, _, _⟩ := own_eq_append_cons history
  obtain ⟨middle, t, earlier, rfl, _, rfl⟩ := timed_place place
  have clocked : dated = at_ :=
    onTime.clock (at_, stamp) (List.mem_append_right _ List.mem_cons_self) dated (stamped ▸ rfl)
  have soon : at_ ≤ t + most := by
    have pairs := (List.pairwise_append.mp onTime.prompt).2.1
    exact (List.pairwise_cons.mp pairs).1 (t, read) (List.mem_append_right _ List.mem_cons_self)
      (thread.trans thread'.symm)
  have reaches : Reaches _ s := run.steps
  rw [List.map_append, List.map_cons, List.map_append, List.map_cons] at reaches
  obtain ⟨_, _, reaches, _, _⟩ := reaches.split
  obtain ⟨store, _, reaches, looked, _⟩ := Reaches.split reaches
  obtain ⟨row, stored, scanned⟩ := ReadsUser.stored (found ▸ reads) looked
  refine ⟨later ++ (at_, stamp) :: middle, t, read, earlier, store, row, ?_, reaches, ?_, ?_, ?_, ?_, ?_⟩
  · rw [List.append_assoc, List.cons_append]
  · rw [userID]
    exact stored
  · rw [scanned] at active
    exact active
  · exact (congrArg User.email scanned).symm.trans email.symm
  · exact (congrArg User.role scanned).symm.trans role.symm
  · rw [expires, clocked]
    exact Int.add_le_add_right soon _

section Served

variable {env : Env} {now : Instant} {clock : Clock} {http : HttpRequest} {limiter : KeyedLimiter Int}
  {caller : Caller}

omit [DecidableEq ι] in
/-- Whoever is served has a token that was issued for it and is not expired. -/
theorem served_issued (unforged : Unforged env reqs current)
    (served : (receive env now clock http limiter).1.caller = some caller) :
    ∃ token, Issues reqs current token ∧ now < token.expiresAt ∧ caller = ⟨token.userID, token.email, token.role⟩ := by
  rcases receive_serves with anonymous | shows
  · rw [anonymous.caller] at served
    cases served
  obtain ⟨claims, ⟨text, _, verified, valid⟩, rfl⟩ := shows caller served
  obtain ⟨token, issues, rfl⟩ := unforged text claims verified
  exact ⟨token, issues, lt_of_lt_of_le valid token.signed_le, rfl⟩

/-- **Whoever is served was an active account with this email and role a short time ago.** -/
theorem caller_recent (run : Serves host reqs (timed.map Prod.snd) s current) (onTime : OnTime most timed)
    (unforged : Unforged env reqs current)
    (served : (receive env now clock http limiter).1.caller = some caller) :
    ∃ later t read earlier before row, timed = later ++ (t, read) :: earlier ∧
      now < t + most + accessTokenDuration ∧ Reaches (earlier.map Prod.snd) before ∧
      before.users.get? caller.userID = some row ∧ row.active = true ∧ row.email = caller.email ∧
      row.role = caller.role := by
  obtain ⟨token, issues, valid, rfl⟩ := served_issued unforged served
  obtain ⟨later, t, read, earlier, before, row, place, reaches, stored, active, email, role, expires⟩ :=
    issues.recent run onTime
  exact ⟨later, t, read, earlier, before, row, place, lt_of_lt_of_le valid expires, reaches, stored, active, email,
    role⟩

/-- **An update takes effect**: after `accessTokenDuration` and the length of a request, whoever is served as this
account has what the last update has written. -/
theorem update_takes_effect (run : Serves host reqs (timed.map Prod.snd) s current) (onTime : OnTime most timed)
    (unforged : Unforged env reqs current) {later earlier : List (Int × Step ι)} {t : Int} {update : Step ι} {u : User}
    (place : timed = later ++ (t, update) :: earlier) (updates : Updates update u)
    (last : ∀ step ∈ later, ∀ u', Updates step.2 u' → u'.id ≠ u.id)
    (long : t + most + accessTokenDuration ≤ now)
    (served : (receive env now clock http limiter).1.caller = some caller) (own_ : caller.userID = u.id) :
    u.active = true ∧ caller.email = u.email ∧ caller.role = u.role := by
  obtain ⟨token, issues, valid, rfl⟩ := served_issued unforged served
  obtain ⟨later', t', read, earlier', before, row, place', reaches, stored, active, email, role, expires⟩ :=
    issues.recent run onTime
  obtain ⟨between, rfl, rfl⟩ := onTime.after place place' (by linarith)
  rw [List.map_append, List.map_cons] at reaches
  obtain ⟨old, new, _, here, rest⟩ := Reaches.split reaches
  obtain ⟨_, _, set⟩ := updates.sets here
  have given := (Table.get?_le_seq set).2
  have kept : ∀ event ∈ between.map Prod.snd, ∀ u', Updates event u' → u'.id ≠ u.id := by
    intro event member
    obtain ⟨step, among, rfl⟩ := List.mem_map.mp member
    exact last step (List.mem_append_right _ (List.mem_cons_of_mem _ among))
  rw [show token.userID = u.id from own_] at stored
  obtain ⟨row', found, _, same⟩ := account_kept rest given kept stored
  cases set.symm.trans found
  rw [same] at active email role
  exact ⟨active, email.symm, role.symm⟩

/-- **A deletion takes effect**: after that time nobody is served as the account. -/
theorem delete_takes_effect (run : Serves host reqs (timed.map Prod.snd) s current) (onTime : OnTime most timed)
    (unforged : Unforged env reqs current) {later earlier : List (Int × Step ι)} {t : Int} {deletion : Step ι}
    {before after : Store} {row : UserRow} (place : timed = later ++ (t, deletion) :: earlier)
    (reaches : Reaches (earlier.map Prod.snd) before)
    (stored : before.users.get? caller.userID = some row)
    (here : deletion.query.perform before deletion.answer after) (deleted : after.users.get? caller.userID = none)
    (long : t + most + accessTokenDuration ≤ now) :
    (receive env now clock http limiter).1.caller ≠ some caller := by
  intro served
  obtain ⟨token, issues, valid, rfl⟩ := served_issued unforged served
  obtain ⟨later', t', read, earlier', store, row', place', reaches', stored', _, _, _, expires⟩ :=
    issues.recent run onTime
  obtain ⟨between, rfl, rfl⟩ := onTime.after place place' (by linarith)
  rw [List.map_append, List.map_cons] at reaches'
  obtain ⟨old, new, first, again, rest⟩ := Reaches.split reaches'
  obtain rfl := first.unique reaches
  obtain rfl := perform_unique _ _ _ _ _ again here
  have given := le_trans (Table.get?_le_seq stored).2 (perform_evolves here).users.seq_le
  have gone := (steps_evolve rest).users.gone given deleted
  rw [gone] at stored'
  cases stored'

end Served

end Time

/-! ### A run -/

/-- The administrator is renamed and logs in twenty minutes later. -/
def graceRequests : Fin 4 → Request
  | 0 => bootstrap
  | 1 => .updateUser sampleAdmin (some 1) (.json
      { email := "root@example.com", firstName := "Grace", lastName := "Hopper", role := .sysadmin, active := true })
  | _ => sampleLogin

def twentyMinutes : Int := 20 * minute

def graceRun : Config (Fin 4) Query.Answer Store Response :=
  execute sampleHost graceRequests (bootstrapMoves 0 ++ stepsOf 1 3 { instant := 1 } ++
    stepsOf 2 12 { instant := twentyMinutes })

/-- The run with the time of each step. -/
def graceTimed : List (Int × Step (Fin 4)) :=
  graceRun.past.map fun event => (if event.thread = 2 then twentyMinutes else 1, event)

def grace : User :=
  { id := 1, email := "root@example.com", firstName := "Grace", lastName := "Hopper"
    passwordHash := "bcrypt:correct horse 7!", role := .sysadmin, active := true, updatedAt := 1 }

/-- The only token that verifies is that of the login. -/
def graceEnv : Env :=
  { quietEnv with
    verify := fun _ => some
      { userID := 1, email := "root@example.com", role := .sysadmin, expiresAt := 35 * minute
        issuedAt := twentyMinutes } }

/-- A listing that is asked for a minute later. -/
def listing : Outcome :=
  (receive graceEnv (21 * minute) ⟨0, 0⟩
    { method := .get, path := ["api", "projects"], accessToken := some "token" } apiLimiter).1

theorem graceRun_serves :
    Serves sampleHost graceRequests (graceTimed.map Prod.snd) graceRun.store graceRun.current := by
  have steps : graceTimed.map Prod.snd = graceRun.past := by
    unfold graceTimed
    rw [List.map_map]
    exact List.map_id _
  rw [steps]
  exact Serves.of_moves sampleHost graceRequests _

/-- The step writes an account. -/
def updatesUser (event : Step (Fin 4)) : Bool :=
  match event.query with
  | .write (.updateUser _ _) => true
  | _ => false

theorem Updates.updatesUser {event : Step (Fin 4)} {u : User} (updates : Updates event u) :
    updatesUser event = true := by
  obtain ⟨thread, query, answer⟩ := event
  obtain ⟨removes, rows, same, _⟩ := updates
  cases same
  rfl

/-- The update in its place, and what is checked of the times and of the steps after it. -/
theorem graceTimed_checked :
    (graceTimed.Pairwise fun later earlier => earlier.1 ≤ later.1) ∧
      (∀ step ∈ graceTimed, ∀ t ∈ clockReading step.2.entry, t = step.1) ∧
      (graceTimed.Pairwise fun later earlier =>
        later.2.thread = earlier.2.thread → later.1 ≤ earlier.1 + 0) ∧
      graceTimed = graceTimed.take 12 ++ (1, ⟨1, .write (.updateUser grace false), .ok 1⟩) ::
        graceTimed.drop 13 ∧
      ∀ step ∈ graceTimed.take 12, updatesUser step.2 = false := by decide +kernel

theorem graceTimed_onTime : OnTime 0 graceTimed :=
  ⟨graceTimed_checked.1, graceTimed_checked.2.1, graceTimed_checked.2.2.1⟩

theorem graceEnv_unforged : Unforged graceEnv graceRequests graceRun.current := by
  rintro text claims ⟨⟩
  have issued : returned (graceRun.current 2) =
      some ⟨1, "root@example.com", .sysadmin, 35 * minute, twentyMinutes⟩ := by decide +kernel
  obtain ⟨response, refreshToken, finished, cookies⟩ := set_of_returned issued
  exact ⟨_, ⟨2, response, refreshToken, trivial, finished, cookies⟩, by decide +kernel⟩

deriving instance DecidableEq for Caller

theorem listing_served : listing.caller = some ⟨1, "root@example.com", .sysadmin⟩ := by decide +kernel

theorem caller_recent_grace :
    ∃ later t read earlier before row, graceTimed = later ++ (t, read) :: earlier ∧
      21 * minute < t + 0 + accessTokenDuration ∧ Reaches (earlier.map Prod.snd) before ∧
      before.users.get? 1 = some row ∧ row.active = true ∧ row.email = "root@example.com" ∧ row.role = .sysadmin :=
  caller_recent graceRun_serves graceTimed_onTime graceEnv_unforged listing_served

theorem update_takes_effect_grace :
    grace.active = true ∧ "root@example.com" = grace.email ∧ UserRole.sysadmin = grace.role := by
  obtain ⟨_, _, _, place, quiet⟩ := graceTimed_checked
  exact update_takes_effect graceRun_serves graceTimed_onTime graceEnv_unforged place ⟨false, 1, rfl, by decide⟩
    (fun step member u updates => by
      cases (quiet step member).symm.trans updates.updatesUser) (by decide) listing_served rfl

/-! ### A deleted account -/

/-- Ann logs in and is deleted, all within a minute. -/
def removedRequests : Fin 4 → Request
  | 0 => bootstrap
  | 1 => .createUser sampleAdmin (.json
      { email := "ann@example.com", firstName := "Ann", lastName := "Lee", password := "battery staple 8!"
        role := .user, active := true })
  | 2 => .login "192.0.2.1" (.json { email := "ann@example.com", password := "battery staple 8!" })
  | 3 => .deleteUser sampleAdmin (some 2) (.json { adminPassword := "correct horse 7!" })

/-- The deletion takes `n` steps. -/
def removedRun (n : Nat) : Config (Fin 4) Query.Answer Store Response :=
  execute sampleHost removedRequests (stepsOf 0 9 { instant := minute, text := some "bcrypt:correct horse 7!" } ++
    stepsOf 1 12 { instant := minute, text := some "bcrypt:battery staple 8!" } ++
    stepsOf 2 12 { instant := minute } ++ stepsOf 3 n { instant := minute })

/-- Every step is taken at this minute. -/
def removedTimed (n : Nat) : List (Int × Step (Fin 4)) := (removedRun n).past.map fun event => (minute, event)

def removal : Step (Fin 4) := ⟨3, .write (.deleteUser 2 (some 1) "Ann Lee" minute minute), .ok 0⟩

def ann : Caller := ⟨2, "ann@example.com", .user⟩

/-- Her token is the only one that verifies. -/
def annEnv : Env :=
  { quietEnv with
    verify := fun _ => some
      { userID := 2, email := "ann@example.com", role := .user, expiresAt := 16 * minute, issuedAt := minute } }

theorem removedTimed_snd (n : Nat) : (removedTimed n).map Prod.snd = (removedRun n).past := by
  unfold removedTimed
  rw [List.map_map]
  exact List.map_id _

theorem removedRun_serves (n : Nat) :
    Serves sampleHost removedRequests ((removedTimed n).map Prod.snd) (removedRun n).store (removedRun n).current := by
  rw [removedTimed_snd]
  exact Serves.of_moves sampleHost removedRequests _

/-- The deletion is the last step; Ann is there before it and gone after it. -/
theorem removedRun_checked :
    (∀ step ∈ removedTimed 5, ∀ t ∈ clockReading step.2.entry, t = step.1) ∧
      removedTimed 5 = (minute, removal) :: removedTimed 4 ∧
      ((removedRun 4).store.users.get? 2).isSome = true ∧ (removedRun 5).store.users.get? 2 = none := by
  decide +kernel

theorem removedTimed_onTime : OnTime 0 (removedTimed 5) where
  steady := List.pairwise_map.mpr (List.pairwise_of_forall fun _ _ => le_refl _)
  clock := removedRun_checked.1
  prompt := List.pairwise_map.mpr (List.pairwise_of_forall fun _ _ _ => by simp)

theorem annEnv_unforged : Unforged annEnv removedRequests (removedRun 5).current := by
  rintro text claims ⟨⟩
  have issued : returned ((removedRun 5).current 2) =
      some ⟨2, "ann@example.com", .user, 16 * minute, minute⟩ := by decide +kernel
  obtain ⟨response, refreshToken, finished, cookies⟩ := set_of_returned issued
  exact ⟨_, ⟨2, response, refreshToken, trivial, finished, cookies⟩, by decide +kernel⟩

/-- Her token is good for another minute, and fifteen minutes after the deletion for nothing, whatever is asked. -/
theorem delete_takes_effect_ann :
    (receive annEnv (2 * minute) ⟨0, 0⟩
        { method := .get, path := ["api", "projects"], accessToken := some "token" } apiLimiter).1.caller =
      some ann ∧
    ∀ http, (receive annEnv (16 * minute) ⟨0, 0⟩ http apiLimiter).1.caller ≠ some ann := by
  refine ⟨by decide +kernel, fun http => ?_⟩
  obtain ⟨_, place, stored, deleted⟩ := removedRun_checked
  obtain ⟨row, stored⟩ := Option.isSome_iff_exists.mp stored
  have reaches : Reaches ((removedTimed 4).map Prod.snd) (removedRun 4).store := (removedRun_serves 4).steps
  have whole : Reaches ((removedTimed 5).map Prod.snd) (removedRun 5).store := (removedRun_serves 5).steps
  rw [place, List.map_cons] at whole
  obtain ⟨before, first, here⟩ := Interleave.steps_cons_iff.mp whole
  obtain rfl := Reaches.unique first reaches
  exact delete_takes_effect (removedRun_serves 5) removedTimed_onTime annEnv_unforged
    (show removedTimed 5 = [] ++ _ :: _ from place) reaches stored here deleted (by decide)

end Wuflow

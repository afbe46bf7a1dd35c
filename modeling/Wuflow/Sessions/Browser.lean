/-
**A browser that renews its session in turn is never taken for a thief** (`auth.go`, `handlers.go`).

A refresh token is rotated with every use, and a refresh that presents an old one deletes all sessions of the
user. A browser sends the cookie that was set last; the page sends one renewal at a time.

* `Careful` — what a login, a logout or a refresh has seen before it looks a session up, stores a secret or
  revokes sessions.
* `HonestBrowser` — the requests of one browser that use its cookie, one after another.
* `renewals_accepted` — whatever else is served in between, no renewal of such a browser finds a session with
  another hash than that of its own secret, and none of them revokes the sessions of the user.
-/

import Wuflow.Sessions.Redemption
import Wuflow.Sessions.Grants

namespace Wuflow

open Calendar (Instant)
open Interleave (Prog Entry Event Run Steps own drawn own_append own_cons_self entry_mem_own mem_own
  own_eq_append_cons eq_of_nodup_drawn steps_append_iff steps_cons_iff)
open Interleave.Stopping (Asks Obeys)
open Relational (Table)

/-! ### One request -/

/-- The requests that use the cookie of the refresh token. -/
def Request.UsesCookie : Request → Prop
  | .login _ _ | .logout _ | .refresh _ _ | .pageLoad _ => True
  | _ => False

/-- No secret has been stored so far. -/
def Unspent (past : Past) : Prop := ∀ entry ∈ past, ¬ entry.1.StoresSecret

/-- The entry has stored a hash. -/
def Changed (entry : Entry Query.Answer) : Prop := ∃ id hash, Stores ⟨(), entry.1, entry.2⟩ id hash

/-- No hash has been stored so far. -/
def Unchanged (past : Past) : Prop := ∀ entry ∈ past, ¬ Changed entry

/-- The token was read back and its session found, with the hash of another secret. -/
def Mismatched (host : Host) (token : Option (List UInt8)) (past : Past) : Prop :=
  ∃ sessionToken secret session, token.bind validateRefreshToken = some (sessionToken, secret) ∧
    foundSession sessionToken session ∈ past ∧ host.computeTokenMAC secret ≠ session.tokenHash

/-- **What a request has seen** before it looks a session up, stores a secret or revokes sessions. -/
def Careful (host : Host) (req : Request) (past : Past) : Query → Prop
  | .read (.sessionByToken _) | .write (.insertSession _) | .write (.updateSession _ _ _) => Unspent past
  | .write (.deleteSessionsByUserID _) => Mismatched host req.presents past
  | _ => True

/-- The query does none of these. -/
def Query.Idle : Query → Prop
  | .read (.sessionByToken _) | .write (.insertSession _) | .write (.updateSession _ _ _)
  | .write (.deleteSessionsByUserID _) => False
  | _ => True

theorem Query.Idle.unspent {query : Query} (idle : query.Idle) : ¬ query.StoresSecret := by
  intro stores
  unfold Query.StoresSecret at stores
  split at stores
  · exact idle
  · exact idle
  · exact stores

theorem Query.Idle.careful {host : Host} {req : Request} {past : Past} {query : Query} (idle : query.Idle) :
    Careful host req past query := by
  unfold Careful
  split
  · exact idle.elim
  · exact idle.elim
  · exact idle.elim
  · exact idle.elim
  · exact trivial

theorem unspent_nil : Unspent [] := fun _ member => absurd member List.not_mem_nil

theorem Unspent.unchanged {past : Past} (unspent : Unspent past) : Unchanged past := by
  rintro entry member ⟨id, hash, stores⟩
  exact unspent entry member stores.marked

/-- A write that changes no row. -/
theorem Unspent.failed {past : Past} (unspent : Unspent past) {w : Write} {answer : Except Err Int}
    (fails : ∀ rows, answer = .ok rows → rows = 0) (update : ∀ row, w ≠ .insertSession row) :
    Unchanged (⟨.write w, answer⟩ :: past) := by
  rintro entry member ⟨id, hash, stores⟩
  rcases List.mem_cons.mp member with rfl | member
  · unfold Stores at stores
    split at stores
    · next same =>
        cases same
        exact update _ rfl
    · next same =>
        cases same
        obtain ⟨_, _, rows, rfl, changed⟩ := stores
        exact changed (fails rows rfl)
    · exact stores
  · exact unspent entry member stores.marked

theorem Unspent.cons {past : Past} (unspent : Unspent past) (entry : Entry Query.Answer) (idle : entry.1.Idle) :
    Unspent (entry :: past) := by
  intro other member
  rcases List.mem_cons.mp member with rfl | member
  · exact idle.unspent
  · exact unspent other member

/-- The refresh token of a session that the request has created or found, with the secret it has stored. -/
structure Given (host : Host) (req : Request) (later : Past) (refreshToken sessionToken secret : List UInt8)
    (id : Int) : Prop where
  text : refreshToken = encodeRefreshToken sessionToken secret
  stored : ∃ entry ∈ later, Stores ⟨(), entry.1, entry.2⟩ id (host.computeTokenMAC secret)
  source : (∃ row, (⟨.write (.insertSession row), .ok id⟩ : Entry Query.Answer) ∈ later ∧
      row.sessionToken = sessionToken ∧ (⟨.randomText, sessionToken⟩ : Entry Query.Answer) ∈ later) ∨
    ∃ presented key secret session, req.presents = some presented ∧
      validateRefreshToken presented = some (key, secret) ∧ foundSession key session ∈ later ∧
      session.id = id ∧ session.sessionToken = sessionToken

/-- The response sets the cookie to the token it stands for, or no secret was stored. -/
def CookieAnswer (host : Host) (req : Request) (later : Past) (response : Response) : Prop :=
  (∃ accessToken refreshToken sessionToken secret id, response.cookies = .set accessToken refreshToken ∧
    Given host req later refreshToken sessionToken secret id) ∨
  ((∀ accessToken refreshToken, response.cookies ≠ .set accessToken refreshToken) ∧ Unchanged later)

theorem Given.mono {host : Host} {req : Request} {past later : Past}
    {refreshToken sessionToken secret : List UInt8} {id : Int}
    (given : Given host req past refreshToken sessionToken secret id) (extends_ : past <:+ later) :
    Given host req later refreshToken sessionToken secret id where
  text := given.text
  stored := by
    obtain ⟨entry, member, stores⟩ := given.stored
    exact ⟨entry, extends_.subset member, stores⟩
  source := by
    rcases given.source with ⟨row, member, same, drew⟩ | ⟨presented, key, secret, session, sent, valid, member, same⟩
    · exact .inl ⟨row, extends_.subset member, same, extends_.subset drew⟩
    · exact .inr ⟨presented, key, secret, session, sent, valid, extends_.subset member, same⟩

theorem Unchanged.cookieAnswer {host : Host} {req : Request} {past : Past} {response : Response}
    (unchanged : Unchanged past)
    (keeps : ∀ accessToken refreshToken, response.cookies ≠ .set accessToken refreshToken) :
    CookieAnswer host req past response := .inr ⟨keeps, unchanged⟩

section Requests

variable {ε α β : Type} {host : Host} {req : Request} {past : Past}

/-- A part that does none of these. -/
theorem Idle.part {p : ExceptT ε Backend α} (asks : Asks Query.Idle p) (unspent : Unspent past) :
    Obeys (Careful host req) (fun later _ => Unspent later) (fun later _ => Unspent later) past p := by
  refine Prog.Obeys.mono (fun _ _ => Query.Idle.careful) (fun later result new => ?_)
    (Prog.Obeys.entries_of_asks asks past)
  obtain ⟨recent, rfl, idle⟩ := new
  have unspent' : Unspent (recent ++ past) := fun entry member =>
    (List.mem_append.mp member).elim (fun member => (idle entry member).unspent) (unspent entry)
  cases result with
  | ok value => exact unspent'
  | error err => exact unspent'

/-- The same for a part that cannot stop. -/
theorem Idle.run {p : Backend α} (asks : p.Asks Query.Idle) (unspent : Unspent past) :
    p.Obeys (Careful host req) (fun later _ => Unspent later) past := by
  refine Prog.Obeys.mono (fun _ _ => Query.Idle.careful) (fun later result new => ?_)
    (Prog.Obeys.entries_of_asks asks past)
  obtain ⟨recent, rfl, idle⟩ := new
  exact fun entry member =>
    (List.mem_append.mp member).elim (fun member => (idle entry member).unspent) (unspent entry)

/-- A write that fails its check has changed nothing. -/
theorem checkedWrite_careful {w : Write} (here : Careful host req past (.write w)) (notFound : Err) :
    Obeys (Careful host req) (fun later _ => ∃ rows, rows ≠ 0 ∧ later = ⟨.write w, .ok rows⟩ :: past)
      (fun later _ => ∃ answer : Except Err Int, later = ⟨.write w, answer⟩ :: past ∧
        ∀ rows, answer = .ok rows → rows = 0) past
      (do
        let rows ← exec w
        checkRowsAffected rows notFound) := by
  refine Obeys.bind (exec_obeys here fun err => ⟨_, rfl, fun _ wrong => nomatch wrong⟩) fun _ rows found => ?_
  subst found
  unfold checkRowsAffected
  by_cases none : rows = 0
  · rw [if_pos none]
    exact Obeys.throw ⟨_, rfl, fun _ same => Except.ok.inj same ▸ none⟩
  · rw [if_neg none]
    exact Obeys.pure ⟨rows, none, rfl⟩

theorem deleteSession_idle (id : Int) : (deleteSessionSafe id).Asks Query.Idle := by
  refine Prog.Asks.bind (?_ : Asks Query.Idle (deleteSession id)) fun _ => trivial
  exact Asks.bind (exec_asks trivial) fun _ => checkRowsAffected_asks _ _

/-- **Steps 5 to 8 of a refresh.** -/
theorem rotateSession_careful {presented key secret : List UInt8} {session : Session}
    (sent : req.presents = some presented) (valid : validateRefreshToken presented = some (key, secret))
    (unspent : Unspent past) (read : foundSession key session ∈ past) :
    Obeys (Careful host req)
      (fun later (value : User × AccessToken × List UInt8) =>
        ∃ new, Given host req later value.2.2 session.sessionToken new session.id)
      (fun later _ => Unchanged later) past (rotateSession host session) := by
  refine Obeys.bind (orRefreshErr_obeys (select_obeys trivial fun err => ?_) _) fun _ found here => ?_
  · exact (unspent.cons ⟨.read (.userByID session.userID), .error err⟩ trivial).unchanged
  subst here
  have unspent₁ := unspent.cons ⟨.read (.userByID session.userID), .ok found⟩ trivial
  have drop : Obeys (Careful host req) (fun later _ => Unspent later)
      (fun later (_ : RefreshErr) => Unchanged later)
      (⟨.read (.userByID session.userID), .ok found⟩ :: past) (liftM (deleteSessionSafe session.id)) :=
    Obeys.lift (Idle.run (deleteSession_idle _) unspent₁)
  cases found with
  | none => exact Obeys.bind drop fun _ _ holds => Obeys.throw holds.unchanged
  | some user =>
  show Obeys _ _ _ _ (if !user.active then _ else _)
  cases active : user.active with
  | false => exact Obeys.bind drop fun _ _ holds => Obeys.throw holds.unchanged
  | true =>
    refine Obeys.bind (Obeys.lift (generateAccessToken_obeys user fun _ => trivial)) fun _ made outcome => ?_
    rcases outcome with ⟨_, rfl, rfl⟩ | ⟨_, t, u, accessToken, rfl, rfl, _⟩
    · exact Obeys.throw unspent₁.unchanged
    refine Obeys.bind (Obeys.lift (generateRefreshToken_obeys _ trivial)) fun _ _ drawn => ?_
    obtain ⟨new, rfl, rfl⟩ := drawn
    refine Obeys.bind (ask_obeys trivial) fun _ now here => ?_
    subst here
    have unspent₂ : Unspent (⟨.now, now⟩ :: ⟨.randomSecret, new⟩ :: ⟨.now, u⟩ :: ⟨.now, t⟩ ::
        ⟨.read (.userByID session.userID), .ok (some user)⟩ :: past) :=
      (((unspent₁.cons ⟨.now, t⟩ trivial).cons ⟨.now, u⟩ trivial).cons ⟨.randomSecret, new⟩ trivial).cons
        ⟨.now, now⟩ trivial
    have allowed : Careful host req _ (.write (.updateSession session.id (host.computeTokenMAC new)
        (now + refreshTokenDuration))) := unspent₂
    refine Obeys.bind (orRefreshErr_obeys (Obeys.mono (checkedWrite_careful allowed _)
      (fun _ _ changed => changed) ?_) _) fun _ _ changed => ?_
    · rintro _ _ ⟨answer, rfl, fails⟩
      exact unspent₂.failed fails fun _ => nofun
    · obtain ⟨rows, changed, rfl⟩ := changed
      refine Obeys.pure ⟨new, rfl, ⟨_, List.mem_cons_self, rfl, rfl, rows, rfl, changed⟩, .inr ?_⟩
      exact ⟨presented, key, secret, session, sent, valid, List.mem_append_right [_, _, _, _, _, _] read, rfl, rfl⟩

/-- The deletion of a user's sessions, tried once more if it fails. -/
theorem revokeOnReuse_careful {userID : Int} (mismatched : ∀ recent, Mismatched host req.presents (recent ++ past))
    (unspent : Unspent past) :
    (revokeOnReuse userID).Obeys (Careful host req) (fun later _ => Unspent later) past := by
  have next : ∀ {later : Past} answer, Unspent later →
      Unspent (⟨.write (.deleteSessionsByUserID userID), answer⟩ :: later) := by
    intro later answer unspent entry member
    rcases List.mem_cons.mp member with rfl | member
    · exact id
    · exact unspent entry member
  refine ⟨mismatched [], fun answer => ?_⟩
  cases answer with
  | ok rows => exact next _ unspent
  | error err =>
      refine ⟨mismatched [_], fun answer => ?_⟩
      cases answer <;> exact next _ (next _ unspent)

/-- **A refresh** stores a secret exactly if it returns it, and revokes sessions only on a mismatch. -/
theorem refreshSession_careful {token : List UInt8} (presented : req.presents = some token)
    (unspent : Unspent past) :
    Obeys (Careful host req)
      (fun later (value : User × AccessToken × List UInt8) =>
        ∃ sessionToken new id, Given host req later value.2.2 sessionToken new id)
      (fun later _ => Unchanged later) past (refreshSession host token) := by
  unfold refreshSession
  cases parsed : validateRefreshToken token with
  | none => exact Obeys.throw unspent.unchanged
  | some parts =>
  obtain ⟨sessionToken, secret⟩ := parts
  have looked : ∀ answer, Unspent (⟨.read (.sessionByToken sessionToken), answer⟩ :: past) := by
    intro answer other member
    rcases List.mem_cons.mp member with rfl | member
    · exact id
    · exact unspent other member
  refine Obeys.bind (orRefreshErr_obeys (select_obeys unspent fun err => (looked _).unchanged) _)
    fun _ found here => ?_
  subst here
  cases found with
  | none => exact Obeys.throw (looked _).unchanged
  | some session =>
  refine Obeys.bind (ask_obeys trivial) fun _ checked here => ?_
  subst here
  have unspent₁ := (looked (.ok (some session))).cons ⟨.now, checked⟩ trivial
  by_cases expired : session.expiresAt < checked
  · rw [if_pos expired]
    exact Obeys.bind (Obeys.lift (Idle.run (deleteSession_idle _) unspent₁)) fun _ _ holds =>
      Obeys.throw holds.unchanged
  rw [if_neg expired]
  by_cases differ : host.computeTokenMAC secret ≠ session.tokenHash
  · rw [if_pos differ]
    have mismatched : ∀ recent : Past, Mismatched host req.presents (recent ++ ⟨.now, checked⟩ ::
        foundSession sessionToken session :: past) := fun recent =>
      ⟨sessionToken, secret, session, by rw [presented]; exact parsed,
        List.mem_append_right _ (List.mem_cons_of_mem _ List.mem_cons_self), differ⟩
    refine Obeys.bind (Obeys.lift (revokeOnReuse_careful mismatched unspent₁)) fun _ _ holds => ?_
    exact Obeys.throw holds.unchanged
  rw [if_neg differ]
  refine Obeys.mono (rotateSession_careful presented parsed unspent₁ (List.mem_cons_of_mem _ List.mem_cons_self))
    (fun _ _ given => ⟨_, given.choose, _, given.choose_spec⟩) fun _ _ holds => holds

/-- A login stores a secret exactly if it returns it. -/
theorem createUserSession_careful (user : User) (unspent : Unspent past) :
    (createUserSession host user).Obeys (Careful host req)
      (fun later made =>
        (∀ session accessToken refreshToken, made = some (session, accessToken, refreshToken) →
          ∃ sessionToken secret id, Given host req later refreshToken sessionToken secret id) ∧
        (made = none → Unchanged later)) past := by
  refine Prog.Obeys.bind (generateAccessToken_obeys user fun _ => trivial) fun _ made outcome => ?_
  rcases outcome with ⟨_, rfl, rfl⟩ | ⟨_, t, u, accessToken, rfl, rfl, _⟩
  · exact ⟨fun _ _ _ same => (nomatch same), fun _ => unspent.unchanged⟩
  refine ⟨trivial, fun sessionToken => ⟨trivial, fun secret => ⟨trivial, fun now => ?_⟩⟩⟩
  have unspent₁ : Unspent (⟨.now, now⟩ :: ⟨.randomSecret, secret⟩ :: ⟨.randomText, sessionToken⟩ ::
      ⟨.now, u⟩ :: ⟨.now, t⟩ :: past) :=
    ((((unspent.cons ⟨.now, t⟩ trivial).cons ⟨.now, u⟩ trivial).cons ⟨.randomText, sessionToken⟩ trivial).cons
      ⟨.randomSecret, secret⟩ trivial).cons ⟨.now, now⟩ trivial
  refine ⟨unspent₁, fun answer => ?_⟩
  cases answer with
  | ok id =>
      refine ⟨fun _ _ _ same => ?_, fun same => (nomatch same)⟩
      cases same
      refine ⟨sessionToken, secret, id, rfl, ⟨_, List.mem_cons_self, rfl, rfl⟩, .inl ⟨_, List.mem_cons_self, rfl, ?_⟩⟩
      exact List.mem_append_right [_, _, _] List.mem_cons_self
  | error err =>
      refine ⟨fun _ _ _ same => (nomatch same), fun _ entry member => ?_⟩
      rcases List.mem_cons.mp member with rfl | member
      · rintro ⟨_, _, stores⟩
        exact nomatch stores.1
      · exact unspent₁.unchanged entry member

/-- An error with no secret stored. -/
theorem Unspent.cookieAnswer {later : Past} {message : String} {status : Nat} (unspent : Unspent later) :
    CookieAnswer host req later (httpError message status) :=
  unspent.unchanged.cookieAnswer (by rintro _ _ ⟨⟩)

/-- A read of a handler. -/
theorem orInternal_careful {q : Select} (idle : (Query.read q).Idle) (unspent : Unspent past) :
    Obeys (Careful host req) (fun later row => later = ⟨.read q, .ok row⟩ :: past) (CookieAnswer host req) past
      (orInternal (select q)) :=
  orFail_obeys (select_obeys idle.careful fun _ => unspent.cons _ idle) fun _ _ (quiet : Unspent _) =>
    quiet.cookieAnswer

theorem updateUserLastLogin_idle (userID : Int) : Asks Query.Idle (updateUserLastLogin userID) :=
  Asks.bind (Asks.lift (ask_asks trivial)) fun _ => Asks.bind (exec_asks trivial) fun _ => Asks.pure _

theorem handleLogin_careful (ip : String) (body : Body LoginRequest) :
    Obeys (Careful host req) (CookieAnswer host req) (CookieAnswer host req) [] (handleLogin host ip body) := by
  refine Obeys.bind (ask_obeys trivial) ?_
  rintro _ blocked rfl
  have unspent : Unspent [⟨.checkIP ip, blocked⟩] := unspent_nil.cons _ trivial
  refine Obeys.bind (ensure_obeys fun _ => unspent.cookieAnswer) ?_
  rintro _ _ ⟨rfl, _⟩
  refine Obeys.bind (decodeAndValidate_obeys fun _ => unspent.cookieAnswer) ?_
  rintro _ login ⟨rfl, _⟩
  refine Obeys.bind (ask_obeys trivial) ?_
  rintro _ blocked' rfl
  replace unspent := unspent.cons ⟨.checkIPAndEmail ip login.email, blocked'⟩ trivial
  refine Obeys.bind (ensure_obeys fun _ => unspent.cookieAnswer) ?_
  rintro _ _ ⟨rfl, _⟩
  refine Obeys.bind (orInternal_careful (by exact trivial) unspent) ?_
  rintro _ found rfl
  replace unspent := unspent.cons ⟨.read (.userByEmail login.email), .ok found⟩ trivial
  cases found with
  | none =>
      exact Obeys.bind (ask_obeys trivial) fun later answer here => Obeys.throw
        (here ▸ (unspent.cons ⟨.recordFailure ip login.email, answer⟩ trivial).cookieAnswer)
  | some user =>
  dsimp only
  split
  · exact Obeys.bind (ask_obeys trivial) fun later answer here => Obeys.throw
      (here ▸ (unspent.cons ⟨.recordFailure ip login.email, answer⟩ trivial).cookieAnswer)
  · refine Obeys.bind (Obeys.lift (createUserSession_careful user unspent)) fun later made outcome => ?_
    cases made with
    | none => exact Obeys.throw ((outcome.2 rfl).cookieAnswer (by rintro _ _ ⟨⟩))
    | some made =>
        obtain ⟨session, accessToken, refreshToken⟩ := made
        obtain ⟨sessionToken, secret, id, given⟩ := outcome.1 _ _ _ rfl
        refine Obeys.bind (ask_obeys trivial) ?_
        rintro _ _ rfl
        refine Obeys.bind (Obeys.lift (Prog.Obeys.of_asks_from (updateUserLastLogin_idle user.id)
          fun _ _ _ idle => idle.careful)) fun final _ suffix => Obeys.pure (.inl ?_)
        exact ⟨accessToken, refreshToken, sessionToken, secret, id, rfl,
          given.mono ((List.suffix_cons _ _).trans suffix)⟩

/-- A response that does not set the cookies, with no secret stored. -/
theorem Unchanged.refused {later : Past} {response : Response} (unchanged : Unchanged later)
    (keeps : response.cookies = .keep ∨ response.cookies = .clear) : CookieAnswer host req later response := by
  refine unchanged.cookieAnswer fun _ _ same => ?_
  rcases keeps with keeps | keeps
  · exact nomatch keeps.symm.trans same
  · exact nomatch keeps.symm.trans same

theorem handleRefresh_careful (ip : String) (cookie : Option (List UInt8)) :
    let req := Request.refresh ip cookie
    Obeys (Careful host req) (CookieAnswer host req) (CookieAnswer host req) [] (handleRefresh host ip cookie) := by
  intro req
  refine Obeys.bind (ask_obeys trivial) ?_
  rintro _ allowed rfl
  have unspent : Unspent [⟨.refreshAllow ip, allowed⟩] := unspent_nil.cons _ trivial
  refine Obeys.bind (ensure_obeys fun _ => unspent.cookieAnswer) ?_
  rintro _ _ ⟨rfl, _⟩
  refine Obeys.bind (orRespond_obeys fun _ => unspent.cookieAnswer) ?_
  rintro _ token ⟨rfl, presented⟩
  have sent : req.presents = some token := presented
  refine Obeys.bind (Obeys.lift (refreshSession_careful sent unspent)) fun later result holds => ?_
  cases result with
  | error err => exact Obeys.throw (Unchanged.refused holds (.inr rfl))
  | ok made =>
      obtain ⟨user, accessToken, refreshToken⟩ := made
      obtain ⟨sessionToken, secret, id, given⟩ := holds
      exact Obeys.pure (.inl ⟨accessToken, refreshToken, sessionToken, secret, id, rfl, given⟩)

theorem handlePageLoad_careful (cookie : Option (List UInt8)) :
    let req := Request.pageLoad cookie
    Obeys (Careful host req) (CookieAnswer host req) (CookieAnswer host req) [] (handlePageLoad host cookie) := by
  intro req
  refine Obeys.bind (orRespond_obeys fun _ => unspent_nil.unchanged.refused (.inl rfl)) ?_
  rintro _ token ⟨rfl, presented⟩
  have sent : req.presents = some token := (Option.filter_eq_some_iff.mp presented).1
  refine Obeys.bind (Obeys.lift (refreshSession_careful sent unspent_nil)) fun later result holds => ?_
  cases result with
  | error err => exact Obeys.throw (Unchanged.refused holds (.inl rfl))
  | ok made =>
      obtain ⟨user, accessToken, refreshToken⟩ := made
      obtain ⟨sessionToken, secret, id, given⟩ := holds
      exact Obeys.pure (.inl ⟨accessToken, refreshToken, sessionToken, secret, id, rfl, given⟩)

theorem revokeSessionFromCookie_careful (cookie : Option (List UInt8)) :
    (revokeSessionFromCookie cookie).Obeys (Careful host req) (fun later _ => Unspent later) [] := by
  unfold revokeSessionFromCookie
  cases cookie.bind validateRefreshToken with
  | none => exact unspent_nil
  | some parts =>
      refine ⟨unspent_nil, fun answer => ?_⟩
      have looked : Unspent [⟨.read (.sessionByToken parts.1), answer⟩] := by
        intro entry member
        rw [List.mem_singleton.mp member]
        exact id
      cases answer with
      | error err => exact looked
      | ok found =>
          cases found with
          | none => exact looked
          | some session => exact Idle.run (deleteSession_idle session.id) looked

/-- **Every request that uses the cookie is careful.** -/
theorem serve_careful (host : Host) {req : Request} (uses : req.UsesCookie) :
    (serve host req).Obeys (Careful host req) (CookieAnswer host req) [] := by
  cases req with
  | login ip body => exact Handler.respond_obeys (handleLogin_careful ip body)
  | refresh ip cookie => exact Handler.respond_obeys (handleRefresh_careful ip cookie)
  | pageLoad cookie => exact Handler.respond_obeys (handlePageLoad_careful cookie)
  | logout cookie =>
      refine Handler.respond_obeys (Obeys.bind (Obeys.lift (revokeSessionFromCookie_careful cookie)) ?_)
      exact fun later _ quiet => Obeys.pure (quiet.unchanged.refused (.inr rfl))
  | _ => exact uses.elim

end Requests

/-! ### Sessions of a run -/

section Runs

variable {ι : Type} {trace : List (Step ι)} {s : Store}

/-- The token of a new session. -/
def createdToken : Entry Query.Answer → Option (List UInt8)
  | ⟨.write (.insertSession row), .ok _⟩ => some row.sessionToken
  | _ => none

/-- The step creates the session with a token. -/
def Creates (event : Step ι) (id : Int) (sessionToken : List UInt8) : Prop :=
  ∃ row, event.entry = ⟨.write (.insertSession row), .ok id⟩ ∧ row.sessionToken = sessionToken

theorem Creates.token {event : Step ι} {id : Int} {sessionToken : List UInt8}
    (creates : Creates event id sessionToken) : createdToken event.entry = some sessionToken := by
  obtain ⟨row, entry, rfl⟩ := creates
  rw [entry]
  rfl

/-- No two sessions have the same token. -/
theorem Creates.unique (distinct : (drawn createdToken trace).Nodup) {event event' : Step ι} {id id' : Int}
    {sessionToken : List UInt8} (member : event ∈ trace) (member' : event' ∈ trace)
    (creates : Creates event id sessionToken) (creates' : Creates event' id' sessionToken) :
    event = event' ∧ id = id' := by
  obtain rfl := eq_of_nodup_drawn distinct member member' creates.token creates'.token
  obtain ⟨row, entry, _⟩ := creates
  obtain ⟨row', entry', _⟩ := creates'
  cases entry.symm.trans entry'
  exact ⟨rfl, rfl⟩

theorem Stores.same_hash {event : Step ι} {id id' : Int} {hash hash' : String}
    (stores : Stores event id hash) (stores' : Stores event id' hash') : hash = hash' := by
  unfold Stores at stores stores'
  split at stores
  · exact stores.2.symm.trans stores'.2
  · exact stores.2.1.symm.trans stores'.2.1
  · exact stores.elim

theorem stores_entry {event : Step ι} {id : Int} {hash : String} :
    Stores (⟨(), event.entry.1, event.entry.2⟩ : Step Unit) id hash ↔ Stores event id hash := by
  obtain ⟨thread, query, answer⟩ := event
  unfold Stores
  constructor
  · intro stores
    split at stores
    · next same => cases same; exact stores
    · next same => cases same; exact stores
    · exact stores.elim
  · intro stores
    split at stores
    · next same => cases same; exact stores
    · next same => cases same; exact stores
    · exact stores.elim

theorem Stores.changed {event : Step ι} {id : Int} {hash : String} (stores : Stores event id hash) :
    Changed event.entry := ⟨id, hash, stores_entry.mpr stores⟩

/-- **Every session was created** with the token it has. -/
theorem Reaches.created (reaches : Reaches trace s) {id : Int} {row : SessionRow}
    (found : s.sessions.get? id = some row) : ∃ event ∈ trace, Creates event id row.sessionToken := by
  induction reaches generalizing row with
  | refl => cases found
  | @step past before after event _ here ih =>
      obtain ⟨thread, query, answer⟩ := event
      have older : ∀ {row' : SessionRow}, before.sessions.get? id = some row' →
          row'.sessionToken = row.sessionToken →
          ∃ event ∈ (⟨thread, query, answer⟩ : Step ι) :: past, Creates event id row.sessionToken := by
        intro row' found' same
        obtain ⟨event, member, creates⟩ := ih found'
        exact ⟨event, List.mem_cons_of_mem _ member, same ▸ creates⟩
      rcases perform_cases here with ⟨w, rows, same, applied⟩ | ⟨rfl, _⟩
      · cases same
        rcases Write.sessions_cases applied with same | ⟨new, rfl, given, same⟩ |
          ⟨key, tokenHash, expiresAt, rfl, _, same⟩ | same
        · rw [same] at found
          exact older found rfl
        · rw [same, Table.get?_insert] at found
          split at found
          · next last =>
              cases found
              refine ⟨_, List.mem_cons_self, row, ?_, rfl⟩
              rw [given, last]
              rfl
          · exact older found rfl
        · rw [same, Table.get?_update] at found
          obtain ⟨old, found', changed⟩ := Option.map_eq_some_iff.mp found
          refine older found' ?_
          subst changed
          split <;> rfl
        · rw [same] at found
          exact older (Table.get?_delete_eq_some.mp found).1 rfl
      · exact older found rfl

/-- A key is given out once. -/
theorem Creates.key_once {later earlier : List (Step ι)} {event event' : Step ι} {id : Int}
    {sessionToken sessionToken' : List UInt8} (reaches : Reaches (later ++ event :: earlier) s)
    (creates : Creates event id sessionToken) (member : event' ∈ earlier) :
    ¬ Creates event' id sessionToken' := by
  intro creates'
  obtain ⟨recent, older, rfl⟩ := List.append_of_mem member
  obtain ⟨before, _, first, here, _⟩ := reaches.split
  obtain ⟨before', after', _, here', rest⟩ := Reaches.split first
  obtain ⟨thread, query, answer⟩ := event
  obtain ⟨thread', query', answer'⟩ := event'
  obtain ⟨row, entry, _⟩ := creates
  obtain ⟨row', entry', _⟩ := creates'
  cases entry
  cases entry'
  obtain ⟨_, applied⟩ := require_bind_ok.mp (Write.apply_of_ok here)
  obtain ⟨_, applied'⟩ := require_bind_ok.mp (Write.apply_of_ok here')
  have last : id = before.sessions.nextId := (Prod.mk.inj (Except.ok.inj applied)).1.symm
  obtain ⟨first, rfl⟩ := Prod.mk.inj (Except.ok.inj applied')
  have given : id ≤ (before'.sessions.insert row').seq := le_of_eq first.symm
  have grown := (steps_evolve rest).sessions.seq_le
  unfold Table.nextId at last
  have : id ≤ before.sessions.seq := le_trans given grown
  omega

theorem Creates.key_unique {event event' : Step ι} {id : Int} {sessionToken sessionToken' : List UInt8}
    (reaches : Reaches trace s) (member : event ∈ trace) (member' : event' ∈ trace)
    (creates : Creates event id sessionToken) (creates' : Creates event' id sessionToken') : event = event' := by
  obtain ⟨later, earlier, rfl⟩ := List.append_of_mem member
  rcases List.mem_append.mp member' with newer | rest
  · obtain ⟨recent, between, rfl⟩ := List.append_of_mem newer
    rw [List.append_assoc, List.cons_append] at reaches
    exact absurd creates (Creates.key_once reaches creates' (List.mem_append_right _ List.mem_cons_self))
  · rcases List.mem_cons.mp rest with rfl | older
    · rfl
    · exact absurd creates' (Creates.key_once reaches creates older)

/-- A step that stores a hash creates the session or rotates its secret. -/
theorem Stores.cases {event : Step ι} {id : Int} {hash : String} (stores : Stores event id hash) :
    (∃ sessionToken, Creates event id sessionToken) ∨
      ∃ expiresAt, event.query = .write (.updateSession id hash expiresAt) := by
  obtain ⟨thread, query, answer⟩ := event
  unfold Stores at stores
  split at stores
  · next same =>
    cases same
    obtain ⟨rfl, _⟩ := stores
    exact .inl ⟨_, _, rfl, rfl⟩
  · next same =>
    cases same
    obtain ⟨rfl, rfl, _⟩ := stores
    exact .inr ⟨_, rfl⟩
  · exact stores.elim

/-- A session that was found had been created with the token it was found by. -/
theorem Reaches.looked {later earlier : List (Step ι)} {lookup : Step ι} {key : List UInt8} {session : Session}
    (reaches : Reaches (later ++ lookup :: earlier) s) (entry : lookup.entry = foundSession key session) :
    ∃ before row, Reaches earlier before ∧ before.sessions.get? session.id = some row ∧
      session = scanSessionRow session.id row ∧ row.sessionToken = key ∧
      ∃ creation ∈ earlier, Creates creation session.id key := by
  obtain ⟨before, _, first, here, _⟩ := reaches.split
  obtain ⟨_, _, _⟩ := lookup
  cases entry
  obtain ⟨row, found, scanned, same⟩ := sessionByToken_found (Except.ok.inj (perform_read here).1).symm
  obtain ⟨creation, member, creates⟩ := Reaches.created first found
  exact ⟨before, row, first, found, scanned, same, creation, member, same ▸ creates⟩

end Runs

/-! ### A browser -/

section Browser

variable {ι : Type}

/-- The cookie of the refresh token after a response. -/
def Cookies.after : Cookies → Option (List UInt8) → Option (List UInt8)
  | .set _ refreshToken, _ => some refreshToken
  | .clear, _ => none
  | .keep, cookie => cookie

/-- The cookie after some requests, the newest first. -/
def jar (current : ι → Backend Response) : List ι → Option (List UInt8)
  | [] => none
  | thread :: older =>
      match current thread with
      | .done response => response.cookies.after (jar current older)
      | .ask _ _ => jar current older

/-- The request that has set the cookie, and what came after it. -/
theorem jar_eq_some {current : ι → Backend Response} {turns : List ι} {token : List UInt8}
    (here : jar current turns = some token) :
    ∃ newer thread older response accessToken, turns = newer ++ thread :: older ∧
      current thread = .done response ∧ response.cookies = .set accessToken token ∧
      ∀ other ∈ newer, ∀ response, current other = .done response →
        ∀ accessToken refreshToken, response.cookies ≠ .set accessToken refreshToken := by
  induction turns with
  | nil => exact nomatch here
  | cons thread older ih =>
      have past : ∀ (kept : ∀ response, current thread = .done response →
          ∀ accessToken refreshToken, response.cookies ≠ .set accessToken refreshToken),
          jar current older = some token → ∃ newer thread' older' response accessToken,
          thread :: older = newer ++ thread' :: older' ∧ current thread' = .done response ∧
          response.cookies = .set accessToken token ∧ ∀ other ∈ newer, ∀ response, current other = .done response →
          ∀ accessToken refreshToken, response.cookies ≠ .set accessToken refreshToken := by
        intro kept here
        obtain ⟨newer, thread', older', response, accessToken, rfl, finished, cookies, others⟩ := ih here
        refine ⟨thread :: newer, thread', older', response, accessToken, rfl, finished, cookies, ?_⟩
        intro other member
        rcases List.mem_cons.mp member with rfl | member
        · exact kept
        · exact others other member
      unfold jar at here
      cases finished : current thread with
      | ask query next =>
          rw [finished] at here
          exact past (fun _ same => nomatch finished.symm.trans same) here
      | done response =>
          rw [finished] at here
          cases cookies : response.cookies with
          | set accessToken refreshToken =>
              simp only [cookies, Cookies.after, Option.some.injEq] at here
              subst here
              exact ⟨[], thread, older, response, accessToken, rfl, finished, cookies,
                fun _ member => absurd member List.not_mem_nil⟩
          | clear => simp [cookies, Cookies.after] at here
          | keep =>
              simp only [cookies, Cookies.after] at here
              refine past (fun _ same _ _ wrong => ?_) here
              cases finished.symm.trans same
              exact nomatch cookies.symm.trans wrong

variable [DecidableEq ι]

/-- Each step of `i` comes before each step of `j`. -/
def Before (trace : List (Step ι)) (i j : ι) : Prop :=
  ∀ newer event older, trace = newer ++ event :: older → event.thread = i → own j older = []

/-- **The requests of one browser** that use its cookie, the newest first. -/
structure HonestBrowser (host : Host) (reqs : ι → Request) (trace : List (Step ι)) (current : ι → Backend Response)
    (turns : List ι) : Prop where
  uses : ∀ thread ∈ turns, (reqs thread).UsesCookie
  /-- A request is sent when the one before has been answered. -/
  inTurn : turns.Pairwise fun later earlier =>
    Before trace earlier later ∧ ∃ response, current earlier = .done response
  /-- It carries the cookie set last. -/
  sends : ∀ thread older token, thread :: older <:+ turns → (reqs thread).presents = some token →
    jar current older = some token
  /-- Nobody else presents a secret that was made for the browser. -/
  kept : ∀ thread, thread ∉ turns → ∀ event ∈ trace, event.thread ∈ turns → ∀ id secret,
    Stores event id (host.computeTokenMAC secret) → ¬ (reqs thread).PresentsSecret secret

theorem colon_not_mem {text : List UInt8} (random : isRandomText text = true) : colon ∉ text := by
  unfold isRandomText at random
  rw [Bool.and_eq_true, List.all_eq_true] at random
  exact fun member => absurd (random.2 colon member) (by decide)

/-- A refresh token reads back as what it was made of. -/
theorem validate_encode_eq {sessionToken secret sessionToken' secret' : List UInt8} (plain : colon ∉ sessionToken)
    (valid : validateRefreshToken (encodeRefreshToken sessionToken secret) = some (sessionToken', secret')) :
    sessionToken' = sessionToken ∧ secret' = secret := by
  have short : (encodeRefreshToken sessionToken secret).length ≤ 512 := by
    by_contra long
    unfold validateRefreshToken at valid
    rw [if_pos (not_le.mp long)] at valid
    exact nomatch valid
  have filled : sessionToken ≠ [] := by
    rintro rfl
    unfold validateRefreshToken at valid
    rw [if_neg (Nat.not_lt.mpr short)] at valid
    simp [encodeRefreshToken, Base64.decode_encode] at valid
  rw [validateRefreshToken_encode filled plain short] at valid
  cases valid
  exact ⟨rfl, rfl⟩

namespace HonestBrowser

variable {host : Host} {reqs : ι → Request} {trace : List (Step ι)} {s : Store}
  {current : ι → Backend Response} {turns : List ι} {thread : ι} {response : Response}

/-- The cookie that a request of the browser was answered with. -/
theorem given (browser : HonestBrowser host reqs trace current turns) (run : Serves host reqs trace s current)
    (turn : thread ∈ turns) (finished : current thread = .done response) {accessToken : AccessToken}
    {refreshToken : List UInt8} (cookies : response.cookies = .set accessToken refreshToken) :
    ∃ sessionToken secret id, Given host (reqs thread) (own thread trace) refreshToken sessionToken secret id := by
  rcases run.post (serve_careful host (browser.uses thread turn)) finished with
    ⟨_, _, sessionToken, secret, id, same, given⟩ | ⟨keeps, _⟩
  · cases cookies.symm.trans same
    exact ⟨sessionToken, secret, id, given⟩
  · exact absurd cookies (keeps _ _)

/-- A request that was answered without a cookie has stored nothing. -/
theorem unchanged (browser : HonestBrowser host reqs trace current turns) (run : Serves host reqs trace s current)
    (turn : thread ∈ turns) (finished : current thread = .done response)
    (keeps : ∀ accessToken refreshToken, response.cookies ≠ .set accessToken refreshToken) :
    Unchanged (own thread trace) := by
  rcases run.post (serve_careful host (browser.uses thread turn)) finished with
    ⟨_, _, _, _, _, same, _⟩ | ⟨_, unchanged⟩
  · exact absurd same (keeps _ _)
  · exact unchanged

/-- What a request of the browser has seen before a step. -/
theorem careful (browser : HonestBrowser host reqs trace current turns) (run : Serves host reqs trace s current)
    {later earlier : List (Step ι)} {event : Step ι} (place : trace = later ++ event :: earlier)
    (turn : event.thread ∈ turns) : Careful host (reqs event.thread) (own event.thread earlier) event.query :=
  Run.rule_of_event (serve_careful host (browser.uses _ turn)) (place ▸ run)

/-- A request stores once, and looks nothing up after that. -/
theorem unspent (browser : HonestBrowser host reqs trace current turns) (run : Serves host reqs trace s current)
    {later earlier : List (Step ι)} {event : Step ι} (place : trace = later ++ event :: earlier)
    (turn : event.thread ∈ turns) (marked : event.query.StoresSecret ∨ event.query.LooksUpSession) :
    Unspent (own event.thread earlier) := by
  have careful := browser.careful run place turn
  rcases marked with stores | looks
  · unfold Query.StoresSecret at stores
    split at stores
    · next same => rw [same] at careful; exact careful
    · next same => rw [same] at careful; exact careful
    · exact stores.elim
  · unfold Query.LooksUpSession at looks
    split at looks
    · next same => rw [same] at careful; exact careful
    · exact looks.elim

/-- The cookie of a request, its session and the step that created it. -/
structure Owns (host : Host) (reqs : ι → Request) (trace : List (Step ι)) (turns : List ι) (thread : ι)
    (refreshToken sessionToken secret : List UInt8) (id : Int) : Prop where
  given : Given host (reqs thread) (own thread trace) refreshToken sessionToken secret id
  plain : colon ∉ sessionToken
  created : ∃ creation ∈ trace, creation.thread ∈ turns ∧ Creates creation id sessionToken

/-- **The session of a cookie was created for the browser.** -/
theorem owner (browser : HonestBrowser host reqs trace current turns) (run : Serves host reqs trace s current)
    (distinct : (drawn createdToken trace).Nodup) {older : List ι} (place : thread :: older <:+ turns)
    (finished : current thread = .done response) {accessToken : AccessToken} {refreshToken : List UInt8}
    (cookies : response.cookies = .set accessToken refreshToken) :
    ∃ sessionToken secret id, Owns host reqs trace turns thread refreshToken sessionToken secret id := by
  induction size : older.length using Nat.strong_induction_on
    generalizing thread older response accessToken refreshToken with
  | h n ih =>
  have turn : thread ∈ turns := place.subset List.mem_cons_self
  have reaches : Reaches trace s := run.steps
  obtain ⟨sessionToken, secret, id, given⟩ := browser.given run turn finished cookies
  suffices rest : colon ∉ sessionToken ∧
      ∃ creation ∈ trace, creation.thread ∈ turns ∧ Creates creation id sessionToken from
    ⟨sessionToken, secret, id, given, rest.1, rest.2⟩
  rcases given.source with ⟨row, inserted, rfl, drew⟩ | ⟨presented, key, old, session, sent, valid, found, rfl, rfl⟩
  · -- a login
    obtain ⟨⟨_, _, _⟩, inside, _, entry⟩ := mem_own.mp drew
    cases entry
    obtain ⟨later, earlier, split⟩ := List.append_of_mem inside
    obtain ⟨_, _, _, here, _⟩ := Reaches.split (split ▸ reaches)
    obtain ⟨creation, member, same, entry'⟩ := mem_own.mp inserted
    exact ⟨colon_not_mem here.1, creation, member, same ▸ turn, row, entry', rfl⟩
  · -- a renewal, for the cookie of an earlier request
    obtain ⟨newer, thread', older', response', accessToken', rfl, finished', cookies', _⟩ :=
      jar_eq_some (browser.sends thread older presented place sent)
    have place' : thread' :: older' <:+ turns :=
      ((List.suffix_append newer _).trans (List.suffix_cons thread _)).trans place
    obtain ⟨sessionToken', secret', id', owns⟩ := ih older'.length (by
      rw [← size, List.length_append, List.length_cons]
      omega) place' finished' cookies' rfl
    rw [owns.given.text] at valid
    obtain ⟨rfl, rfl⟩ := validate_encode_eq owns.plain valid
    obtain ⟨lookup, inside, _, entry⟩ := mem_own.mp found
    obtain ⟨later, earlier, split⟩ := List.append_of_mem inside
    obtain ⟨_, row, _, _, scanned, same, creation', member', creates'⟩ := Reaches.looked (split ▸ reaches) entry
    obtain ⟨creation, member, turn', creates⟩ := owns.created
    obtain ⟨rfl, rfl⟩ := creates.unique distinct member
      (split ▸ List.mem_append_right _ (List.mem_cons_of_mem _ member')) creates'
    have token : session.sessionToken = key := (congrArg Session.sessionToken scanned).trans same
    rw [token]
    exact ⟨owns.plain, creation, member, turn', creates⟩

/-- **Nobody else stores a secret in a session of the browser**: one would have to present a secret that was
stored in it before. -/
theorem stores_own (browser : HonestBrowser host reqs trace current turns) (run : Serves host reqs trace s current)
    {creation : Step ι} {id : Int} {sessionToken : List UInt8} (created : creation ∈ trace)
    (turn : creation.thread ∈ turns) (creates : Creates creation id sessionToken) {later earlier : List (Step ι)}
    {event : Step ι} {hash : String} (place : trace = later ++ event :: earlier) (stores : Stores event id hash) :
    event.thread ∈ turns := by
  induction size : earlier.length using Nat.strong_induction_on generalizing later event earlier hash with
  | h n ih =>
  have member : event ∈ trace := place ▸ List.mem_append_right _ List.mem_cons_self
  rcases stores.cases with ⟨sessionToken', creates'⟩ | ⟨expiresAt, update⟩
  · -- the creation of the session
    exact Creates.key_unique run.steps member created creates' creates ▸ turn
  · -- a rotation
    by_contra other
    obtain ⟨secret, recent, old, middle, row, rfl, first, presents, found, same⟩ :=
      Serves.rotation_read (place ▸ run) update
    obtain ⟨newer, store, older, rfl, stores', _⟩ := Reaches.stored first found
    rw [same] at stores'
    have split : trace = (later ++ event :: (recent ++ newer)) ++ store :: older := by
      rw [place]
      simp only [List.append_assoc, List.cons_append]
    have owned : store.thread ∈ turns := ih older.length (by
      rw [← size, List.length_append, List.length_append, List.length_cons]
      omega) split stores' rfl
    exact browser.kept _ other store (split ▸ List.mem_append_right _ List.mem_cons_self) owned _ _ stores' presents

/-- Of two requests of the browser, the later one makes its steps after the earlier one. -/
theorem no_step (browser : HonestBrowser host reqs trace current turns) {newer older : List ι} {j : ι}
    (split : turns = newer ++ j :: older) {i : ι} (earlier_ : i ∈ older) {later earlier : List (Step ι)}
    {event : Step ι} (place : trace = later ++ event :: earlier) (here : event.thread = i) :
    ∀ other ∈ earlier, other.thread ≠ j := by
  have both := browser.inTurn
  rw [split] at both
  have quiet := ((List.pairwise_cons.mp (List.pairwise_append.mp both).2.1).1 i earlier_).1 _ _ _ place here
  intro other member same
  have own_ := mem_own.mpr ⟨other, member, same, rfl⟩
  rw [quiet] at own_
  exact absurd own_ List.not_mem_nil

/-- The request `setter` of the browser has set the cookie that the request `thread` sends; `store` is its step
that stored the secret of the cookie. -/
structure CookieOf (host : Host) (reqs : ι → Request) (trace : List (Step ι)) (current : ι → Backend Response)
    (turns : List ι) (thread : ι) (key secret : List UInt8) (id : Int) (store : Step ι)
    (newer between oldest : List ι) : Prop where
  order : turns = newer ++ thread :: (between ++ store.thread :: oldest)
  kept : ∀ other ∈ between, ∀ response, current other = .done response →
    ∀ accessToken refreshToken, response.cookies ≠ .set accessToken refreshToken
  stored : store ∈ trace
  stores : Stores store id (host.computeTokenMAC secret)
  created : ∃ creation ∈ trace, creation.thread ∈ turns ∧ Creates creation id key

theorem cookieOf (browser : HonestBrowser host reqs trace current turns) (run : Serves host reqs trace s current)
    (distinct : (drawn createdToken trace).Nodup) (turn : thread ∈ turns) {token key secret : List UInt8}
    (sent : (reqs thread).presents = some token) (valid : validateRefreshToken token = some (key, secret)) :
    ∃ id store newer between oldest,
      CookieOf host reqs trace current turns thread key secret id store newer between oldest := by
  obtain ⟨newer, older, turns_⟩ := List.append_of_mem turn
  have mine : thread :: older <:+ turns := ⟨newer, turns_.symm⟩
  obtain ⟨between, setter, oldest, response, accessToken, rfl, finished, cookies, kept⟩ :=
    jar_eq_some (browser.sends _ _ token mine sent)
  have place : setter :: oldest <:+ turns :=
    ((List.suffix_append between _).trans (List.suffix_cons _ _)).trans mine
  obtain ⟨sessionToken, secret', id, owns⟩ := browser.owner run distinct place finished cookies
  rw [owns.given.text] at valid
  obtain ⟨rfl, rfl⟩ := validate_encode_eq owns.plain valid
  obtain ⟨entry, inside, stores⟩ := owns.given.stored
  obtain ⟨store, member, rfl, rfl⟩ := mem_own.mp inside
  exact ⟨id, store, newer, between, oldest, turns_, kept, member, stores_entry.mp stores, owns.created⟩

section Cookie

variable {key secret : List UInt8} {id : Int} {store lookup : Step ι} {newer between oldest : List ι}
  {later earlier : List (Step ι)}

/-- The cookie was made before it is looked up. -/
theorem CookieOf.made_before (browser : HonestBrowser host reqs trace current turns)
    (cookie : CookieOf host reqs trace current turns lookup.thread key secret id store newer between oldest)
    (place : trace = later ++ lookup :: earlier) (looks : lookup.query.LooksUpSession) : store ∈ earlier := by
  rcases List.mem_append.mp (place ▸ cookie.stored) with recent | inside
  · obtain ⟨front, back, rfl⟩ := List.append_of_mem recent
    rw [List.append_assoc, List.cons_append] at place
    exact absurd rfl (browser.no_step cookie.order (List.mem_append_right _ List.mem_cons_self) place rfl lookup
      (List.mem_append_right _ List.mem_cons_self))
  · rcases List.mem_cons.mp inside with rfl | older
    · have marked := cookie.stores.marked
      unfold Query.LooksUpSession at looks
      split at looks
      · next same => exact (same ▸ marked : (Query.read _).StoresSecret).elim
      · exact looks.elim
    · exact older

/-- Between the step that made the cookie and the lookup the browser stores nothing. -/
theorem CookieOf.last (browser : HonestBrowser host reqs trace current turns) (run : Serves host reqs trace s current)
    (cookie : CookieOf host reqs trace current turns lookup.thread key secret id store newer between oldest)
    (place : trace = later ++ lookup :: earlier) (looks : lookup.query.LooksUpSession) {recent rest : List (Step ι)}
    {event : Step ι} (inside : earlier = recent ++ event :: rest) (older : store ∈ rest) {id' : Int} {hash : String}
    (stores : Stores event id' hash) : event.thread ∉ turns := by
  intro turn
  have here : event ∈ earlier := inside ▸ List.mem_append_right _ List.mem_cons_self
  have member : event ∈ trace := place ▸ List.mem_append_right _ (List.mem_cons_of_mem _ here)
  have eventPlace : trace = (later ++ lookup :: recent) ++ event :: rest := by
    rw [place, inside, List.append_assoc, List.cons_append]
  have turns_ := cookie.order
  rcases List.mem_append.mp (turns_ ▸ turn) with recent | among
  · -- a later request
    obtain ⟨front, back, rfl⟩ := List.append_of_mem recent
    rw [List.append_assoc, List.cons_append] at turns_
    exact browser.no_step turns_ (List.mem_append_right _ List.mem_cons_self) place rfl event here rfl
  rcases List.mem_cons.mp among with same | among
  · -- the same request
    have mine : lookup.thread ∈ turns := same ▸ turn
    exact browser.unspent run place mine (.inr looks) _ (same ▸ entry_mem_own here) stores.marked
  rcases List.mem_append.mp among with middle | among
  · -- a request that was answered without a cookie
    have both := browser.inTurn
    rw [turns_] at both
    obtain ⟨_, response, finished⟩ := (List.pairwise_cons.mp (List.pairwise_append.mp both).2.1).1 event.thread
      (List.mem_append_left _ middle)
    exact browser.unchanged run turn finished (cookie.kept _ middle _ finished) _ (entry_mem_own member)
      stores.changed
  rcases List.mem_cons.mp among with same | before
  · -- the request that has set the cookie
    exact browser.unspent run eventPlace turn (.inl stores.marked) _ (mem_own.mpr ⟨store, older, same.symm, rfl⟩)
      cookie.stores.marked
  · -- an earlier request
    have split : turns = (newer ++ lookup.thread :: between) ++ store.thread :: oldest := by
      rw [turns_, List.append_assoc, List.cons_append]
    exact browser.no_step split before eventPlace rfl store older rfl

end Cookie

/-- **A renewal of the browser finds its session with the hash of its own secret.** -/
theorem found_matches (browser : HonestBrowser host reqs trace current turns) (run : Serves host reqs trace s current)
    (distinct : (drawn createdToken trace).Nodup) {later earlier : List (Step ι)} {lookup : Step ι}
    {token key secret : List UInt8} {session : Session} (place : trace = later ++ lookup :: earlier)
    (turn : lookup.thread ∈ turns) (sent : (reqs lookup.thread).presents = some token)
    (valid : validateRefreshToken token = some (key, secret)) (entry : lookup.entry = foundSession key session) :
    host.computeTokenMAC secret = session.tokenHash := by
  have reaches : Reaches trace s := run.steps
  obtain ⟨id, store, newer, between, oldest, cookie⟩ := browser.cookieOf run distinct turn sent valid
  have looks : lookup.query.LooksUpSession := by
    rw [show lookup.query = .read (.sessionByToken key) from congrArg Sigma.fst entry]
    exact trivial
  -- the session found is the one of the cookie
  obtain ⟨before, row, first, found, scanned, _, creation', member', creates'⟩ :=
    Reaches.looked (place ▸ reaches) entry
  obtain ⟨creation, member, owned, creates⟩ := cookie.created
  obtain ⟨rfl, same⟩ := creates.unique distinct member
    (place ▸ List.mem_append_right _ (List.mem_cons_of_mem _ member')) creates'
  rw [← same] at found scanned
  -- the step `event` that stored the hash found is the one that made the cookie
  obtain ⟨recent, event, rest, inside, stores, quiet⟩ := Reaches.stored first found
  have eventPlace : trace = (later ++ lookup :: recent) ++ event :: rest := by
    rw [place, inside, List.append_assoc, List.cons_append]
  rw [show session.tokenHash = row.tokenHash from congrArg Session.tokenHash scanned]
  rcases List.mem_append.mp (inside ▸ cookie.made_before browser place looks) with newer' | among
  · exact absurd cookie.stores (quiet store newer' _)
  rcases List.mem_cons.mp among with rfl | older
  · exact cookie.stores.same_hash stores
  · exact absurd (browser.stores_own run member owned creates eventPlace stores)
      (cookie.last browser run place looks inside older stores)

end HonestBrowser

/-- **A browser that renews its session in turn is never taken for a thief**: in every run, whatever else is
served in between, none of its requests revokes the sessions of a user. -/
theorem renewals_accepted {host : Host} {reqs : ι → Request} {trace : List (Step ι)} {s : Store}
    {current : ι → Backend Response} {turns : List ι} (run : Serves host reqs trace s current)
    (browser : HonestBrowser host reqs trace current turns) (distinct : (drawn createdToken trace).Nodup) :
    ∀ event ∈ trace, event.thread ∈ turns → ∀ userID, event.query ≠ .write (.deleteSessionsByUserID userID) := by
  intro event member turn userID revokes
  obtain ⟨later, earlier, place⟩ := List.append_of_mem member
  have careful := browser.careful run place turn
  rw [revokes] at careful
  obtain ⟨key, secret, session, presented, found, differ⟩ := careful
  obtain ⟨token, sent, valid⟩ := Option.bind_eq_some_iff.mp presented
  obtain ⟨lookup, inside, same, entry⟩ := mem_own.mp found
  obtain ⟨recent, rest, rfl⟩ := List.append_of_mem inside
  have lookupPlace : trace = (later ++ event :: recent) ++ lookup :: rest := by
    rw [place, List.append_assoc, List.cons_append]
  exact differ (browser.found_matches run distinct lookupPlace (same ▸ turn) (same ▸ sent) valid entry)

end Browser

/-! ### A browser that renews twice -/

/-- A login and two renewals, the second with the cookie of the first. -/
def twoRenewals : Fin 4 → Request
  | 0 => bootstrap
  | 1 => sampleLogin
  | 2 => .refresh "192.0.2.1" (some sampleToken)
  | _ => .refresh "192.0.2.1" (some (encodeRefreshToken sampleSessionToken (1 :: List.replicate 31 0)))

def twoRenewalsRun : Interleave.Config (Fin 4) Query.Answer Store Response :=
  execute sampleHost twoRenewals (bootstrapMoves 0 ++ loginMoves 1 ++ refreshMoves 2 1 ++ stepsOf 2 1 {} ++
    refreshMoves 3 2 ++ stepsOf 3 1 {})

/-- A request whose steps are all in the older part of a trace comes before one whose steps are all in the
newer part. -/
theorem before_of_split {ι : Type} [DecidableEq ι] {trace recent old : List (Step ι)} {i j : ι}
    (place : trace = recent ++ old) (quiet : ∀ event ∈ recent, event.thread ≠ i)
    (quiet' : ∀ event ∈ old, event.thread ≠ j) : Before trace i j := by
  intro newer event older split here
  have inside : ∀ other ∈ older, other ∈ old := by
    rcases List.append_eq_append_iff.mp (place.symm.trans split) with ⟨between, _, rfl⟩ | ⟨between, rfl, rest⟩
    · exact fun other member => List.mem_append_right _ (List.mem_cons_of_mem _ member)
    · cases between with
      | nil => exact fun other member => (show old = event :: older from rest.symm) ▸ List.mem_cons_of_mem _ member
      | cons head between =>
          cases rest
          exact absurd here (quiet event (List.mem_append_right _ List.mem_cons_self))
  refine List.eq_nil_iff_forall_not_mem.mpr fun entry member => ?_
  obtain ⟨other, member, same, _⟩ := mem_own.mp member
  exact quiet' other (inside other member) same

/-- Whether the request has been answered. -/
def isAnswered : Backend Response → Bool
  | .done _ => true
  | .ask _ _ => false

theorem exists_of_isAnswered {p : Backend Response} (answered : isAnswered p = true) :
    ∃ response, p = .done response := by
  cases p with
  | done response => exact ⟨response, rfl⟩
  | ask query next => exact nomatch answered

/-- One request of the browser after the other. -/
theorem twoRenewalsRun_apart :
    (twoRenewalsRun.past.take 9).all (fun event => event.thread != 2) = true ∧
      (twoRenewalsRun.past.drop 9).all (fun event => event.thread != 3) = true ∧
      (twoRenewalsRun.past.take 9).all (fun event => event.thread != 1) = true ∧
      (twoRenewalsRun.past.take 18).all (fun event => event.thread != 1) = true ∧
      (twoRenewalsRun.past.drop 18).all (fun event => event.thread != 2) = true := by decide +kernel

/-- The browser has been renewed twice, and nothing was revoked. -/
theorem renewals_accepted_twoRenewals :
    (jar twoRenewalsRun.current [3, 2, 1]).isSome = true ∧
      ∀ event ∈ twoRenewalsRun.past, event.thread ∈ [3, 2, 1] →
        ∀ userID, event.query ≠ .write (.deleteSessionsByUserID userID) := by
  have done : ∀ i, ∃ response, twoRenewalsRun.current i = .done response := by
    have answered : ∀ i, isAnswered (twoRenewalsRun.current i) = true := by decide +kernel
    exact fun i => exists_of_isAnswered (answered i)
  have before : ∀ n i j, (twoRenewalsRun.past.take n).all (fun event => event.thread != i) = true →
      (twoRenewalsRun.past.drop n).all (fun event => event.thread != j) = true → Before twoRenewalsRun.past i j := by
    intro n i j quiet quiet'
    rw [List.all_eq_true] at quiet quiet'
    exact before_of_split (List.take_append_drop n _).symm (fun event member => bne_iff_ne.mp (quiet event member))
      fun event member => bne_iff_ne.mp (quiet' event member)
  have apart := twoRenewalsRun_apart
  have run : Serves sampleHost twoRenewals twoRenewalsRun.past twoRenewalsRun.store twoRenewalsRun.current :=
    Serves.of_moves sampleHost twoRenewals _
  refine ⟨by decide +kernel, renewals_accepted run ⟨?_, ?_, ?_, ?_⟩ (by decide +kernel)⟩
  · intro thread member
    simp only [List.mem_cons, List.not_mem_nil, or_false] at member
    rcases member with rfl | rfl | rfl <;> trivial
  · refine .cons ?_ (.cons ?_ (.cons (fun _ member => absurd member List.not_mem_nil) .nil))
    · intro thread member
      simp only [List.mem_cons, List.not_mem_nil, or_false] at member
      rcases member with rfl | rfl
      · exact ⟨before 9 2 3 apart.1 apart.2.1, done 2⟩
      · exact ⟨before 9 1 3 apart.2.2.1 apart.2.1, done 1⟩
    · intro thread member
      rw [List.mem_singleton.mp member]
      exact ⟨before 18 1 2 apart.2.2.2.1 apart.2.2.2.2, done 1⟩
  · intro thread older token place sent
    have cookies : jar twoRenewalsRun.current [1] = some sampleToken ∧ jar twoRenewalsRun.current [2, 1] =
        some (encodeRefreshToken sampleSessionToken (1 :: List.replicate 31 0)) := by decide +kernel
    simp only [List.suffix_cons_iff, List.cons.injEq, List.suffix_nil, reduceCtorEq, or_false] at place
    rcases place with ⟨rfl, rfl⟩ | ⟨rfl, rfl⟩ | ⟨rfl, rfl⟩
    · cases sent
      exact cookies.2
    · cases sent
      exact cookies.1
    · exact nomatch sent
  · intro thread other event _ _ id secret _ presents
    have first : thread = 0 := by
      simp only [List.mem_cons, List.not_mem_nil, or_false] at other
      omega
    subst first
    obtain ⟨token, _, sent, _⟩ := presents
    exact nomatch sent

end Wuflow

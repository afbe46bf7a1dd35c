/-
**Logins and refreshes obey the discipline.**

`refreshSession_disciplined` also says how a refresh ends, by its final history:

* `Redeemed` — it returns tokens only after an `UpdateSession` that changed a row, for a user it has read
  and found active, and the tokens are that user's;
* `Caught` — if it has read a session whose hash is not that of the presented secret, it has gone on to
  delete the session if it found it expired, and all sessions of the user otherwise.
-/

import Wuflow.Requests.Discipline

namespace Wuflow

open Calendar (Instant)
open Interleave (Prog Entry Fresh)
open Interleave.Stopping (Asks Obeys)

/-! ### How a refresh ends -/

/-- The tokens of a refresh, and the rotation it ended with. -/
structure Redeemed (host : Host) (token : List UInt8) (later : Past) (user : User)
    (accessToken : AccessToken) (refreshToken : List UInt8) : Prop where
  rotated : ∃ session secret new checked expiresAt rows rest,
    later = ⟨.write (.updateSession session.id (host.computeTokenMAC new) expiresAt), .ok rows⟩ ::
      rest ∧
    Rotates host rest token session secret new checked user ∧ rows ≠ 0 ∧
    refreshToken = encodeRefreshToken session.sessionToken new
  userID : accessToken.userID = user.id
  email : accessToken.email = user.email
  role : accessToken.role = user.role

def Query.LooksUpSession : Query → Prop
  | .read (.sessionByToken _) => True
  | _ => False

/-- Neither a lookup nor a write of a refresh. -/
def Query.Aside : Query → Prop
  | .read (.sessionByToken _) | .read (.userByID _) | .write (.insertSession _)
  | .write (.updateSession _ _ _) => False
  | _ => True

theorem Query.Aside.not_looksUpSession {query : Query} (aside : query.Aside) :
    ¬ query.LooksUpSession := by
  intro looks
  unfold Query.LooksUpSession at looks
  split at looks
  · exact aside
  · exact looks

theorem Query.Aside.not_loadsUser {query : Query} (aside : query.Aside) : ¬ query.LoadsUser := by
  intro loads
  unfold Query.LoadsUser at loads
  split at loads
  · exact aside
  · exact loads

theorem Query.Aside.not_storesSecret {query : Query} (aside : query.Aside) :
    ¬ query.StoresSecret := by
  intro stores
  unfold Query.StoresSecret at stores
  split at stores
  · exact aside
  · exact aside
  · exact stores

/-- The answer of a session lookup that found a session. -/
def foundSession (sessionToken : List UInt8) (session : Session) : Entry Query.Answer :=
  ⟨.read (.sessionByToken sessionToken), .ok (some session)⟩

/-- A session whose hash is not that of the presented secret has been dealt with. -/
def Caught (host : Host) (token : List UInt8) (later : Past) : Prop :=
  ∀ sessionToken secret session, validateRefreshToken token = some (sessionToken, secret) →
    foundSession sessionToken session ∈ later → host.computeTokenMAC secret ≠ session.tokenHash →
    ∃ (rest : Past) (checked : Instant),
      (session.expiresAt < checked ∧ ∃ answer,
        later = ⟨.write (.deleteSession session.id), answer⟩ :: ⟨.now, checked⟩ ::
          foundSession sessionToken session :: rest) ∨
      (¬ session.expiresAt < checked ∧ ∃ answer more,
        later = more ++ ⟨.write (.deleteSessionsByUserID session.userID), answer⟩ ::
          ⟨.now, checked⟩ :: foundSession sessionToken session :: rest)

/-- Every session read so far has the hash of the presented secret. -/
def Matches (host : Host) (token : List UInt8) (past : Past) : Prop :=
  ∀ sessionToken secret session, validateRefreshToken token = some (sessionToken, secret) →
    foundSession sessionToken session ∈ past → host.computeTokenMAC secret = session.tokenHash

section Refresh

variable {host : Host} {req : Request} {past : Past} {token : List UInt8}

theorem Matches.caught (matches_ : Matches host token past) : Caught host token past :=
  fun _ _ _ valid found differ => absurd (matches_ _ _ _ valid found) differ

theorem Matches.cons (entry : Entry Query.Answer) (other : ¬ entry.1.LooksUpSession)
    (matches_ : Matches host token past) : Matches host token (entry :: past) := by
  intro sessionToken secret session valid found
  rcases List.mem_cons.mp found with same | found
  · exact absurd (by rw [← same]; exact trivial) other
  · exact matches_ sessionToken secret session valid found

/-- An access token is only made for an active user, between two looks at the clock. -/
theorem generateAccessToken_obeys {rule : Past → Query → Prop} (user : User)
    (clock : ∀ later, rule later .now) :
    (generateAccessToken user).Obeys rule
      (fun later result =>
        (user.active = false ∧ later = past ∧ result = none) ∨
        (user.active = true ∧ ∃ t u token, later = ⟨.now, u⟩ :: ⟨.now, t⟩ :: past ∧
          result = some token ∧ token.userID = user.id ∧ token.email = user.email ∧
          token.role = user.role)) past := by
  unfold generateAccessToken
  cases active : user.active with
  | false => exact .inl ⟨rfl, rfl, rfl⟩
  | true =>
      refine ⟨clock _, fun t => ⟨clock _, fun u => ?_⟩⟩
      exact .inr ⟨rfl, t, u, _, rfl, rfl, rfl, rfl, rfl⟩

/-- A refresh token has a secret drawn for it. -/
theorem generateRefreshToken_obeys {rule : Past → Query → Prop} (sessionToken : List UInt8)
    (draw : rule past .randomSecret) :
    (generateRefreshToken host sessionToken).Obeys rule
      (fun later result => ∃ new, later = ⟨.randomSecret, new⟩ :: past ∧
        result = (encodeRefreshToken sessionToken new, host.computeTokenMAC new)) past :=
  ⟨draw, fun new => ⟨new, rfl, rfl⟩⟩

/-- A database error ends a refresh. -/
theorem orRefreshErr_obeys {α : Type} {rule : Past → Query → Prop} {post : Past → α → Prop}
    {stop : Past → Prop} {p : Db α} (obeys : Obeys rule post (fun later _ => stop later) past p)
    (err : RefreshErr) : Obeys rule post (fun later _ => stop later) past (orRefreshErr p err) :=
  Obeys.adapt obeys fun _ _ holds => holds

/-- A write whose row count is checked. -/
theorem checkedWrite_obeys {rule : Past → Query → Prop} {w : Write} (here : rule past (.write w))
    (notFound : Err) :
    Obeys rule (fun later _ => ∃ rows, rows ≠ 0 ∧ later = ⟨.write w, .ok rows⟩ :: past)
      (fun later _ => ∃ answer, later = ⟨.write w, answer⟩ :: past) past
      (do
        let rows ← exec w
        checkRowsAffected rows notFound) := by
  refine Obeys.bind (exec_obeys here fun err => ⟨_, rfl⟩) fun _ rows found => ?_
  subst found
  unfold checkRowsAffected
  by_cases none : rows = 0
  · rw [if_pos none]
    exact Obeys.throw ⟨_, rfl⟩
  · rw [if_neg none]
    exact Obeys.pure ⟨rows, none, rfl⟩

/-- A session that is deleted on the way out. -/
theorem deleteSessionSafe_obeys (id : Int) :
    (deleteSessionSafe id).Obeys (Discipline host req)
      (fun later _ => ∃ answer, later = ⟨.write (.deleteSession id), answer⟩ :: past) past := by
  refine Prog.Obeys.bind (checkedWrite_obeys trivial _) fun later result holds => ?_
  cases result with
  | ok _ =>
      obtain ⟨rows, _, here⟩ := holds
      exact ⟨_, here⟩
  | error _ => exact holds

/-- The deletion of a user's sessions, tried once more if it fails. -/
theorem revokeOnReuse_obeys (userID : Int) :
    (revokeOnReuse userID).Obeys (Discipline host req)
      (fun later _ => ∃ answer more, (∀ entry ∈ more, ¬ entry.1.LooksUpSession) ∧
        later = more ++ ⟨.write (.deleteSessionsByUserID userID), answer⟩ :: past) past := by
  refine ⟨trivial, fun answer => ?_⟩
  cases answer with
  | ok rows => exact ⟨_, [], fun _ member => absurd member List.not_mem_nil, rfl⟩
  | error err =>
      refine ⟨trivial, fun answer => ?_⟩
      have quiet : ∀ entry ∈ [(⟨.write (.deleteSessionsByUserID userID), answer⟩ :
          Entry Query.Answer)], ¬ entry.1.LooksUpSession := by
        intro entry member
        rw [List.mem_singleton.mp member]
        exact id
      cases answer <;> exact ⟨_, [_], quiet, rfl⟩

/-- **Steps 5 to 8 of a refresh**, for a session that was read, not expired, with the hash of the
presented secret. -/
theorem rotateSession_disciplined (presented : req.presents = some token) {session : Session}
    {secret : List UInt8} {checked : Instant}
    (read : ∃ sessionToken, validateRefreshToken token = some (sessionToken, secret) ∧
      foundSession sessionToken session ∈ past)
    (clock : (⟨.now, checked⟩ : Entry Query.Answer) ∈ past) (alive : ¬ session.expiresAt < checked)
    (hash_matches : host.computeTokenMAC secret = session.tokenHash)
    (unread : ∀ entry ∈ past, ¬ entry.1.LoadsUser ∧ ¬ entry.1.StoresSecret)
    (matches_ : Matches host token past) :
    Obeys (Discipline host req)
      (fun later (value : User × AccessToken × List UInt8) =>
        Redeemed host token later value.1 value.2.1 value.2.2 ∧ Matches host token later)
      (fun later _ => Matches host token later) past (rotateSession host session) := by
  refine Obeys.bind (orRefreshErr_obeys (select_obeys trivial fun err => ?_) _) fun _ found here => ?_
  · exact matches_.cons _ id
  subst here
  replace matches_ := matches_.cons ⟨.read (.userByID session.userID), .ok found⟩ id
  have delete : Obeys (Discipline host req) (fun later _ => Matches host token later)
      (fun later (_ : RefreshErr) => Matches host token later)
      (⟨.read (.userByID session.userID), .ok found⟩ :: past) (liftM (deleteSessionSafe session.id)) := by
    refine Obeys.lift (Prog.Obeys.mono (fun _ _ here => here) ?_ (deleteSessionSafe_obeys _))
    rintro _ _ ⟨answer, rfl⟩
    exact matches_.cons _ id
  cases found with
  | none => exact Obeys.bind delete fun _ _ holds => Obeys.throw holds
  | some user =>
  show Obeys _ _ _ _ (if !user.active then _ else _)
  cases active : user.active with
  | false => exact Obeys.bind delete fun _ _ holds => Obeys.throw holds
  | true => 
    refine Obeys.bind (Obeys.lift (generateAccessToken_obeys user fun _ => trivial))
      fun _ made outcome => ?_
    rcases outcome with ⟨inactive, _⟩ | ⟨_, t, u, accessToken, rfl, rfl, userID, email, role⟩
    · rw [active] at inactive
      cases inactive
    replace matches_ := (matches_.cons ⟨.now, t⟩ id).cons ⟨.now, u⟩ id
    refine Obeys.bind (Obeys.lift (generateRefreshToken_obeys _ trivial)) fun _ _ drawn => ?_
    obtain ⟨new, rfl, rfl⟩ := drawn
    refine Obeys.bind (ask_obeys trivial) fun _ now here => ?_
    subst here
    replace matches_ := (matches_.cons ⟨.randomSecret, new⟩ id).cons
      ⟨.now, now⟩ id
    have rotates : Rotates host (⟨.now, now⟩ :: ⟨.randomSecret, new⟩ :: ⟨.now, u⟩ :: ⟨.now, t⟩ ::
        ⟨.read (.userByID session.userID), .ok (some user)⟩ :: past) token session secret new checked
        user := by
      have extends_ : ∀ entry ∈ past, entry ∈ (⟨.now, now⟩ :: ⟨.randomSecret, new⟩ :: ⟨.now, u⟩ ::
          ⟨.now, t⟩ :: ⟨.read (.userByID session.userID), .ok (some user)⟩ :: past : Past) :=
        fun _ member => List.mem_append_right [_, _, _, _, _] member
      obtain ⟨sessionToken, valid, member⟩ := read
      exact
        { session_read := ⟨sessionToken, valid, extends_ _ member⟩
          clock := extends_ _ clock
          alive, hash_matches
          user_read := List.mem_append_right [_, _, _, _] List.mem_cons_self
          user_once := by
            intro entry member loads
            rcases List.mem_append.mp (show entry ∈ [_, _, _, _, _] ++ past from member) with
              recent | member
            · simp only [List.mem_cons, List.not_mem_nil, or_false] at recent
              rcases recent with rfl | rfl | rfl | rfl | rfl <;> first | exact rfl | exact loads.elim
            · exact absurd loads (unread entry member).1
          active
          fresh := Fresh.cons (fun marked => marked) (Fresh.here rfl)
          unspent := by
            intro entry member
            rcases List.mem_append.mp (show entry ∈ [_, _, _, _, _] ++ past from member) with
              recent | member
            · simp only [List.mem_cons, List.not_mem_nil, or_false] at recent
              rcases recent with rfl | rfl | rfl | rfl | rfl <;> exact id
            · exact (unread entry member).2 }
    have allowed : Discipline host req _ (.write (.updateSession session.id
        (host.computeTokenMAC new) (now + refreshTokenDuration))) :=
      ⟨token, session, secret, new, checked, user, presented, rfl, rfl, rotates⟩
    refine Obeys.bind (orRefreshErr_obeys (Obeys.mono (checkedWrite_obeys allowed _)
      (fun _ _ changed => changed) ?_) _) fun _ _ changed => ?_
    · rintro _ _ ⟨answer, rfl⟩
      exact matches_.cons _ id
    · obtain ⟨rows, changed, rfl⟩ := changed
      refine Obeys.pure ⟨⟨?_, userID, email, role⟩, matches_.cons _ id⟩
      exact ⟨session, secret, new, checked, _, rows, _, rfl, rotates, changed, rfl⟩

/-- **How a refresh ends.** -/
theorem refreshSession_disciplined (presented : req.presents = some token)
    (aside : ∀ entry ∈ past, entry.1.Aside) :
    Obeys (Discipline host req)
      (fun later (value : User × AccessToken × List UInt8) =>
        Redeemed host token later value.1 value.2.1 value.2.2 ∧ Caught host token later)
      (fun later _ => Caught host token later) past (refreshSession host token) := by
  have first : ∀ sessionToken session, foundSession sessionToken session ∉ past :=
    fun _ _ member => (aside _ member).not_looksUpSession trivial
  have start : Matches host token past := fun _ _ session _ found => absurd found (first _ session)
  unfold refreshSession
  cases parsed : validateRefreshToken token with
  | none => exact Obeys.throw start.caught
  | some parts =>
  obtain ⟨sessionToken, secret⟩ := parts
  refine Obeys.bind (orRefreshErr_obeys (select_obeys trivial fun err => ?_) _) fun _ found here => ?_
  · refine Matches.caught fun _ _ session _ member => ?_
    rcases List.mem_cons.mp member with same | member
    · cases same
    · exact absurd member (first _ session)
  subst here
  cases found with
  | none =>
      refine Obeys.throw (Matches.caught fun _ _ session _ member => ?_)
      rcases List.mem_cons.mp member with same | member
      · cases same
      · exact absurd member (first _ session)
  | some session =>
  refine Obeys.bind (ask_obeys trivial) fun _ checked here => ?_
  subst here
  -- the only session the refresh has read
  have only : ∀ more, (∀ entry ∈ more, ¬ entry.1.LooksUpSession) → ∀ sessionToken' session',
      foundSession sessionToken' session' ∈
        more ++ (⟨.now, checked⟩ :: foundSession sessionToken session :: past : Past) →
      foundSession sessionToken' session' = foundSession sessionToken session := by
    intro more others sessionToken' session' member
    rcases List.mem_append.mp member with member | member
    · exact absurd trivial (others _ member)
    rcases List.mem_cons.mp member with same | member
    · cases same
    rcases List.mem_cons.mp member with same | member
    · exact same
    · exact absurd member (first _ _)
  by_cases expired : session.expiresAt < checked
  · rw [if_pos expired]
    refine Obeys.bind (Obeys.lift (deleteSessionSafe_obeys _)) fun _ _ deleted => Obeys.throw ?_
    obtain ⟨answer, rfl⟩ := deleted
    intro sessionToken' secret' session' valid member differ
    cases only [_] (fun _ member => by rw [List.mem_singleton.mp member]; exact id) _ _ member
    exact ⟨past, checked, .inl ⟨expired, answer, rfl⟩⟩
  rw [if_neg expired]
  by_cases differ : host.computeTokenMAC secret ≠ session.tokenHash
  · rw [if_pos differ]
    refine Obeys.bind (Obeys.lift (revokeOnReuse_obeys _)) fun _ _ deleted => Obeys.throw ?_
    obtain ⟨answer, more, others, rfl⟩ := deleted
    intro sessionToken' secret' session' valid member _
    have same := only (more ++ [⟨.write (.deleteSessionsByUserID session.userID), answer⟩]) ?_
      sessionToken' session' (by rw [List.append_assoc]; exact member)
    · cases same
      exact ⟨past, checked, .inr ⟨expired, answer, more, rfl⟩⟩
    · intro entry member
      rcases List.mem_append.mp member with member | member
      · exact others entry member
      · rw [List.mem_singleton.mp member]
        exact id
  rw [if_neg differ]
  rw [not_not] at differ
  have matches_ : Matches host token (⟨.now, checked⟩ :: foundSession sessionToken session :: past) := by
    intro sessionToken' secret' session' valid member
    cases only [] (fun _ member => absurd member List.not_mem_nil) _ _ member
    cases parsed.symm.trans valid
    exact differ
  have unread : ∀ entry ∈ ⟨.now, checked⟩ :: foundSession sessionToken session :: past,
      ¬ entry.1.LoadsUser ∧ ¬ entry.1.StoresSecret := by
    intro entry member
    rcases List.mem_cons.mp member with rfl | member
    · exact ⟨id, id⟩
    rcases List.mem_cons.mp member with rfl | member
    · exact ⟨id, id⟩
    · exact ⟨(aside entry member).not_loadsUser, (aside entry member).not_storesSecret⟩
  refine Obeys.mono (rotateSession_disciplined presented ⟨sessionToken, parsed, ?_⟩ ?_ expired differ
    unread matches_) (fun _ _ holds => ⟨holds.1, holds.2.caught⟩) fun _ _ holds => holds.caught
  · exact List.mem_cons_of_mem _ List.mem_cons_self
  · exact List.mem_cons_self

/-! ### The requests that refresh -/

/-- The response to a request that presents a refresh token. -/
structure Refreshed (host : Host) (token : List UInt8) (later : Past) (response : Response) : Prop where
  redeemed : ∀ accessToken refreshToken, response.cookies = .set accessToken refreshToken →
    ∃ user, Redeemed host token later user accessToken refreshToken
  caught : Caught host token later

theorem Refreshed.of_keeps {response : Response} (caught : Caught host token past)
    (keeps : ∀ accessToken refreshToken, response.cookies ≠ .set accessToken refreshToken) :
    Refreshed host token past response :=
  ⟨fun _ _ same => absurd same (keeps _ _), caught⟩

theorem caught_nil : Caught host token [] := fun _ _ _ _ member => absurd member List.not_mem_nil

theorem handleRefresh_refreshed (ip : String) :
    Obeys (Discipline host (.refresh ip (some token))) (Refreshed host token) (Refreshed host token) []
      (handleRefresh host ip (some token)) := by
  refine Obeys.bind (ask_obeys trivial) fun _ allowed here => ?_
  subst here
  have aside : ∀ entry ∈ ([⟨.refreshAllow ip, allowed⟩] : Past), entry.1.Aside := by
    intro entry member
    rw [List.mem_singleton.mp member]
    exact trivial
  have start : Caught host token [⟨.refreshAllow ip, allowed⟩] :=
    fun _ _ session _ member => absurd trivial (aside _ member).not_looksUpSession
  refine Obeys.bind (ensure_obeys fun _ => Refreshed.of_keeps start (by rintro _ _ ⟨⟩)) ?_
  rintro _ _ ⟨rfl, _⟩
  refine Obeys.bind (orRespond_obeys fun none => nomatch none) ?_
  rintro _ _ ⟨rfl, same⟩
  cases same
  refine Obeys.bind (Obeys.lift (refreshSession_disciplined rfl aside)) fun later result holds => ?_
  cases result with
  | error err => exact Obeys.throw (Refreshed.of_keeps holds (by rintro _ _ ⟨⟩))
  | ok made =>
      obtain ⟨user, accessToken, refreshToken⟩ := made
      refine Obeys.pure ⟨?_, holds.2⟩
      rintro _ _ ⟨rfl, rfl⟩
      exact ⟨user, holds.1⟩

theorem handlePageLoad_refreshed :
    Obeys (Discipline host (.pageLoad (some token))) (Refreshed host token) (Refreshed host token) []
      (handlePageLoad host (some token)) := by
  refine Obeys.bind (orRespond_obeys fun _ => Refreshed.of_keeps caught_nil (by rintro _ _ ⟨⟩)) ?_
  rintro _ found ⟨rfl, same⟩
  cases (Option.filter_eq_some_iff.mp same).1
  refine Obeys.bind (Obeys.lift (refreshSession_disciplined rfl fun _ member => absurd member List.not_mem_nil))
    fun later result holds => ?_
  cases result with
  | error err => exact Obeys.throw (Refreshed.of_keeps holds (by rintro _ _ ⟨⟩))
  | ok made =>
      obtain ⟨user, accessToken, refreshToken⟩ := made
      refine Obeys.pure ⟨?_, holds.2⟩
      rintro _ _ ⟨rfl, rfl⟩
      exact ⟨user, holds.1⟩

end Refresh

/-! ### Login -/

section Login

variable {host : Host} {req : Request} {past : Past}

theorem createUserSession_disciplined {user : User} {email password : String}
    (read : (⟨.read (.userByEmail email), .ok (some user)⟩ : Entry Query.Answer) ∈ past)
    (active : user.active = true) (checked : host.checkPassword user.passwordHash password = true) :
    (createUserSession host user).Obeys (Discipline host req) (fun _ _ => True) past := by
  refine Prog.Obeys.bind (generateAccessToken_obeys user fun _ => trivial) fun _ made outcome => ?_
  rcases outcome with ⟨inactive, _⟩ | ⟨_, t, u, accessToken, rfl, rfl, _⟩
  · rw [active] at inactive
    cases inactive
  refine ⟨trivial, fun sessionToken => ⟨trivial, fun secret => ⟨trivial, fun now => ⟨?_, ?_⟩⟩⟩⟩
  · refine ⟨email, password, user, secret, ?_, rfl, active, checked, ?_, rfl⟩
    · exact List.mem_append_right [_, _, _, _, _] read
    · exact Fresh.cons (fun marked => marked) (Fresh.here rfl)
  · intro answer
    cases answer <;> trivial

theorem handleLogin_disciplined (ip : String) (body : Body LoginRequest) :
    Disciplined host req past (fun _ _ => True) (handleLogin host ip body) := by
  refine Disciplined.after (Asks.lift (ask_asks (by exact trivial))) fun _ _ _ => ?_
  refine Disciplined.after (ensure_asks _ _) fun _ _ _ => ?_
  refine Disciplined.after (decodeAndValidate_asks _ _) fun _ login _ => ?_
  refine Disciplined.after (Asks.lift (ask_asks (by exact trivial))) fun _ _ _ => ?_
  refine Disciplined.after (ensure_asks _ _) fun _ _ _ => ?_
  refine Disciplined.bind (Disciplined.orFail (Disciplined.select _) _) fun _ found here => ?_
  subst here
  cases found with
  | none => exact Disciplined.quiet (Asks.bind (Asks.lift (ask_asks trivial)) fun _ => Asks.throw _)
  | some user =>
  dsimp only
  by_cases refused : user.active = false ∨ host.checkPassword user.passwordHash login.password = false
  · rw [if_pos refused]
    exact Disciplined.quiet (Asks.bind (Asks.lift (ask_asks trivial)) fun _ => Asks.throw _)
  · rw [if_neg refused]
    rw [not_or, Bool.not_eq_false, Bool.not_eq_false] at refused
    refine Disciplined.bind (Obeys.lift (createUserSession_disciplined List.mem_cons_self refused.1
      refused.2)) fun _ made _ => Disciplined.quiet ?_
    cases made with
    | none => exact Asks.throw _
    | some made =>
        refine Asks.bind (Asks.lift (ask_asks (by exact trivial))) fun _ => ?_
        exact Asks.bind (Asks.lift (updateUserLastLogin_quiet _)) fun _ => Asks.pure _

end Login

end Wuflow

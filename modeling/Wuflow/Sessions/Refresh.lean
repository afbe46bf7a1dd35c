/-
**A refresh respects revocation.**

A refresh reads its session and its user early and writes late, but the row count of its `UpdateSession`
is checked: tokens are returned only if the session was still there. Session keys are not reused, so a
session that was deleted stays deleted, and no rotation brings it back.
-/

import Wuflow.Requests.Runs

namespace Wuflow

open Calendar (Instant)
open Interleave (Prog Entry Event Run Steps own own_append own_cons_self entry_mem_own mem_own
  own_eq_append_cons steps_append_iff steps_cons_iff)
open Relational (Table)

variable {ι : Type}

/-- A deleted session stays deleted. -/
theorem session_gone {event : Step ι} {later earlier : List (Step ι)} {before after s : Store} {id : Int}
    {row : SessionRow} (reaches : Reaches (later ++ event :: earlier) s) (first : Reaches earlier before)
    (second : Reaches (event :: earlier) after) (found : before.sessions.get? id = some row)
    (deleted : after.sessions.get? id = none) : s.sessions.get? id = none := by
  obtain ⟨before', after', first', here, rest⟩ := reaches.split
  obtain rfl := first'.unique first
  obtain rfl := Reaches.unique (.step event first' here) second
  have given : id ≤ after'.sessions.seq :=
    le_trans (Table.get?_le_seq found).2 (perform_evolves here).sessions.seq_le
  exact (steps_evolve rest).sessions.gone given deleted

/-- A step that reads a user reads its row. -/
theorem userByID_found {s : Store} {id : Int} {user : User}
    (found : Select.eval (.userByID id) s = some user) :
    user.id = id ∧ ∃ row, s.users.get? id = some row ∧ user = scanUserRow id row := by
  obtain ⟨row, here, rfl⟩ := Option.map_eq_some_iff.mp found
  exact ⟨rfl, row, here, rfl⟩

variable [DecidableEq ι]

/-- The request has returned tokens for a refresh token. -/
def Returns (reqs : ι → Request) (current : ι → Backend Response) (thread : ι)
    (accessToken : AccessToken) : Prop :=
  ∃ token refreshToken response, (reqs thread).presents = some token ∧
    current thread = .done response ∧ response.cookies = .set accessToken refreshToken

/-- What refreshes keep to, whatever other requests do in between. -/
structure RespectsRevocation (reqs : ι → Request) (trace : List (Step ι)) (s : Store)
    (current : ι → Backend Response) : Prop where
  /-- The last step of a refresh that returns tokens rotates a session that exists. -/
  live : ∀ thread accessToken, Returns reqs current thread accessToken →
    ∃ later update earlier before id hash expiresAt row, trace = later ++ update :: earlier ∧
      update.thread = thread ∧ own thread later = [] ∧ Reaches earlier before ∧
      update.query = .write (.updateSession id hash expiresAt) ∧
      before.sessions.get? id = some row
  /-- A rotation of a session that was deleted before returns no tokens. -/
  refused : ∀ later update between revocation earlier id hash expiresAt before after row,
    trace = later ++ update :: (between ++ revocation :: earlier) →
    Reaches earlier before → Reaches (revocation :: earlier) after →
    before.sessions.get? id = some row → after.sessions.get? id = none →
    update.query = .write (.updateSession id hash expiresAt) →
    ∀ accessToken, ¬ Returns reqs current update.thread accessToken
  /-- A session that was deleted is not brought back. -/
  gone : ∀ later revocation earlier id before after row, trace = later ++ revocation :: earlier →
    Reaches earlier before → Reaches (revocation :: earlier) after →
    before.sessions.get? id = some row → after.sessions.get? id = none → s.sessions.get? id = none
  /-- A refresh that returns tokens has read its user, and the access token is for the user as it was
  then, an active one. -/
  reads : ∀ thread accessToken, Returns reqs current thread accessToken →
    ∃ later read earlier before row, trace = later ++ read :: earlier ∧ read.thread = thread ∧
      read.query = .read (.userByID accessToken.userID) ∧
      Reaches earlier before ∧ before.users.get? accessToken.userID = some row ∧
      row.active = true ∧ accessToken.email = row.email ∧ accessToken.role = row.role
  /-- If it read the user after an `UpdateUser`, the token has the email and the role that the last one
  wrote, and that left the user active. -/
  updated : ∀ thread accessToken, Returns reqs current thread accessToken →
    ∀ later read between update earlier u, trace = later ++ read :: (between ++ update :: earlier) →
      read.thread = thread → read.query.LoadsUser → Updates update u → u.id = accessToken.userID →
      (∀ event ∈ between, ∀ u', Updates event u' → u'.id ≠ u.id) →
      u.active = true ∧ accessToken.email = u.email ∧ accessToken.role = u.role

section Runs

variable {host : Host} {reqs : ι → Request} {trace : List (Step ι)} {s : Store}
  {current : ι → Backend Response} {thread : ι} {accessToken : AccessToken}

/-- Tokens are the tokens of a redemption. -/
theorem Returns.redeemed (run : Serves host reqs trace s current)
    (returns : Returns reqs current thread accessToken) :
    ∃ token user refreshToken, Redeemed host token (own thread trace) user accessToken refreshToken := by
  obtain ⟨token, refreshToken, response, presents, finished, cookies⟩ := returns
  obtain ⟨user, redeemed⟩ := (run.post (serve_refreshed host presents) finished).redeemed _ _ cookies
  exact ⟨token, user, refreshToken, redeemed⟩

/-- The rotation of a request that returned tokens: its last step, and the only one that stores a
secret. -/
theorem Returns.rotation (run : Serves host reqs trace s current)
    (returns : Returns reqs current thread accessToken) :
    ∃ (id : Int) (hash : String) (expiresAt : Instant) (rows : Int) (rest : Past),
      own thread trace = ⟨.write (.updateSession id hash expiresAt), .ok rows⟩ :: rest ∧ rows ≠ 0 ∧
      ∀ entry ∈ rest, ¬ entry.1.StoresSecret := by
  obtain ⟨_, _, _, redeemed⟩ := returns.redeemed run
  obtain ⟨session, _, new, _, expiresAt, rows, rest, history, rotates, changed, _⟩ := redeemed.rotated
  exact ⟨session.id, _, expiresAt, rows, rest, history, changed, rotates.unspent⟩

theorem Returns.live (run : Serves host reqs trace s current)
    (returns : Returns reqs current thread accessToken) :
    ∃ later update earlier before id hash expiresAt row, trace = later ++ update :: earlier ∧
      update.thread = thread ∧ own thread later = [] ∧ Reaches earlier before ∧
      update.query = .write (.updateSession id hash expiresAt) ∧
      before.sessions.get? id = some row := by
  obtain ⟨id, hash, expiresAt, rows, rest, history, changed, _⟩ := returns.rotation run
  obtain ⟨later, ⟨thread', query, answer⟩, earlier, rfl, same, entry, last, _⟩ :=
    own_eq_append_cons (show own thread trace = [] ++ _ :: rest from history)
  cases entry
  have reaches : Reaches _ s := run.steps
  obtain ⟨before, _, first, here, _⟩ := reaches.split
  obtain ⟨row, found⟩ := updateSession_found (Write.apply_of_ok here) changed
  exact ⟨later, _, earlier, before, id, hash, expiresAt, row, rfl, same, last, first, rfl, found⟩

theorem Returns.refused (run : Serves host reqs trace s current) {later earlier : List (Step ι)}
    {update : Step ι} {middle : Store} {id : Int} {hash : String} {expiresAt : Instant}
    (place : trace = later ++ update :: earlier) (reaches : Reaches earlier middle)
    (deleted : middle.sessions.get? id = none)
    (rotation : update.query = .write (.updateSession id hash expiresAt)) :
    ¬ Returns reqs current update.thread accessToken := by
  intro returns
  obtain ⟨id', hash', expiresAt', rows, rest, history, changed, others⟩ := returns.rotation run
  have written : Reaches trace s := run.steps
  rw [place] at written
  obtain ⟨middle', _, reaches', here, _⟩ := Reaches.split written
  obtain rfl := reaches'.unique reaches
  have member : update.entry ∈ own update.thread trace :=
    entry_mem_own (place ▸ List.mem_append_right _ List.mem_cons_self)
  rw [history] at member
  obtain ⟨thread', query, answer⟩ := update
  obtain rfl : query = _ := rotation
  rcases List.mem_cons.mp member with same | member
  · cases same
    obtain ⟨row, found⟩ := updateSession_found (Write.apply_of_ok here) changed
    rw [deleted] at found
    cases found
  · exact others _ member trivial

/-- **The user a returned token is for**, as the refresh has read it. -/
theorem Returns.user_read (run : Serves host reqs trace s current)
    (returns : Returns reqs current thread accessToken) :
    ∃ user, user.active = true ∧ accessToken.userID = user.id ∧ accessToken.email = user.email ∧
      accessToken.role = user.role ∧
      (∃ id, (⟨.read (.userByID id), .ok (some user)⟩ : Entry Query.Answer) ∈ own thread trace) ∧
      ∀ entry ∈ own thread trace, entry.1.LoadsUser →
        ∃ id, entry = ⟨.read (.userByID id), .ok (some user)⟩ := by
  obtain ⟨_, user, _, redeemed⟩ := returns.redeemed run
  obtain ⟨session, _, _, _, _, _, rest, history, rotates, _, _⟩ := redeemed.rotated
  refine ⟨user, rotates.active, redeemed.userID, redeemed.email, redeemed.role, ?_, ?_⟩
  · rw [history]
    exact ⟨_, List.mem_cons_of_mem _ rotates.user_read⟩
  · rw [history]
    intro entry member loads
    rcases List.mem_cons.mp member with rfl | member
    · exact loads.elim
    · exact ⟨_, rotates.user_once entry member loads⟩

theorem Returns.reads (run : Serves host reqs trace s current)
    (returns : Returns reqs current thread accessToken) :
    ∃ later read earlier before row, trace = later ++ read :: earlier ∧ read.thread = thread ∧
      read.query = .read (.userByID accessToken.userID) ∧ Reaches earlier before ∧
      before.users.get? accessToken.userID = some row ∧ row.active = true ∧
      accessToken.email = row.email ∧ accessToken.role = row.role := by
  obtain ⟨user, active, userID, email, role, ⟨id, member⟩, _⟩ := returns.user_read run
  obtain ⟨⟨thread', query, answer⟩, inside, same, entry⟩ := mem_own.mp member
  cases entry
  obtain ⟨later, earlier, rfl⟩ := List.append_of_mem inside
  have reaches : Reaches _ s := run.steps
  obtain ⟨before, _, first, here, _⟩ := reaches.split
  obtain ⟨rfl, row, found, scanned⟩ :=
    userByID_found (Except.ok.inj (perform_read here).1).symm
  rw [userID, email, role]
  refine ⟨later, _, earlier, before, row, rfl, same, rfl, first, found, ?_, ?_, ?_⟩
  · rw [scanned] at active
    exact active
  · exact congrArg User.email scanned
  · exact congrArg User.role scanned

theorem Returns.updated (run : Serves host reqs trace s current)
    (returns : Returns reqs current thread accessToken) {later between earlier : List (Step ι)}
    {read update : Step ι} {u : User}
    (place : trace = later ++ read :: (between ++ update :: earlier)) (same : read.thread = thread)
    (loads : read.query.LoadsUser) (updates : Updates update u) (own_ : u.id = accessToken.userID)
    (last : ∀ event ∈ between, ∀ u', Updates event u' → u'.id ≠ u.id) :
    u.active = true ∧ accessToken.email = u.email ∧ accessToken.role = u.role := by
  obtain ⟨user, active, userID, email, role, _, once⟩ := returns.user_read run
  have member : read.entry ∈ own thread trace := by
    rw [← same, place]
    exact entry_mem_own (List.mem_append_right _ List.mem_cons_self)
  obtain ⟨id, entry⟩ := once _ member loads
  have reaches : Reaches trace s := run.steps
  rw [place] at reaches
  obtain ⟨middle, _, first, looked, _⟩ := reaches.split
  obtain ⟨before, after, _, here, rest⟩ := Reaches.split first
  obtain ⟨thread', query, answer⟩ := read
  cases entry
  obtain ⟨rfl, row, found, scanned⟩ :=
    userByID_found (Except.ok.inj (perform_read looked).1).symm
  obtain ⟨old, _, set⟩ := updates.sets here
  rw [own_, userID] at set
  obtain ⟨_, found', lastLogin, kept⟩ := account_kept rest (Table.get?_le_seq set).2
    (fun event member u' updates' => by rw [← userID, ← own_]; exact last event member u' updates') found
  cases set.symm.trans found'
  rw [scanned, kept] at active
  rw [email, role, scanned, kept]
  exact ⟨active, rfl, rfl⟩

/-- **Refreshes respect revocation** in every run. -/
theorem refresh_respects_revocation (run : Serves host reqs trace s current) :
    RespectsRevocation reqs trace s current where
  live _ _ returns := returns.live run
  refused _ _ _ _ _ _ _ _ _ _ _ place first second found deleted rotation _ := by
    have written : Reaches trace s := run.steps
    rw [place] at written
    obtain ⟨_, _, reaches, _, _⟩ := written.split
    exact Returns.refused run place reaches (session_gone reaches first second found deleted) rotation
  gone _ _ _ _ _ _ _ place first second found deleted := by
    have written : Reaches trace s := run.steps
    rw [place] at written
    exact session_gone written first second found deleted
  reads _ _ returns := returns.reads run
  updated _ _ returns _ _ _ _ _ _ place same loads updates own_ last :=
    returns.updated run place same loads updates own_ last

end Runs

/-- The account is renamed, and its session renewed; a logout falls between the reads and the write of the next
refresh. -/
def loggedOut : Fin 6 → Request
  | 0 => bootstrap
  | 1 => sampleLogin
  | 2 => .updateUser sampleAdmin (some 1) (.json
      { email := "root@example.com", firstName := "Root", lastName := "User", role := .sysadmin, active := true })
  | 3 => .refresh "192.0.2.1" (some sampleToken)
  | 4 => .refresh "192.0.2.1" (some (encodeRefreshToken sampleSessionToken (1 :: List.replicate 31 0)))
  | 5 => .logout (some (encodeRefreshToken sampleSessionToken (1 :: List.replicate 31 0)))

def logoutInBetween : List (Fin 6 × Input) :=
  bootstrapMoves 0 ++ loginMoves 1 ++ stepsOf 2 12 { instant := 3 } ++ refreshMoves 3 1 ++ stepsOf 3 1 {} ++
    refreshMoves 4 2 ++ stepsOf 5 2 {} ++ stepsOf 4 1 {}

/-- The access token that a request has returned. -/
def returned : Backend Response → Option AccessToken
  | .done { cookies := .set accessToken _, .. } => some accessToken
  | _ => none

/-- What was returned has been set. -/
theorem set_of_returned {program : Backend Response} {token : AccessToken} (done : returned program = some token) :
    ∃ response refreshToken, program = .done response ∧ response.cookies = .set token refreshToken := by
  unfold returned at done
  split at done
  · cases done
    exact ⟨_, _, rfl, rfl⟩
  · cases done

omit [DecidableEq ι] in
theorem returns_of_returned {reqs : ι → Request} {current : ι → Backend Response} {thread : ι} {token : List UInt8}
    {accessToken : AccessToken} (presents : (reqs thread).presents = some token)
    (here : returned (current thread) = some accessToken) : Returns reqs current thread accessToken := by
  obtain ⟨response, refreshToken, finished, cookies⟩ := set_of_returned here
  exact ⟨token, refreshToken, response, presents, finished, cookies⟩

/-- The renewal returns tokens. -/
theorem refresh_respects_revocation_logout :
    (∃ accessToken, Returns loggedOut (execute sampleHost loggedOut logoutInBetween).current 3 accessToken) ∧
      RespectsRevocation loggedOut (execute sampleHost loggedOut logoutInBetween).past
        (execute sampleHost loggedOut logoutInBetween).store
        (execute sampleHost loggedOut logoutInBetween).current := by
  refine ⟨?_, refresh_respects_revocation (Serves.of_moves sampleHost loggedOut logoutInBetween)⟩
  have some_ : (returned ((execute sampleHost loggedOut logoutInBetween).current 3)).isSome = true := by
    decide +kernel
  obtain ⟨accessToken, here⟩ := Option.isSome_iff_exists.mp some_
  exact ⟨accessToken, returns_of_returned rfl here⟩

end Wuflow

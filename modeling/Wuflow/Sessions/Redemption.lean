/-
**Refresh tokens are redeemed at most once, as long as no rotation overtakes another.**

A session row holds the hash of the secret last stored in it (`Stores`), and each stored secret was drawn
for that one write (`SecretSource.unique`). Hence:

* `AtMostOnce` — no secret is redeemed twice — holds exactly if every `UpdateSession` still finds the hash
  of the secret its request presented (`HashUnchanged`). A refresh reads the hash in one step and replaces
  it in another, so two requests may both pass the check.
* `ReuseRevokes` — a refresh that presents a rotated secret deletes all sessions of the user — holds if no
  such refresh finds its session expired: the expiry check comes first and ends the refresh.
-/

import Wuflow.Requests.Runs
import Wuflow.Store.AccountSteps

namespace Wuflow

open Calendar (Instant)
open Interleave (Prog Entry Event Fresh Run Steps own drawn drawn_append entry_mem_own fresh_unique mem_own
  own_eq_append_cons steps_append_iff steps_cons_iff)
open Relational (Table)

variable {ι : Type}

/-! ### Stored hashes -/

/-- The step stores a hash in a session. -/
def Stores (event : Step ι) (id : Int) (hash : String) : Prop :=
  match event with
  | ⟨_, .write (.insertSession row), answer⟩ => answer = .ok id ∧ row.tokenHash = hash
  | ⟨_, .write (.updateSession key tokenHash _), answer⟩ =>
      key = id ∧ tokenHash = hash ∧ ∃ rows : Int, answer = .ok rows ∧ rows ≠ 0
  | _ => False

theorem Stores.marked {event : Step ι} {id : Int} {hash : String} (stores : Stores event id hash) :
    event.query.StoresSecret := by
  unfold Stores at stores
  split at stores
  · exact trivial
  · exact trivial
  · exact stores.elim

theorem Stores.written {event : Step ι} {id : Int} {hash : String} (stores : Stores event id hash) :
    ∃ w rows, event.entry = ⟨.write w, .ok rows⟩ := by
  unfold Stores at stores
  split at stores
  · obtain ⟨rfl, _⟩ := stores
    exact ⟨_, _, rfl⟩
  · obtain ⟨_, _, rows, rfl, _⟩ := stores
    exact ⟨_, _, rfl⟩
  · exact stores.elim

theorem Stores.same_id {event : Step ι} {id id' : Int} {hash hash' : String}
    (stores : Stores event id hash) (stores' : Stores event id' hash') : id = id' := by
  unfold Stores at stores stores'
  split at stores
  · exact Except.ok.inj (stores.1.symm.trans stores'.1)
  · exact stores.1.symm.trans stores'.1
  · exact stores.elim

/-- A write that stores no hash keeps or deletes each session. -/
theorem Write.sessions_kept {w : Write} {s s' : Store} {rows : Int}
    (applied : w.apply s = .ok (rows, s')) (quiet : ¬ (Query.write w).StoresSecret) {id : Int}
    {row : SessionRow} (found : s'.sessions.get? id = some row) : s.sessions.get? id = some row := by
  rcases Write.sessions_cases applied with same | ⟨_, rfl, _⟩ | ⟨_, _, _, rfl, _⟩ | same
  · rwa [← same]
  · exact absurd trivial quiet
  · exact absurd trivial quiet
  · rw [same] at found
    exact (Table.get?_delete_eq_some.mp found).1

/-- A session row after a step is the one before it, or was stored by the step. -/
theorem session_cases {event : Step ι} {before after : Store}
    (here : event.query.perform before event.answer after) {id : Int} {row : SessionRow}
    (found : after.sessions.get? id = some row) :
    Stores event id row.tokenHash ∨
      (before.sessions.get? id = some row ∧ ∀ hash, ¬ Stores event id hash) := by
  obtain ⟨thread, query, answer⟩ := event
  rcases perform_cases here with ⟨w, rows, same, applied⟩ | ⟨rfl, unwritten⟩
  · cases same
    by_cases quiet : (Query.write w).StoresSecret
    · cases w with
      | insertSession new =>
          obtain ⟨_, rest⟩ := require_bind_ok.mp applied
          cases rest
          have looked := Table.get?_insert before.sessions new id
          rw [show (before.sessions.insert new).get? id = some row from found] at looked
          by_cases last : id = before.sessions.seq + 1
          · rw [if_pos last] at looked
            cases looked
            exact .inl ⟨congrArg Except.ok last.symm, rfl⟩
          · rw [if_neg last] at looked
            refine .inr ⟨looked.symm, fun hash stores => last ?_⟩
            exact (Except.ok.inj stores.1).symm
      | updateSession key tokenHash expiresAt =>
          cases applied
          have looked := Table.get?_update before.sessions (fun key' _ => key' == key)
            (fun row => { row with tokenHash, expiresAt }) id
          rw [show (before.sessions.update _ _).get? id = some row from found] at looked
          obtain ⟨old, found', changed⟩ := Option.map_eq_some_iff.mp looked.symm
          by_cases own_ : key = id
          · subst own_
            rw [if_pos (beq_self_eq_true key)] at changed
            subst changed
            refine .inl ⟨rfl, rfl, _, rfl, fun none => ?_⟩
            have spared := Table.count_eq_zero_iff.mp none key old found'
            simp at spared
          · rw [if_neg (by simpa using Ne.symm own_)] at changed
            subst changed
            exact .inr ⟨found', fun hash stores => own_ stores.1⟩
      | _ => exact quiet.elim
    · exact .inr ⟨Write.sessions_kept applied quiet found, fun hash stores => quiet stores.marked⟩
  · refine .inr ⟨found, fun hash stores => ?_⟩
    obtain ⟨w, rows, written⟩ := stores.written
    exact unwritten w rows written

/-! ### Where a stored hash comes from -/

/-- **A session row carries the hash that was stored last.** -/
theorem Reaches.stored {trace : List (Step ι)} {s : Store} (reaches : Reaches trace s) {id : Int}
    {row : SessionRow} (found : s.sessions.get? id = some row) :
    ∃ later event earlier, trace = later ++ event :: earlier ∧ Stores event id row.tokenHash ∧
      ∀ e ∈ later, ∀ hash, ¬ Stores e id hash := by
  induction reaches with
  | refl => cases found
  | @step past before after event _ here ih =>
      rcases session_cases here found with stores | ⟨found, quiet⟩
      · exact ⟨[], event, past, rfl, stores, fun _ member => absurd member List.not_mem_nil⟩
      · obtain ⟨later, event', earlier, rfl, stores, none⟩ := ih found
        refine ⟨event :: later, event', earlier, rfl, stores, fun e member => ?_⟩
        rcases List.mem_cons.mp member with rfl | member
        · exact quiet
        · exact none e member

/-- **A hash is only replaced by a rotation**, which finds it. -/
theorem hash_replaced {recent : List (Step ι)} {middle before : Store} {id : Int} {row row' : SessionRow}
    (steps : Steps Query.perform middle recent before) (found : middle.sessions.get? id = some row)
    (found' : before.sessions.get? id = some row') (differ : row'.tokenHash ≠ row.tokenHash) :
    ∃ newer rotation older x rowₓ, recent = newer ++ rotation :: older ∧
      Steps Query.perform middle older x ∧ x.sessions.get? id = some rowₓ ∧
      rowₓ.tokenHash = row.tokenHash ∧
      ∃ (hash : String) (expiresAt : Instant) (rows : Int),
        rotation.entry = ⟨.write (.updateSession id hash expiresAt), .ok rows⟩ ∧ rows ≠ 0 := by
  have replaced : ∃ row', before.sessions.get? id = some row' ∧ row'.tokenHash ≠ row.tokenHash :=
    ⟨row', found', differ⟩
  obtain ⟨newer, rotation, older, x, y, rfl, steps, here, _, unmet, rowᵧ, foundᵧ, differ⟩ :=
    steps.turning_point
      (fun s => ∃ row', s.sessions.get? id = some row' ∧ row'.tokenHash ≠ row.tokenHash)
      (fun ⟨row', same, differ⟩ => differ (by rw [Option.some.inj (same.symm.trans found)])) replaced
  have given : id ≤ x.sessions.seq :=
    le_trans (Table.get?_le_seq found).2 (steps_evolve steps).sessions.seq_le
  obtain ⟨rowₓ, foundₓ, _⟩ := (perform_evolves here).sessions.old id rowᵧ given foundᵧ
  have kept : rowₓ.tokenHash = row.tokenHash := by
    by_contra differ
    exact unmet ⟨rowₓ, foundₓ, differ⟩
  refine ⟨newer, rotation, older, x, rowₓ, rfl, steps, foundₓ, kept, ?_⟩
  rcases session_cases here foundᵧ with stores | ⟨foundᵧ, _⟩
  · unfold Stores at stores
    split at stores
    · -- a new session has a new key
      obtain ⟨rfl, _⟩ := stores
      obtain ⟨_, applied⟩ := require_bind_ok.mp (Write.apply_of_ok here)
      have last : id = x.sessions.nextId := (Prod.mk.inj (Except.ok.inj applied)).1.symm
      unfold Table.nextId at last
      omega
    · obtain ⟨rfl, _, rows, rfl, changed⟩ := stores
      exact ⟨_, _, rows, rfl, changed⟩
    · exact stores.elim
  · exact absurd ⟨rowᵧ, foundᵧ, differ⟩ unmet

/-! ### Redemptions -/

/-- The request presents a secret. -/
def Request.PresentsSecret (req : Request) (secret : List UInt8) : Prop :=
  ∃ token sessionToken, req.presents = some token ∧
    validateRefreshToken token = some (sessionToken, secret)

/-- The step redeems a secret: it rotates a session for a request that presented it. -/
def Redeems (reqs : ι → Request) (event : Step ι) (secret : List UInt8) : Prop :=
  (reqs event.thread).PresentsSecret secret ∧
    ∃ (id : Int) (hash : String) (expiresAt : Instant) (rows : Int),
      event.entry = ⟨.write (.updateSession id hash expiresAt), .ok rows⟩ ∧ rows ≠ 0

/-- No secret is redeemed twice. -/
def AtMostOnce (reqs : ι → Request) (trace : List (Step ι)) : Prop :=
  ∀ later second between first earlier secret,
    trace = later ++ second :: (between ++ first :: earlier) →
    Redeems reqs first secret → Redeems reqs second secret → False

/-- Every `UpdateSession` finds the hash of the secret that its request presented. -/
def HashUnchanged (host : Host) (reqs : ι → Request) (trace : List (Step ι)) : Prop :=
  ∀ later event earlier before id hash expiresAt row secret, trace = later ++ event :: earlier →
    Reaches earlier before → event.query = .write (.updateSession id hash expiresAt) →
    before.sessions.get? id = some row → (reqs event.thread).PresentsSecret secret →
    row.tokenHash = host.computeTokenMAC secret

theorem Request.PresentsSecret.unique {req : Request} {secret secret' : List UInt8}
    (presents : req.PresentsSecret secret) (presents' : req.PresentsSecret secret') :
    secret = secret' := by
  obtain ⟨token, _, presents, valid⟩ := presents
  obtain ⟨token', _, presents', valid'⟩ := presents'
  cases presents.symm.trans presents'
  cases valid.symm.trans valid'
  rfl

/-- A rotation that finds its session redeems the secret presented. -/
theorem redeems_of_found {reqs : ι → Request} {event : Step ι} {before after : Store} {id : Int} {hash : String}
    {expiresAt : Instant} {row : SessionRow} {secret : List UInt8}
    (update : event.query = .write (.updateSession id hash expiresAt))
    (here : event.query.perform before event.answer after)
    (found : before.sessions.get? id = some row)
    (presents : (reqs event.thread).PresentsSecret secret) : Redeems reqs event secret := by
  obtain ⟨thread, query, answer⟩ := event
  obtain rfl : query = _ := update
  obtain ⟨rows, changes, changed⟩ := updateSession_changes found
  obtain rfl : answer = .ok rows := (Prod.mk.inj (here.symm.trans changes)).1
  exact ⟨presents, id, hash, expiresAt, rows, rfl, changed⟩

section Runs

variable [DecidableEq ι] {host : Host} {reqs : ι → Request} {trace : List (Step ι)} {s : Store}
  {current : ι → Backend Response}

/-- A stored hash is that of a secret drawn for it. -/
theorem Serves.spends {later earlier : List (Step ι)} {event : Step ι} {id : Int} {hash : String}
    (run : Serves host reqs (later ++ event :: earlier) s current) (stores : Stores event id hash) :
    ∃ secret, hash = host.computeTokenMAC secret ∧
      Fresh Query.StoresSecret drawnSecret (own event.thread earlier) secret := by
  have disciplined := run.disciplined
  unfold Stores at stores
  split at stores
  · obtain ⟨_, rfl⟩ := stores
    obtain ⟨_, _, _, secret, _, _, _, _, fresh, same⟩ := disciplined
    exact ⟨secret, same, fresh⟩
  · obtain ⟨_, rfl, _⟩ := stores
    obtain ⟨_, _, _, new, _, _, _, _, same, rotates⟩ := disciplined
    exact ⟨new, same, rotates.fresh⟩
  · exact stores.elim

/-- **The hash of a secret is stored in one place.** -/
theorem Serves.stored_once (injective : Function.Injective host.computeTokenMAC)
    (distinct : (drawn drawnSecret trace).Nodup) (run : Serves host reqs trace s current)
    {later earlier later' earlier' : List (Step ι)} {first second : Step ι} {id id' : Int}
    {secret : List UInt8} (place : trace = later ++ first :: earlier)
    (place' : trace = later' ++ second :: earlier')
    (stores : Stores first id (host.computeTokenMAC secret))
    (stores' : Stores second id' (host.computeTokenMAC secret)) :
    later = later' ∧ first = second ∧ earlier = earlier' := by
  obtain ⟨_, same, fresh⟩ := Serves.spends (place ▸ run) stores
  obtain ⟨_, same', fresh'⟩ := Serves.spends (place' ▸ run) stores'
  obtain rfl := injective same
  obtain rfl := injective same'
  exact fresh_unique (place.symm.trans place') (place ▸ distinct) drawnSecret_unmarked stores.marked
    stores'.marked fresh fresh'

/-- The step that stored the hash a redemption finds. -/
theorem HashUnchanged.source (unchanged : HashUnchanged host reqs trace)
    (run : Serves host reqs trace s current) {later earlier : List (Step ι)} {event : Step ι}
    {secret : List UInt8} (place : trace = later ++ event :: earlier)
    (redeems : Redeems reqs event secret) :
    ∃ id hash after store before, earlier = after ++ store :: before ∧
      Stores store id (host.computeTokenMAC secret) ∧ (∀ e ∈ after, ∀ hash, ¬ Stores e id hash) ∧
      Stores event id hash := by
  obtain ⟨presents, id, hash, expiresAt, rows, entry, changed⟩ := redeems
  have reaches : Reaches trace s := run.steps
  rw [place] at reaches
  obtain ⟨before, after, first, here, _⟩ := reaches.split
  obtain ⟨thread, query, answer⟩ := event
  cases entry
  obtain ⟨row, found⟩ := updateSession_found (Write.apply_of_ok here) changed
  obtain ⟨after', store, before', rfl, stores, none⟩ := Reaches.stored first found
  rw [unchanged _ _ _ before id hash expiresAt row secret place first rfl found presents] at stores
  exact ⟨id, hash, after', store, before', rfl, stores, none, rfl, rfl, rows, rfl, changed⟩

/-- If every rotation finds the hash presented, no secret is redeemed twice. -/
theorem HashUnchanged.atMostOnce (unchanged : HashUnchanged host reqs trace)
    (injective : Function.Injective host.computeTokenMAC) (distinct : (drawn drawnSecret trace).Nodup)
    (run : Serves host reqs trace s current) : AtMostOnce reqs trace := by
  intro later second between first earlier secret place redeems redeems'
  obtain ⟨id, hash, after, store, before, rfl, stores, _, stores₁⟩ := unchanged.source run
    (show trace = (later ++ second :: between) ++ first :: earlier by rw [place]; simp) redeems
  obtain ⟨id', _, after', store', before', place', stores', none, _⟩ :=
    unchanged.source run place redeems'
  -- both redemptions found the hash where one step stored it, so the first one overwrote it
  obtain ⟨same, rfl, _⟩ := Serves.stored_once injective distinct run
    (show trace = (later ++ second :: (between ++ first :: after)) ++ store :: before by
      rw [place]; simp)
    (show trace = (later ++ second :: after') ++ store' :: before' by rw [place, place']; simp)
    stores stores'
  obtain rfl := stores.same_id stores'
  have overwritten : first ∈ after' := by
    have same' : between ++ first :: after = after' := by simpa using same
    rw [← same']
    exact List.mem_append_right _ List.mem_cons_self
  exact none first overwritten hash stores₁

/-- **What a rotation has read**: its session with the hash of the secret presented. -/
theorem Serves.rotation_read {later earlier : List (Step ι)} {event : Step ι} {id : Int} {hash : String}
    {expiresAt : Instant} (run : Serves host reqs (later ++ event :: earlier) s current)
    (update : event.query = .write (.updateSession id hash expiresAt)) :
    ∃ secret recent old middle row, earlier = recent ++ old ∧ Reaches old middle ∧
      (reqs event.thread).PresentsSecret secret ∧ middle.sessions.get? id = some row ∧
      row.tokenHash = host.computeTokenMAC secret := by
  have disciplined := run.disciplined
  rw [update] at disciplined
  obtain ⟨token, session, secret, new, checked, user, presents, rfl, rfl, rotates⟩ := disciplined
  obtain ⟨sessionToken, valid, read⟩ := rotates.session_read
  obtain ⟨lookup, inside, _, entry⟩ := mem_own.mp read
  obtain ⟨recent, old, rfl⟩ := List.append_of_mem inside
  have reaches : Reaches _ s := run.steps
  obtain ⟨before, _, reaches, _, _⟩ := reaches.split
  obtain ⟨_, middle, first, looked, _⟩ := Reaches.split reaches
  obtain ⟨thread, query, answer⟩ := lookup
  cases entry
  obtain ⟨same, rfl⟩ := perform_read looked
  obtain ⟨row, found, scanned, _⟩ := sessionByToken_found (Except.ok.inj same).symm
  refine ⟨secret, recent, ⟨thread, _, _⟩ :: old, middle, row, rfl, .step _ first looked,
    ⟨token, sessionToken, presents, valid⟩, found, ?_⟩
  rw [rotates.hash_matches]
  exact (congrArg Session.tokenHash scanned).symm

/-- If no secret is redeemed twice, every rotation finds the hash presented. -/
theorem AtMostOnce.hashUnchanged (once : AtMostOnce reqs trace)
    (injective : Function.Injective host.computeTokenMAC) (run : Serves host reqs trace s current) :
    HashUnchanged host reqs trace := by
  intro later event earlier before id hash expiresAt row secret place reaches update found presents
  -- the first rotation that finds another hash comes after one that redeemed the same secret
  induction size : earlier.length using Nat.strong_induction_on
    generalizing later event earlier before id hash expiresAt row secret with
  | h n ih =>
  by_contra differ
  obtain ⟨secret', recent, old, middle, row₀, rfl, first, presents', found₀, read⟩ :=
    Serves.rotation_read (place ▸ run) update
  obtain rfl := presents.unique presents'
  obtain ⟨middle', first', rest⟩ := steps_append_iff.mp reaches
  obtain rfl := Reaches.unique first first'
  rw [← read] at differ
  obtain ⟨newer, rotation, older, x, rowₓ, rfl, steps, foundₓ, kept, hash', expiresAt', rows, entry,
    changed⟩ := hash_replaced rest found₀ found differ
  have place' : trace = (later ++ event :: newer) ++ rotation :: (older ++ old) := by
    rw [place]
    simp only [List.append_assoc, List.cons_append]
  have shorter : (older ++ old).length < n := by
    rw [← size]
    simp only [List.length_append, List.length_cons]
    omega
  have update' : rotation.query = .write (.updateSession id hash' expiresAt') := congrArg Sigma.fst entry
  obtain ⟨secret', _, _, _, _, _, _, presents'', _⟩ := Serves.rotation_read (place' ▸ run) update'
  have finds := ih _ shorter _ _ _ x _ _ _ rowₓ secret' place' (steps_append_iff.mpr ⟨_, first, steps⟩)
    update' foundₓ presents'' rfl
  obtain rfl := injective ((read.symm.trans kept.symm).trans finds)
  have written : Reaches trace s := run.steps
  rw [place] at written
  obtain ⟨before', after, reaches', here, _⟩ := Reaches.split written
  obtain rfl := Reaches.unique reaches' reaches
  refine once later event newer rotation (older ++ old) secret ?_ ⟨presents'', id, _, _, rows, entry, changed⟩
    (redeems_of_found update here found presents)
  rw [place, List.append_assoc, List.cons_append]

/-- **No secret is redeemed twice exactly if every rotation finds the hash presented.** -/
theorem atMostOnce_iff (injective : Function.Injective host.computeTokenMAC)
    (distinct : (drawn drawnSecret trace).Nodup) (run : Serves host reqs trace s current) :
    AtMostOnce reqs trace ↔ HashUnchanged host reqs trace :=
  ⟨fun once => once.hashUnchanged injective run,
    fun unchanged => unchanged.atMostOnce injective distinct run⟩

/-! ### Reuse -/

/-- A secret was stored in a session and has been replaced since. -/
def RotatedAway (host : Host) (trace : List (Step ι)) (id : Int) (secret : List UInt8) : Prop :=
  ∃ later rotation between store earlier hash,
    trace = later ++ rotation :: (between ++ store :: earlier) ∧
    Stores store id (host.computeTokenMAC secret) ∧ Stores rotation id hash

/-- A refresh that finds the session of a secret that was rotated away deletes all sessions of the
user before it ends. -/
def ReuseRevokes (host : Host) (reqs : ι → Request) (trace : List (Step ι))
    (current : ι → Backend Response) : Prop :=
  ∀ later lookup earlier token sessionToken secret session response,
    trace = later ++ lookup :: earlier → (reqs lookup.thread).presents = some token →
    validateRefreshToken token = some (sessionToken, secret) →
    lookup.entry = foundSession sessionToken session → RotatedAway host earlier session.id secret →
    current lookup.thread = .done response →
    ∃ later' delete earlier' after, trace = later' ++ delete :: earlier' ∧ lookup ∈ earlier' ∧
      delete.thread = lookup.thread ∧
      delete.query = .write (.deleteSessionsByUserID session.userID) ∧
      Reaches (delete :: earlier') after ∧
      ∀ id row, after.sessions.get? id = some row → row.userID ≠ session.userID

/-- No refresh that presents another secret than the session's finds the session expired. -/
def NoneExpired (host : Host) (reqs : ι → Request) (trace : List (Step ι)) : Prop :=
  ∀ thread token sessionToken secret session checked, (reqs thread).presents = some token →
    validateRefreshToken token = some (sessionToken, secret) →
    foundSession sessionToken session ∈ own thread trace →
    host.computeTokenMAC secret ≠ session.tokenHash →
    (⟨.now, checked⟩ : Entry Query.Answer) ∈ own thread trace → ¬ session.expiresAt < checked

/-- A secret that was rotated away is not the session's. -/
theorem RotatedAway.differs (injective : Function.Injective host.computeTokenMAC)
    (distinct : (drawn drawnSecret trace).Nodup) (run : Serves host reqs trace s current) {id : Int}
    {row : SessionRow} {secret : List UInt8} {later earlier : List (Step ι)} {before : Store}
    (place : trace = later ++ earlier) (reaches : Reaches earlier before)
    (rotated : RotatedAway host earlier id secret)
    (found : before.sessions.get? id = some row) : host.computeTokenMAC secret ≠ row.tokenHash := by
  intro same
  obtain ⟨newer, rotation, between, store, older, hash, rfl, stores, stores'⟩ := rotated
  obtain ⟨after, last, rest, place', stored, none⟩ := reaches.stored found
  rw [← same] at stored
  obtain ⟨front, _, _⟩ := Serves.stored_once injective distinct run
    (show trace = (later ++ after) ++ last :: rest by rw [place, place', List.append_assoc])
    (show trace = (later ++ (newer ++ rotation :: between)) ++ store :: older by rw [place]; simp)
    stored stores
  obtain rfl := List.append_cancel_left front
  exact none rotation (List.mem_append_right _ List.mem_cons_self) hash stores'

/-- **Reuse revokes all sessions of the user**, if no such refresh finds its session expired. -/
theorem NoneExpired.reuseRevokes (live : NoneExpired host reqs trace)
    (injective : Function.Injective host.computeTokenMAC) (distinct : (drawn drawnSecret trace).Nodup)
    (run : Serves host reqs trace s current) : ReuseRevokes host reqs trace current := by
  intro later lookup earlier token sessionToken secret session response place presents valid entry
    rotated finished
  have reaches : Reaches trace s := run.steps
  rw [place] at reaches
  obtain ⟨before, _, first, looked, _⟩ := reaches.split
  have read : foundSession sessionToken session ∈ own lookup.thread trace := by
    rw [place, ← entry]
    exact entry_mem_own (List.mem_append_right _ List.mem_cons_self)
  obtain ⟨row, found, scanned, _⟩ : ∃ row, before.sessions.get? session.id = some row ∧
      session = scanSessionRow session.id row ∧ row.sessionToken = sessionToken := by
    obtain ⟨thread, query, answer⟩ := lookup
    cases entry
    exact sessionByToken_found (Except.ok.inj (perform_read looked).1).symm
  have differs : host.computeTokenMAC secret ≠ session.tokenHash := by
    rw [scanned]
    exact rotated.differs injective distinct run
      (show trace = (later ++ [lookup]) ++ earlier by rw [place]; simp) first found
  have caught : Caught host token (own lookup.thread trace) :=
    (run.post (serve_refreshed host presents) finished).caught
  obtain ⟨rest, checked, ⟨expired, answer, history⟩ | ⟨alive, answer, more, history⟩⟩ :=
    caught sessionToken secret session valid read differs
  · refine absurd expired (live lookup.thread token sessionToken secret session checked presents valid
      read differs ?_)
    rw [history]
    exact List.mem_cons_of_mem _ List.mem_cons_self
  · obtain ⟨later', ⟨thread, query, answer'⟩, earlier', place', same, entry', _, history'⟩ :=
      own_eq_append_cons history
    cases entry'
    have reaches' : Reaches trace s := run.steps
    rw [place'] at reaches'
    obtain ⟨before', after, first', here, _⟩ := reaches'.split
    refine ⟨later', _, earlier', after, place', ?_, same, rfl, .step _ first' here, ?_⟩
    · obtain ⟨lookup', inside, same', entry'⟩ := mem_own.mp
        (show foundSession sessionToken session ∈ own lookup.thread earlier' by
          rw [history']
          exact List.mem_cons_of_mem _ List.mem_cons_self)
      have equal : lookup' = lookup := by
        obtain ⟨_, _, _⟩ := lookup
        obtain ⟨_, _, _⟩ := lookup'
        cases same'
        cases entry'.trans entry.symm
        rfl
      exact equal ▸ inside
    · intro id row' found'
      obtain ⟨_, rfl⟩ := Prod.mk.inj here
      have kept := (Table.get?_delete_eq_some.mp found').2
      simpa using kept

/-- **A refresh token is good for one use**, in every run whose rotations find the hash presented and
in which no refresh that presents a rotated secret finds its session expired. -/
theorem refresh_token_one_time (injective : Function.Injective host.computeTokenMAC)
    (distinct : (drawn drawnSecret trace).Nodup) (run : Serves host reqs trace s current)
    (unchanged : HashUnchanged host reqs trace) (live : NoneExpired host reqs trace) :
    AtMostOnce reqs trace ∧ ReuseRevokes host reqs trace current :=
  ⟨unchanged.atMostOnce injective distinct run, live.reuseRevokes injective distinct run⟩

end Runs

/-! ### Scheduled refreshes -/

/-- The step rotates a session. -/
def rotates (event : Step ι) : Bool :=
  match event with
  | ⟨_, .write (.updateSession _ _ _), .ok rows⟩ => rows != 0
  | _ => false

/-- The step neither reads a later time nor a session that expires earlier. -/
def inTime (t : Instant) (event : Step ι) : Bool :=
  match event with
  | ⟨_, .now, u⟩ => u ≤ t
  | ⟨_, .read (.sessionByToken _), .ok (some session)⟩ => t ≤ session.expiresAt
  | _ => true

section Checks

variable {host : Host} {reqs : ι → Request} {trace : List (Step ι)}

theorem Redeems.rotates {event : Step ι} {secret : List UInt8} (redeems : Redeems reqs event secret) :
    rotates event = true := by
  obtain ⟨_, _, _, _, rows, entry, changed⟩ := redeems
  obtain ⟨thread, query, answer⟩ := event
  cases entry
  exact bne_iff_ne.mpr changed

theorem redeems_of_rotates {event : Step ι} {secret : List UInt8} (here : rotates event = true)
    (presents : (reqs event.thread).PresentsSecret secret) : Redeems reqs event secret := by
  refine ⟨presents, ?_⟩
  unfold Wuflow.rotates at here
  split at here
  · exact ⟨_, _, _, _, rfl, bne_iff_ne.mp here⟩
  · cases here

theorem atMostOnce_of_countP (few : trace.countP rotates ≤ 1) : AtMostOnce reqs trace := by
  intro later second between first earlier secret place redeems redeems'
  rw [place] at few
  simp only [List.countP_append, List.countP_cons, redeems.rotates, redeems'.rotates] at few
  simp only [if_true] at few
  omega

/-- Two rotations in a row for the same secret. -/
theorem not_atMostOnce (i j : ι) {secret : List UInt8}
    (threads : (trace.take 2).map (·.thread) = [i, j]) (both : (trace.take 2).all rotates = true)
    (presents : (reqs i).PresentsSecret secret) (presents' : (reqs j).PresentsSecret secret) :
    ¬ AtMostOnce reqs trace := by
  intro once
  match trace with
  | [] => cases threads
  | [_] => cases threads
  | second :: first :: rest =>
      cases threads
      simp only [List.take_succ_cons, List.take_zero, List.all_cons, List.all_nil, Bool.and_true,
        Bool.and_eq_true] at both
      exact once [] second [] first rest secret rfl (redeems_of_rotates both.2 presents')
        (redeems_of_rotates both.1 presents)

theorem noneExpired_of_inTime [DecidableEq ι] {t : Instant} (timely : trace.all (inTime t) = true) :
    NoneExpired host reqs trace := by
  intro thread token sessionToken secret session checked _ _ read _ clock expired
  obtain ⟨⟨_, _, _⟩, inside, _, entry⟩ := mem_own.mp read
  cases entry
  have late := List.all_eq_true.mp timely _ inside
  obtain ⟨⟨_, _, reading⟩, inside, _, entry⟩ := mem_own.mp clock
  cases entry
  have early := List.all_eq_true.mp timely _ inside
  have late : t ≤ session.expiresAt := of_decide_eq_true late
  have early : reading ≤ t := of_decide_eq_true early
  exact absurd expired (not_lt.mpr (early.trans late))

end Checks

/-- A login and two refreshes with the token it returned. -/
def twoRefreshes : Fin 4 → Request
  | 0 => bootstrap
  | 1 => sampleLogin
  | _ => .refresh "192.0.2.1" (some sampleToken)

theorem twoRefreshes_presents {i : Fin 4} (refresh : 2 ≤ i) :
    (twoRefreshes i).PresentsSecret sampleSecret := by
  refine ⟨sampleToken, sampleSessionToken, ?_, sampleToken_valid⟩
  match i with
  | 2 | 3 => rfl

/-- One refresh after the other. -/
def oneAfterTheOther : List (Fin 4 × Input) :=
  bootstrapMoves 0 ++ loginMoves 1 ++ refreshMoves 2 1 ++ stepsOf 2 1 {} ++ refreshMoves 3 2

/-- The second token is taken for stolen. -/
theorem refresh_token_one_time_reused :
    AtMostOnce twoRefreshes (execute sampleHost twoRefreshes oneAfterTheOther).past ∧
      ReuseRevokes sampleHost twoRefreshes (execute sampleHost twoRefreshes oneAfterTheOther).past
        (execute sampleHost twoRefreshes oneAfterTheOther).current := by
  have run := Serves.of_moves sampleHost twoRefreshes oneAfterTheOther
  have once : AtMostOnce twoRefreshes (execute sampleHost twoRefreshes oneAfterTheOther).past :=
    atMostOnce_of_countP (by decide +kernel)
  exact refresh_token_one_time sampleHost_mac_injective (by decide +kernel) run
    (once.hashUnchanged sampleHost_mac_injective run)
    (noneExpired_of_inTime (show List.all _ (inTime 10) = true by decide +kernel))

/-- Both refreshes read the session before either rotates it. -/
def overtaking : List (Fin 4 × Input) :=
  bootstrapMoves 0 ++ loginMoves 1 ++ refreshMoves 2 1 ++ refreshMoves 3 2 ++ stepsOf 2 1 {} ++
    stepsOf 3 1 {}

/-- **A refresh token redeemed twice.** -/
theorem refresh_token_redeemed_twice :
    ¬ ∀ (host : Host) (reqs : Fin 4 → Request) (trace : List (Step (Fin 4))) (s : Store)
      (current : Fin 4 → Backend Response), Function.Injective host.computeTokenMAC →
      (drawn drawnSecret trace).Nodup → Serves host reqs trace s current →
      AtMostOnce reqs trace ∧ ReuseRevokes host reqs trace current := by
  intro claim
  have once := (claim sampleHost twoRefreshes _ _ _ sampleHost_mac_injective (by decide +kernel)
    (Serves.of_moves sampleHost twoRefreshes overtaking)).1
  exact not_atMostOnce 3 2 (by decide +kernel) (by decide +kernel)
    (twoRefreshes_presents (by decide)) (twoRefreshes_presents (by decide)) once

end Wuflow

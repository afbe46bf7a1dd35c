/-
**The names of a created user are those of an update iff they are clean.**

`handleCreateUser` trims the names; `handleUpdateUser` also removes NUL characters and tags from them. The
two agree about a user (`NamesAgree`) exactly when there is nothing to remove.

* `handleCreateUser_ensures` — what a create that is answered with 201 has stored.
* `sentBack_ensures` — a created user with clean names can be sent back.
* `created_names_agree_iff`, and `created_name_tagged` for a name with tags.
-/

import Wuflow.Invariants.UserUpdates

namespace Wuflow

open Interleave (Prog Run)
open Interleave.Stopping (Ensures)
open Relational (Table)

/-! ### Creating a user -/

/-- **A user is created** from `sent`, as `row`. -/
structure UserCreated (sent : UserRequest) (before : Store) (row : UserRow) (after : Store) : Prop where
  valid : ∃ req, validateUserRequest sent = .ok req ∧ row.email = req.email ∧
    row.firstName = req.firstName ∧ row.lastName = req.lastName ∧ row.role = req.role ∧
    row.active = req.active
  fresh : ∀ key other, before.users.get? key = some other → other.email ≠ row.email
  stored : after = { before with users := before.users.insert row }

section Create

variable {may : Query → Prop} {sem : (query : Query) → Store → query.Answer → Store → Prop} {s : Store}
  {host : Host}

/-- What a request to create a user has done, answered with `response`. -/
def CreateOutcome (body : Body UserRequest) (before : Store) (response : Response) (after : Store) : Prop :=
  (response.status = 201 ∧ ∃ sent row, body = .json sent ∧ UserCreated sent before row after) ∨
  (response.Refused ∧ after = before)

theorem insertUser_fresh {row : UserRow} {rows : Int} {s' : Store}
    (applied : (Write.insertUser row).apply s = .ok (rows, s')) :
    (∀ key other, s.users.get? key = some other → other.email ≠ row.email) ∧
      s' = { s with users := s.users.insert row } := by
  obtain ⟨unique, rest⟩ := require_bind_ok.mp applied
  cases rest
  refine ⟨fun key other found same => ?_, rfl⟩
  have taken : s.users.any (fun _ other => other.email == row.email) = true :=
    Table.any_eq_true_iff.mpr ⟨key, other, found, beq_iff_eq.mpr same⟩
  rw [taken] at unique
  exact nomatch unique

theorem handleCreateUser_ensures (tame : Tame may sem) (body : Body UserRequest) :
    Ensures sem (CreateOutcome body s) (CreateOutcome body s) (handleCreateUser host body) s := by
  have fails : ∀ response, response.Refused → CreateOutcome body s response s :=
    fun _ refused => .inr ⟨refused, rfl⟩
  have refused : ∀ err, (if err = Err.duplicateEmail then httpError "Email already exists" 409
      else internalServerError).Refused := by
    intro err
    by_cases duplicate : err = .duplicateEmail
    · rw [if_pos duplicate]
      decide
    · rw [if_neg duplicate]
      decide
  refine Ensured.decode (fun _ => fails _ (badRequest_refused _)) fun req decoded => ?_
  obtain ⟨sent, rfl, valid⟩ := decoded
  refine Ensured.ensure (fails _ (badRequest_refused _)) fun _ => ?_
  refine setPassword_ensures tame fails fun hash _ => ?_
  refine Ensured.orFail (Ensured.ask tame now_reading fun now => Ensures.bind ?_)
  refine Ensures.adapt (Ensured.exec_end tame (fun err _ => fails _ (refused _)) fun rows s' applied => ?_)
  obtain ⟨fresh, rfl⟩ := insertUser_fresh applied
  exact .inl ⟨rfl, sent, _, rfl, ⟨req, valid, rfl, rfl, rfl, rfl, rfl⟩, fresh, rfl⟩

end Create

/-! ### Sending a user back -/

/-- The request body with the values of a stored user. -/
def sendBack (row : UserRow) : UserRequest :=
  { email := row.email, firstName := row.firstName, lastName := row.lastName, role := row.role,
    active := row.active }

/-- A stored user that passes the checks as it is: nothing is trimmed or sanitised away. -/
structure Returnable (row : UserRow) : Prop where
  email : trimSpace row.email = row.email
  firstTrimmed : trimSpace row.firstName = row.firstName
  lastTrimmed : trimSpace row.lastName = row.lastName
  firstName : sanitizeString row.firstName = row.firstName
  lastName : sanitizeString row.lastName = row.lastName
  checked : checkUserFields row.email row.firstName row.lastName row.role = .ok ()

section SentBack

variable {sem : (query : Query) → Store → query.Answer → Store → Prop} {s : Store} {host : Host}
  {caller : Caller} {id : Int} {row : UserRow}

theorem Returnable.request (returnable : Returnable row) :
    validateUserRequest (sendBack row) = .ok (sendBack row) := by
  have email : trimSpace (sendBack row).email = row.email := returnable.email
  have firstName : trimSpace (sendBack row).firstName = row.firstName := returnable.firstTrimmed
  have lastName : trimSpace (sendBack row).lastName = row.lastName := returnable.lastTrimmed
  unfold validateUserRequest
  rw [email, firstName, lastName]
  show (checkUserFields row.email row.firstName row.lastName row.role >>= fun _ => _) = _
  rw [returnable.checked]
  rfl

theorem Returnable.user (returnable : Returnable row) (id : Int) :
    validateUser { scanUserRow id row with
      email := trimSpace (sendBack row).email, firstName := trimSpace (sendBack row).firstName,
      lastName := trimSpace (sendBack row).lastName, role := (sendBack row).role,
      active := (sendBack row).active } = .ok (scanUserRow id row) := by
  have email : trimSpace (sendBack row).email = row.email := returnable.email
  have firstName : trimSpace (sendBack row).firstName = row.firstName := returnable.firstTrimmed
  have lastName : trimSpace (sendBack row).lastName = row.lastName := returnable.lastTrimmed
  rw [email, firstName, lastName]
  unfold validateUser
  dsimp only
  rw [returnable.email, returnable.firstName, returnable.lastName]
  show (checkUserFields row.email row.firstName row.lastName row.role >>= fun _ => _) = _
  rw [returnable.checked]
  rfl

/-- Nothing has to be confirmed, and nothing is different. -/
theorem Returnable.prepares (returnable : Returnable row) (host : Host) (caller : Caller) (id : Int) :
    validateAndPrepareUserUpdate host caller (scanUserRow id row) (sendBack row) =
      pure (scanUserRow id row, endsSessions (scanUserRow id row) (sendBack row) (scanUserRow id row)) := by
  have unchanged : needsConfirmation (scanUserRow id row) (sendBack row) (scanUserRow id row) = false := by
    simp [needsConfirmation, scanUserRow, sendBack]
  unfold validateAndPrepareUserUpdate
  rw [returnable.user id]
  simp only [unchanged]
  rfl

/-- Writing back the columns of a user succeeds, when no other user has its email. -/
theorem updateUser_back {now : Calendar.Instant} (stored : s.users.get? id = some row)
    (fresh : ∀ key other, s.users.get? key = some other → key ≠ id → other.email ≠ row.email) :
    ∃ rows s', rows ≠ 0 ∧ (Write.updateUser { scanUserRow id row with updatedAt := now }
      (row.role != .sysadmin || !row.active)).apply s = .ok (rows, s') := by
  have selected : s.users.count (fun key other => key == id &&
      !((row.role != .sysadmin || !row.active) && s.lastActiveSysAdmin other)) ≠ 0 := by
    intro none
    have here := Table.count_eq_zero_iff.mp none id row stored
    have spared : ((row.role != .sysadmin || !row.active) && s.lastActiveSysAdmin row) = false := by
      unfold Store.lastActiveSysAdmin bne
      cases row.role == .sysadmin <;> cases row.active <;> rfl
    rw [spared, beq_self_eq_true] at here
    exact nomatch here
  have unique : (s.users.any fun key other => key != id && other.email == row.email) = false := by
    by_contra taken
    obtain ⟨key, other, found, both⟩ := Table.any_eq_true_iff.mp (Bool.eq_true_of_not_eq_false taken)
    obtain ⟨differs, same⟩ := Bool.and_eq_true_iff.mp both
    exact fresh key other found (bne_iff_ne.mp differs) (beq_iff_eq.mp same)
  refine ⟨_, _, selected, require_bind_ok.mpr ⟨?_, rfl⟩⟩
  show (_ || !(s.users.any fun key other => key != id && other.email == row.email)) = true
  rw [unique]
  exact Bool.or_true _

/-- The user is sent back with its own values: they are accepted, and the names stay. -/
def AcceptedBack (id : Int) (row : UserRow) (response : Response) (after : Store) : Prop :=
  response.status = 200 ∧ ∃ row', after.users.get? id = some row' ∧
    row'.firstName = row.firstName ∧ row'.lastName = row.lastName

/-- The wrapper lets a permitted request with a positive id through. -/
theorem withResource_permitted {action : Action} {h : Int → Handler Response}
    {post stop : Response → Store → Prop} (permitted : can caller.role action = true) (positive : 0 < id)
    (next : Ensures sem post stop (h id) s) :
    Ensures sem post stop (withResource caller action (some id) h) s := by
  unfold withResource withRole resourceIDFromPath
  rw [permitted, positive_path positive]
  exact next

/-- A stored user is found. -/
theorem loadUser_found {β : Type} {post : β → Store → Prop} {stop : Response → Store → Prop}
    {f : User → Handler β} (tame : Tame Query.sound sem) (stored : s.users.get? id = some row)
    (next : Ensures sem post stop (f (scanUserRow id row)) s) :
    Ensures sem post stop (loadUser id >>= f) s := by
  have found : Select.eval (.userByID id) s = some (scanUserRow id row) :=
    congrArg (Option.map (scanUserRow id)) stored
  refine Ensures.bind (Ensured.orFail (Ensured.select_end tame False.elim ?_))
  rw [found]
  exact next

/-- Writing a user back succeeds. -/
theorem updateUser_found {β : Type} {post : β → Store → Prop} {stop : Response → Store → Prop}
    {f : User → Handler β} (tame : Tame Query.sound sem) (stored : s.users.get? id = some row)
    (fresh : ∀ key other, s.users.get? key = some other → key ≠ id → other.email ≠ row.email)
    (next : ∀ now s', UserWritten { scanUserRow id row with updatedAt := now } s row s' →
      Ensures sem post stop (f { scanUserRow id row with updatedAt := now }) s') :
    Ensures sem post stop (orFail (updateUser (scanUserRow id row)) userWriteError >>= f) s := by
  refine Ensured.orFail (Ensured.ask tame now_reading fun now => Ensures.bind ?_)
  obtain ⟨rows, s', changed, applied⟩ := @updateUser_back s id row now stored fresh
  refine Ensures.adapt (Ensured.exec_end tame (fun err cause => ?_) fun rows' after applied' => ?_)
  · rcases cause with never | failed
    · exact never.elim
    · exact nomatch applied.symm.trans failed
  · cases applied.symm.trans applied'
    obtain ⟨none, _⟩ | ⟨_, found, wrote⟩ := updateUser_written applied
    · exact absurd none changed
    · cases wrote.stored.symm.trans stored
      unfold userWriteErr
      rw [if_neg changed]
      exact next now _ wrote

theorem sentBack_ensures (tame : Tame Query.sound sem) (returnable : Returnable row)
    (stored : s.users.get? id = some row)
    (fresh : ∀ key other, s.users.get? key = some other → key ≠ id → other.email ≠ row.email)
    (permitted : can caller.role .updateUser = true) :
    Ensures sem (AcceptedBack id row) (AcceptedBack id row)
      (handler host (.updateUser caller (some id) (.json (sendBack row)))) s := by
  refine withResource_permitted permitted (Table.get?_le_seq stored).1 ?_
  have decoded : decodeAndValidate (.json (sendBack row)) validateUserRequest = pure (sendBack row) := by
    unfold decodeAndValidate
    dsimp only
    rw [returnable.request]
  unfold handleUpdateUser
  refine loadUser_found tame stored ?_
  rw [decoded, pure_bind, returnable.prepares, pure_bind]
  refine updateUser_found tame stored fresh fun now s' wrote => ?_
  have accepted : ∀ after : Store, after.users = s'.users →
      AcceptedBack id row { status := 200, payload := .user { scanUserRow id row with updatedAt := now } }
        after := by
    intro after users
    have written : after.users.get? id =
        some (UserRow.setFrom { scanUserRow id row with updatedAt := now } row) :=
      (congrArg (fun users => users.get? id) users).trans wrote.written
    exact ⟨rfl, _, written, rfl, rfl⟩
  split
  · exact revoke_ensures tame (accepted _ rfl) fun never => never.elim
  · exact accepted _ rfl

end SentBack

/-! ### Agreement -/

/-- **The two handlers agree about a created user**: an update with the same names stores the same names,
the user can be sent back as it is, and its names have no tags. -/
structure NamesAgree (host : Host) (caller : Caller) (sent : UserRequest) (id : Int) (row : UserRow)
    (after : Store) : Prop where
  asUpdated : ∀ may admin key update s response s' row', update.firstName = sent.firstName →
    update.lastName = sent.lastName →
    Responds may host s (.updateUser admin (some key) (.json update)) response s' →
    response.status = 200 → s'.users.get? key = some row' →
    row'.firstName = row.firstName ∧ row'.lastName = row.lastName
  sentBack : ∀ response s',
    Responds Query.sound host after (.updateUser caller (some id) (.json (sendBack row))) response s' →
    AcceptedBack id row response s'
  untagged : ¬ HasTag row.firstName.toList ∧ ¬ HasTag row.lastName.toList

/-- An update that is answered with 200 stores sanitised names. -/
theorem updated_names {may : Query → Prop} {host : Host} {admin : Caller} {key : Int} {update : UserRequest}
    {s s' : Store} {response : Response} {row' : UserRow}
    (responds : Responds may host s (.updateUser admin (some key) (.json update)) response s')
    (success : response.status = 200) (stored : s'.users.get? key = some row') :
    row'.firstName = sanitizeString (trimSpace update.firstName) ∧
      row'.lastName = sanitizeString (trimSpace update.lastName) := by
  have refusal : ¬ response.Refused := by
    unfold Response.Refused
    omega
  rcases updateUser_responds responds with ⟨id, path, outcome⟩ | ⟨refused, _⟩
  · cases path
    rcases outcome with ⟨_, sent, row, written, same, committed⟩ | ⟨refused, _⟩
    · cases same
      cases committed.written.symm.trans stored
      exact committed.names
    · exact absurd refused refusal
  · exact absurd refused refusal

/-- A create that is answered with 201 was permitted, and has stored a user. -/
theorem createUser_responds {may : Query → Prop} {host : Host} {before after : Store} {caller : Caller}
    {body : Body UserRequest} {response : Response}
    (responds : Responds may host before (.createUser caller body) response after)
    (accepted : response.status = 201) :
    can caller.role .createUser = true ∧
      ∃ sent row, body = .json sent ∧ UserCreated sent before row after := by
  have outcome : Ensures (Query.tried may)
      (fun response after => (can caller.role .createUser = true ∧ CreateOutcome body before response after) ∨
        response.Refused)
      (fun response after => (can caller.role .createUser = true ∧ CreateOutcome body before response after) ∨
        response.Refused)
      (handler host (.createUser caller body)) before := by
    refine Ensured.ensure (.inr (by decide)) fun permitted => ?_
    exact Ensures.mono (fun _ _ outcome => .inl ⟨permitted, outcome⟩)
      (fun _ _ outcome => .inl ⟨permitted, outcome⟩) (handleCreateUser_ensures (tame_tried may) body)
  have refusal : ¬ response.Refused := by
    unfold Response.Refused
    omega
  rcases responds.ends outcome with ⟨permitted, ⟨_, created⟩ | ⟨refused, _⟩⟩ | refused
  · exact ⟨permitted, created⟩
  · exact absurd refused refusal
  · exact absurd refused refusal

/-- The row that is new is the created user's. -/
theorem UserCreated.only {sent : UserRequest} {before after : Store} {row other : UserRow} {id : Int}
    (created : UserCreated sent before row after) (unknown : before.users.get? id = none)
    (stored : after.users.get? id = some other) : other = row := by
  have inserted : (before.users.insert row).get? id = some other := by
    rw [created.stored] at stored
    exact stored
  rw [Table.get?_insert] at inserted
  by_cases new : id = before.users.seq + 1
  · rw [if_pos new] at inserted
    exact (Option.some.inj inserted).symm
  · rw [if_neg new, unknown] at inserted
    exact nomatch inserted

/-- The stored names are the trimmed ones. -/
theorem UserCreated.names {sent : UserRequest} {before after : Store} {row other : UserRow}
    (created : UserCreated sent before row after) (same : other = row) :
    other.firstName = trimSpace sent.firstName ∧ other.lastName = trimSpace sent.lastName := by
  obtain ⟨req, valid, _, first, last, _, _⟩ := created.valid
  obtain ⟨_, sentFirst, sentLast⟩ := validateUserRequest_texts valid
  rw [same]
  exact ⟨first.trans sentFirst, last.trans sentLast⟩

/-- A created user whose names are clean can be sent back. -/
theorem UserCreated.returnable {sent : UserRequest} {before after : Store} {row : UserRow}
    (created : UserCreated sent before row after) (firstName : CleanText row.firstName)
    (lastName : CleanText row.lastName) : Returnable row := by
  obtain ⟨req, valid, email, first, last, role, active⟩ := created.valid
  obtain ⟨sentEmail, sentFirst, sentLast⟩ := validateUserRequest_texts valid
  have checked : checkUserFields req.email req.firstName req.lastName req.role = .ok () := by
    unfold validateUserRequest at valid
    obtain ⟨_, checked, rest⟩ := bind_ok.mp valid
    cases rest
    exact checked
  have emailTrimmed : trimSpace row.email = row.email := by
    rw [email, sentEmail, trimSpace_trimSpace]
  have firstTrimmed : trimSpace row.firstName = row.firstName := by
    rw [first, sentFirst, trimSpace_trimSpace]
  have lastTrimmed : trimSpace row.lastName = row.lastName := by
    rw [last, sentLast, trimSpace_trimSpace]
  refine
    { email := emailTrimmed, firstTrimmed, lastTrimmed
      firstName := (sanitizeString_eq_self_iff firstTrimmed).mpr firstName
      lastName := (sanitizeString_eq_self_iff lastTrimmed).mpr lastName
      checked := ?_ }
  rw [email, first, last, role]
  exact checked

/-- **The handlers agree about a created user exactly when its names are clean.** -/
theorem created_names_agree_iff {host : Host} {before after : Store} {caller : Caller}
    {body : Body UserRequest} {response : Response}
    (responds : Responds Query.sound host before (.createUser caller body) response after)
    (accepted : response.status = 201) :
    ∃ sent id row, body = .json sent ∧ before.users.get? id = none ∧ after.users.get? id = some row ∧
      (NamesAgree host caller sent id row after ↔
        CleanText (trimSpace sent.firstName) ∧ CleanText (trimSpace sent.lastName)) := by
  obtain ⟨permitted, sent, row, rfl, created⟩ := createUser_responds responds accepted
  obtain ⟨firstName, lastName⟩ := created.names rfl
  have unknown : before.users.get? before.users.nextId = none :=
    Table.get?_eq_none_of_lt (Int.lt_succ before.users.seq)
  have stored : after.users.get? before.users.nextId = some row := by
    rw [created.stored]
    exact Table.get?_insert_self before.users row
  refine ⟨sent, before.users.nextId, row, rfl, unknown, stored, ?_⟩
  rw [← firstName, ← lastName]
  constructor
  · intro agree
    -- sending the user back stores the sanitised names, so these are the names
    obtain ⟨response', s', responds'⟩ := Responds.exists_end Query.sound host after
      (.updateUser caller (some before.users.nextId) (.json (sendBack row)))
    obtain ⟨success, row', written, sameFirst, sameLast⟩ := agree.sentBack _ _ responds'
    obtain ⟨cleanFirst, cleanLast⟩ := updated_names responds' success written
    have trimmedFirst : trimSpace row.firstName = row.firstName := by
      rw [firstName, trimSpace_trimSpace]
    have trimmedLast : trimSpace row.lastName = row.lastName := by
      rw [lastName, trimSpace_trimSpace]
    rw [sameFirst, show (sendBack row).firstName = row.firstName from rfl, trimmedFirst] at cleanFirst
    rw [sameLast, show (sendBack row).lastName = row.lastName from rfl, trimmedLast] at cleanLast
    exact ⟨(sanitizeString_eq_self_iff trimmedFirst).mp cleanFirst.symm,
      (sanitizeString_eq_self_iff trimmedLast).mp cleanLast.symm⟩
  · rintro ⟨cleanFirst, cleanLast⟩
    have returnable := created.returnable cleanFirst cleanLast
    have fresh : ∀ key other, after.users.get? key = some other → key ≠ before.users.nextId →
        other.email ≠ row.email := by
      intro key other found differs
      have differs' : key ≠ before.users.seq + 1 := differs
      have inserted : (before.users.insert row).get? key = some other := by
        rw [created.stored] at found
        exact found
      rw [Table.get?_insert, if_neg differs'] at inserted
      exact created.fresh key other inserted
    refine
      { asUpdated := fun may admin key update s response' s' row' sameFirst sameLast updates success
          written => ?_
        sentBack := fun response' s' updates => updates.ends
          (sentBack_ensures (tame_tried _) returnable stored fresh permitted)
        untagged := ⟨cleanFirst.2, cleanLast.2⟩ }
    obtain ⟨updatedFirst, updatedLast⟩ := updated_names updates success written
    rw [updatedFirst, updatedLast, sameFirst, sameLast, ← firstName, ← lastName]
    exact ⟨returnable.firstName, returnable.lastName⟩

/-- A request for an account with the first name `firstName`. -/
def accountFor (firstName : String) : UserRequest :=
  { email := "bob@example.com", firstName := firstName, lastName := "Builder", role := .user, active := true,
    password := "battery staple 8!" }

/-- The moves of a request that creates an account. -/
def accountMoves : List (Unit × Input) := stepsOf () 12 { instant := 2, text := some "bcrypt:battery staple 8!" }

/-- The database with the new account. -/
def withAccount (firstName : String) : Store :=
  (executeFrom sampleHost withAdmin
    (fun _ => .createUser sampleAdmin (.json (accountFor firstName))) accountMoves).store

/-- The handlers agree about Bob, the second user. -/
theorem created_bob_agrees : ∃ row, (withAccount " Bob ").users.get? 2 = some row ∧ row.firstName = "Bob" ∧
    NamesAgree sampleHost sampleAdmin (accountFor " Bob ") 2 row (withAccount " Bob ") := by
  have done : (answered sampleHost withAdmin (.createUser sampleAdmin (.json (accountFor " Bob ")))
      accountMoves).map Response.status = some 201 := by decide +kernel
  obtain ⟨response, here, success⟩ := Option.map_eq_some_iff.mp done
  obtain ⟨sent, id, row, same, unknown, stored, agree⟩ :=
    created_names_agree_iff (Responds.of_moves Query.sound here) success
  cases same
  have users : (withAccount " Bob ").users.entries.map (fun entry => (entry.1, entry.2.firstName)) =
      [(1, "Admin"), (2, "Bob")] := by decide +kernel
  have among := List.mem_map_of_mem (f := fun entry : Int × UserRow => (entry.1, entry.2.firstName))
    (Table.mem_entries_iff.mpr (show (withAccount " Bob ").users.get? id = some row from stored))
  rw [users] at among
  rcases List.mem_cons.mp among with first | among
  · obtain rfl : id = 1 := congrArg Prod.fst first
    exact absurd unknown (by decide +kernel)
  · have second := List.mem_singleton.mp among
    obtain rfl : id = 2 := congrArg Prod.fst second
    refine ⟨row, stored, congrArg Prod.snd second, agree.mpr ?_⟩
    exact ⟨(sanitizeString_eq_self_iff (by decide +kernel)).mp (by decide +kernel),
      (sanitizeString_eq_self_iff (by decide +kernel)).mp (by decide +kernel)⟩

/-- The handlers do not agree about a name with tags. -/
theorem created_name_tagged : ¬ ∀ (host : Host) (before after : Store) (caller : Caller)
    (body : Body UserRequest) (response : Response),
    Responds Query.sound host before (.createUser caller body) response after → response.status = 201 →
    ∃ sent id row, body = .json sent ∧ before.users.get? id = none ∧ after.users.get? id = some row ∧
      NamesAgree host caller sent id row after := by
  intro agree
  have done : (answered sampleHost withAdmin (.createUser sampleAdmin (.json (accountFor "<b>Bob</b>")))
      accountMoves).map Response.status = some 201 := by decide +kernel
  obtain ⟨response, here, success⟩ := Option.map_eq_some_iff.mp done
  have responds := Responds.of_moves Query.sound here
  obtain ⟨sent, id, row, same, unknown, stored, names⟩ := agree _ _ _ _ _ _ responds success
  cases same
  obtain ⟨_, _, _, same, created⟩ := createUser_responds responds success
  cases same
  obtain ⟨firstName, _⟩ := created.names (created.only unknown stored)
  have tagged : HasTag row.firstName.toList := by
    have kept : trimSpace (accountFor "<b>Bob</b>").firstName = "<b>Bob</b>" := by decide +kernel
    rw [firstName, kept]
    exact ⟨[], ['b'], "Bob</b>".toList, rfl, List.cons_ne_nil _ _, by decide⟩
  exact names.untagged.1 tagged

end Wuflow

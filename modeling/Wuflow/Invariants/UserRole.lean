/-
**What accounts of the role `user` can change.**

`Confined acts t s` — from `t` to `s` no issue enters or leaves `Archive`, none is deleted or changes its
project, the labels, projects, releases and status configs are the same, an account changes at most in
its password, its last login and its time stamp, and only if it `acts`, and a comment is edited or deleted
only if its author `acts`.

`Confined.write` — every write of a request by such an account. The permission table rules out most
requests; a PUT has read an issue that is not archived, and in such a run it still is not; a self update
writes back the profile it has read, and in such a run it is still the profile.

A POST may name the status `Archive` in its body, and then the new issue is archived at once, where a PUT
refuses that status and the archive route is for admins (`user_archives_new_issue`).
-/

import Wuflow.Requests.Sequential

namespace Wuflow

open Calendar (Instant)
open Interleave (Entry Event Run Steps Config place_of_getElem?)
open Relational (Table)

/-! ### Requests by accounts of the role `user` -/

/-- The caller of a request behind the login. -/
def Request.caller : Request → Option Caller
  | .createIssue caller _ _ | .getIssue caller _ _ | .putIssue caller _ _ _ _
  | .putIssuePositions caller _ _ | .archiveIssue caller _ _ | .unarchiveIssue caller _ _
  | .moveIssue caller _ _ _ | .deleteIssue caller _ _ _ | .createTask caller _ _ _
  | .putTask caller _ _ _ _ | .putTaskPositions caller _ _ _ | .deleteTask caller _ _ _
  | .createComment caller _ _ _ | .putComment caller _ _ _ _ | .deleteComment caller _ _ _
  | .createLabel caller _ _ | .deleteLabel caller _ _ _ | .getStatusConfig caller _
  | .updateStatusConfig caller _ _ | .createProject caller _ | .updateProject caller _ _
  | .deleteProject caller _ _ | .createRelease caller _ _ | .getRelease caller _ _
  | .putRelease caller _ _ _ | .deleteRelease caller _ _ _ | .triggerRelease caller _ _ _
  | .reopenRelease caller _ _ | .getUser caller _ | .createUser caller _ | .updateUser caller _ _
  | .deleteUser caller _ _ | .updateSelf caller _ => some caller
  | .login _ _ | .logout _ | .refresh _ _ | .pageLoad _ | .cleanUpSessions
  | .ensureInitialAdmin _ _ => none

/-- The request comes from an account of the role `user`, or it is a login, a refresh or a logout. -/
def Request.OfUser : Request → Prop
  | .login _ _ | .logout _ | .refresh _ _ | .pageLoad _ => True
  | req => ∃ caller, req.caller = some caller ∧ caller.role = .user

/-- The request is an issue POST whose body passes the validator with the status `Archive`. -/
def Request.CreatesArchived (req : Request) : Prop :=
  ∃ caller pId body i, req = .createIssue caller pId body ∧ Decoded body validateIssue i ∧
    i.status = .archive

/-- The account that a request acts for: its caller's, or the one that a login names. -/
def Request.ActsAs (req : Request) (s : Store) (id : Int) : Prop :=
  (∃ caller, req.caller = some caller ∧ caller.userID = id) ∨
    ∃ ip body login row, req = .login ip body ∧ Decoded body validateLoginRequest login ∧
      s.users.get? id = some row ∧ row.email = login.email

/-! ### Confinement -/

/-- An account up to its password, its last login and its time stamp. -/
structure SameIdentity (row row' : UserRow) : Prop where
  email : row'.email = row.email
  firstName : row'.firstName = row.firstName
  lastName : row'.lastName = row.lastName
  role : row'.role = row.role
  active : row'.active = row.active

theorem SameIdentity.refl (row : UserRow) : SameIdentity row row := ⟨rfl, rfl, rfl, rfl, rfl⟩

theorem SameIdentity.trans {a b c : UserRow} (first : SameIdentity a b) (second : SameIdentity b c) :
    SameIdentity a c where
  email := second.email.trans first.email
  firstName := second.firstName.trans first.firstName
  lastName := second.lastName.trans first.lastName
  role := second.role.trans first.role
  active := second.active.trans first.active

/-- An issue up to what accounts of the role `user` may change. -/
structure SamePlace (row row' : IssueRow) : Prop where
  project : row'.projectID = row.projectID
  archived : row'.status = .archive ↔ row.status = .archive

/-- **From `t` to `s` only what accounts of the role `user` may change has changed**, on behalf of the
accounts that `acts`. -/
structure Confined (acts : Int → Prop) (t s : Store) : Prop where
  issues : ∀ id row, t.issues.get? id = some row →
    ∃ row', s.issues.get? id = some row' ∧ SamePlace row row'
  created : ∀ id row', s.issues.get? id = some row' → t.issues.get? id = none → row'.status ≠ .archive
  labels : s.labels = t.labels
  projects : s.projects = t.projects
  releases : s.releases = t.releases
  statusConfig : s.statusConfig = t.statusConfig
  accounts : ∀ id row, t.users.get? id = some row →
    ∃ row', s.users.get? id = some row' ∧ SameIdentity row row' ∧ (¬ acts id → row' = row)
  registered : ∀ id, t.users.get? id = none → s.users.get? id = none
  comments : ∀ id row, t.comments.get? id = some row →
    (∀ author, row.userID = some author → ¬ acts author) → s.comments.get? id = some row

namespace Confined

theorem refl (acts : Int → Prop) (s : Store) : Confined acts s s where
  issues _ row found := ⟨row, found, rfl, Iff.rfl⟩
  created _ _ found none := nomatch found.symm.trans none
  labels := rfl
  projects := rfl
  releases := rfl
  statusConfig := rfl
  accounts _ row found := ⟨row, found, .refl row, fun _ => rfl⟩
  registered _ none := none
  comments _ _ found _ := found

theorem trans {acts : Int → Prop} {a b c : Store} (first : Confined acts a b)
    (second : Confined acts b c) : Confined acts a c where
  issues id row found := by
    obtain ⟨row', found', same⟩ := first.issues id row found
    obtain ⟨row'', found'', same'⟩ := second.issues id row' found'
    exact ⟨row'', found'', same'.project.trans same.project, same'.archived.trans same.archived⟩
  created id row'' found none := by
    cases middle : b.issues.get? id with
    | none => exact second.created id row'' found middle
    | some row' =>
        obtain ⟨_, found', same⟩ := second.issues id row' middle
        cases found.symm.trans found'
        exact fun archived => first.created id row' middle none (same.archived.mp archived)
  labels := second.labels.trans first.labels
  projects := second.projects.trans first.projects
  releases := second.releases.trans first.releases
  statusConfig := second.statusConfig.trans first.statusConfig
  accounts id row found := by
    obtain ⟨row', found', same, others⟩ := first.accounts id row found
    obtain ⟨row'', found'', same', others'⟩ := second.accounts id row' found'
    exact ⟨row'', found'', same.trans same', fun spared => (others' spared).trans (others spared)⟩
  registered id none := second.registered id (first.registered id none)
  comments id row found spared := second.comments id row (first.comments id row found spared) spared

theorem mono {acts more : Int → Prop} {t s : Store} (confined : Confined acts t s)
    (inside : ∀ id, acts id → more id) : Confined more t s :=
  { confined with
    accounts := fun id row found => by
      obtain ⟨row', found', same, others⟩ := confined.accounts id row found
      exact ⟨row', found', same, fun spared => others fun here => spared (inside id here)⟩
    comments := fun id row found spared =>
      confined.comments id row found fun author same here => spared author same (inside author here) }

/-! ### One write -/

section Writes

variable {acts : Int → Prop} {s : Store}

/-- Tasks, history and sessions are not confined. -/
theorem of_others {tasks : Table TaskRow} {history : Table HistoryRow} {sessions : Table SessionRow} :
    Confined acts s { s with tasks, history, sessions } := { refl acts s with }

theorem insertIssue {row : IssueRow} (open_ : row.status ≠ .archive) :
    Confined acts s { s with issues := s.issues.insert row } :=
  { refl acts s with
    issues := fun id old found => ⟨old,
      (Table.get?_insert_of_le _ _ (Table.get?_le_seq found).2).trans found, rfl, Iff.rfl⟩
    created := fun id row' found none => by
      rw [Table.get?_insert] at found
      split at found
      · cases found
        exact open_
      · exact nomatch found.symm.trans none }

theorem updateIssues {selects : Int → IssueRow → Bool} {change : IssueRow → IssueRow}
    (keeps : ∀ id row, s.issues.get? id = some row → selects id row = true →
      SamePlace row (change row)) :
    Confined acts s { s with issues := s.issues.update selects change } :=
  { refl acts s with
    issues := fun id row found => by
      rw [Table.get?_update, found]
      cases chosen : selects id row with
      | true => exact ⟨change row, by simp [chosen], keeps id row found chosen⟩
      | false => exact ⟨row, by simp [chosen], rfl, Iff.rfl⟩
    created := fun id row' found none => by
      rw [Table.get?_update, none] at found
      exact nomatch found }

theorem updateUsers {selects : Int → UserRow → Bool} {change : UserRow → UserRow}
    (keeps : ∀ id row, s.users.get? id = some row → selects id row = true →
      SameIdentity row (change row) ∧ acts id) :
    Confined acts s { s with users := s.users.update selects change } :=
  { refl acts s with
    accounts := fun id row found => by
      rw [Table.get?_update, found]
      cases chosen : selects id row with
      | true =>
          obtain ⟨same, here⟩ := keeps id row found chosen
          exact ⟨change row, by simp [chosen], same, fun spared => absurd here spared⟩
      | false => exact ⟨row, by simp [chosen], .refl row, fun _ => rfl⟩
    registered := fun id none => by
      rw [Table.get?_update, none]
      rfl }

theorem updateComments {selects : Int → CommentRow → Bool} {change : CommentRow → CommentRow}
    (own : ∀ id row, selects id row = true → ∃ author, row.userID = some author ∧ acts author) :
    Confined acts s { s with comments := s.comments.update selects change } :=
  { refl acts s with
    comments := fun id row found spared => by
      rw [Table.get?_update, found]
      cases chosen : selects id row with
      | false => simp [chosen]
      | true =>
          obtain ⟨author, same, here⟩ := own id row chosen
          exact absurd here (spared author same) }

theorem deleteComments {selects : Int → CommentRow → Bool}
    (own : ∀ id row, selects id row = true → ∃ author, row.userID = some author ∧ acts author) :
    Confined acts s { s with comments := s.comments.delete selects } :=
  { refl acts s with
    comments := fun id row found spared => by
      refine Table.get?_delete_eq_some.mpr ⟨found, Bool.eq_false_iff.mpr fun chosen => ?_⟩
      obtain ⟨author, same, here⟩ := own id row chosen
      exact spared author same here }

theorem reorder {scope : IssueRow → Bool} {notFound : Err} {updates : List PositionUpdate}
    {issues : Table IssueRow}
    (moved : applyPositionUpdates scope IssueRow.setPosition notFound updates s.issues = .ok issues) :
    Confined acts s { s with issues } := by
  induction updates generalizing s with
  | nil =>
      cases moved
      exact refl acts s
  | cons u updates ih =>
      obtain ⟨_, rest⟩ := require_bind_ok.mp moved
      have first : Confined acts s { s with
          issues := s.issues.update (fun id row => id == u.id && scope row)
            (IssueRow.setPosition u.position) } := updateIssues fun _ _ _ _ => ⟨rfl, Iff.rfl⟩
      exact first.trans (ih rest)

end Writes

end Confined

/-! ### The writes of a user -/

section Requests

variable {host : Host} {req : Request} {past : Past} {s s' : Store} {rows : Int} {w : Write}

theorem Request.OfUser.role (user : req.OfUser) {caller : Caller} (same : req.caller = some caller) :
    caller.role = .user := by
  unfold Request.OfUser at user
  split at user
  · cases same
  · cases same
  · cases same
  · cases same
  · obtain ⟨_, here, role⟩ := user
    cases same.symm.trans here
    exact role

/-- A user may not do what the permission table reserves to admins. -/
theorem Request.OfUser.refuses (user : req.OfUser) {caller : Caller} (same : req.caller = some caller)
    {action : Action} (reserved : can .user action = false) : can caller.role action ≠ true := by
  rw [user.role same, reserved]
  exact nofun

/-- A user edits and deletes own comments only. -/
theorem Request.OfUser.authors (user : req.OfUser) {caller : Caller} (same : req.caller = some caller)
    {row : CommentRow} (authored : row.authoredBy (commentAuthorFilter caller) = true) :
    ∃ author, row.userID = some author ∧ req.ActsAs s author := by
  have filter : commentAuthorFilter caller = some caller.userID := by
    unfold commentAuthorFilter
    rw [user.role same]
    rfl
  rw [filter] at authored
  exact ⟨caller.userID, beq_iff_eq.mp authored, .inl ⟨caller, same, rfl⟩⟩

/-- The issue of the path, found not archived, has stayed where it was. -/
theorem Witnessed.same_place
    (witnessed : Witnessed (fun t => Confined (fun _ => True) t s) past s) {id projectID : Int}
    {issue : Issue} (loaded : LoadedIssue past id projectID issue) {row : IssueRow}
    (found : s.issues.get? id = some row) :
    row.projectID = projectID ∧ (row.status = .archive ↔ issue.status = .archive) := by
  obtain ⟨t, old, tasks, confined, _, here, inside, rfl⟩ := witnessed.issue loaded
  obtain ⟨row', found', same⟩ := confined.issues id old here
  cases found.symm.trans found'
  exact ⟨same.project.trans inside, same.archived⟩

/-- The account that was found under an email address still has it. -/
theorem Witnessed.user_by_email
    (witnessed : Witnessed (fun t => Confined (fun _ => True) t s) past s) {email : String} {user : User}
    (found : (⟨.read (.userByEmail email), .ok (some user)⟩ : Entry Query.Answer) ∈ past) :
    ∃ row, s.users.get? user.id = some row ∧ row.email = email := by
  obtain ⟨t, t', confined, performed, _⟩ := witnessed _ found
  obtain ⟨answer, rfl⟩ := perform_read performed
  obtain ⟨⟨id, old⟩, first, rfl⟩ := Option.map_eq_some_iff.mp (Except.ok.inj answer).symm
  have named := List.find?_some first
  have here : t'.users.get? id = some old :=
    Table.mem_entries_iff.mp (List.mem_of_find?_eq_some first)
  obtain ⟨row, found', same, _⟩ := confined.accounts id old here
  exact ⟨row, found', same.email.trans (beq_iff_eq.mp named)⟩

/-- A self update writes the profile that the account still has. -/
theorem Confined.updateSelf {caller : Caller} {body : Body UserRequest} {u : User} {removes : Bool}
    (disciplined : Discipline host (.updateSelf caller body) past (.write (.updateUser u removes)))
    (witnessed : Witnessed (fun t => Confined (fun _ => True) t s) past s)
    (applied : (Write.updateUser u removes).apply s = .ok (rows, s')) :
    Confined (fun id => (Request.updateSelf caller body).ActsAs s id) s s' := by
  obtain ⟨_, rest⟩ := require_bind_ok.mp applied
  cases rest
  obtain ⟨id, existing, ⟨more, rfl, _⟩, same, self, _⟩ := disciplined.2.loaded
  obtain ⟨rfl, profile⟩ := self caller body rfl
  obtain ⟨t, t', confined, performed, _⟩ :=
    witnessed ⟨.read (.userByID caller.userID), .ok (some existing)⟩ (by simp)
  obtain ⟨answer, rfl⟩ := perform_read performed
  obtain ⟨old, here, rfl⟩ := Option.map_eq_some_iff.mp (Except.ok.inj answer).symm
  refine Confined.updateUsers fun key row found chosen => ?_
  rw [Bool.and_eq_true, beq_iff_eq] at chosen
  obtain rfl : caller.userID = key := same.trans chosen.1.symm
  obtain ⟨row', found', account, _⟩ := confined.accounts _ old here
  cases found.symm.trans found'
  exact
    ⟨{ email := profile.email.trans account.email.symm
       firstName := profile.firstName.trans account.firstName.symm
       lastName := profile.lastName.trans account.lastName.symm
       role := profile.role.trans account.role.symm
       active := profile.active.trans account.active.symm },
      .inl ⟨caller, rfl, rfl⟩⟩

/-- **One write of a request** of an account of the role `user`. -/
theorem Confined.write (user : req.OfUser) (opens : ¬ req.CreatesArchived)
    (sanctioned : Sanctioned host req past w) (disciplined : Discipline host req past (.write w))
    (witnessed : Witnessed (fun t => Confined (fun _ => True) t s) past s)
    (applied : w.apply s = .ok (rows, s')) : Confined (req.ActsAs s) s s' := by
  cases sanctioned with
  -- issues
  | createIssue unwritten entered decoded last =>
      obtain ⟨_, rest⟩ := require_bind_ok.mp applied
      cases rest
      exact .insertIssue fun archived => opens ⟨_, _, _, _, rfl, decoded, archived⟩
  | createdHistory | editHistory | history =>
      obtain ⟨_, rest⟩ := require_bind_ok.mp applied
      cases rest
      exact .of_others
  | putIssue unwritten entered accepted changed =>
      obtain ⟨_, rest⟩ := require_bind_ok.mp applied
      cases rest
      obtain ⟨sent, _, rfl⟩ := accepted.sent
      refine .updateIssues fun key row found chosen => ?_
      rw [beq_iff_eq] at chosen
      subst chosen
      obtain ⟨inside, status⟩ := witnessed.same_place accepted.loaded found
      exact ⟨inside.symm, iff_of_false accepted.kept fun here => accepted.writable (status.mp here)⟩
  | putIssuePosition =>
      cases applied
      exact .updateIssues fun _ _ _ _ => ⟨rfl, Iff.rfl⟩
  | putIssuePositions unwritten entered decoded =>
      obtain ⟨issues, rfl, moved⟩ := updateIssuePositions_cases applied
      exact .reorder moved
  | archiveIssue _ entered | unarchiveIssue _ entered | moveIssue _ entered | deleteIssue _ entered
  | createLabel _ entered | deleteLabel _ entered | updateStatusConfig _ entered
  | updateProject _ entered | deleteProject _ entered | createRelease _ entered
  | putRelease _ entered | deleteRelease _ entered | triggerRelease _ entered | archiveDone entered
  | reopenRelease _ entered =>
      exact absurd entered.permitted (user.refuses rfl (by decide))
  -- tasks and comments
  | createTask =>
      obtain ⟨_, rest⟩ := require_bind_ok.mp applied
      cases rest
      exact .of_others
  | putTask | deleteTask =>
      cases applied
      exact .of_others
  | putTaskPositions =>
      obtain ⟨tasks, _, rest⟩ := bind_ok.mp applied
      cases rest
      exact .of_others
  | createComment =>
      obtain ⟨_, rest⟩ := require_bind_ok.mp applied
      cases rest
      exact { Confined.refl _ s with
        comments := fun id row found _ =>
          (Table.get?_insert_of_le _ _ (Table.get?_le_seq found).2).trans found }
  | putComment =>
      cases applied
      refine .updateComments fun key row chosen => ?_
      exact user.authors rfl (Bool.and_eq_true_iff.mp chosen).2
  | deleteComment =>
      cases applied
      refine .deleteComments fun key row chosen => ?_
      exact user.authors rfl (Bool.and_eq_true_iff.mp chosen).2
  -- projects and accounts
  | createProject _ permitted | seedStatusConfig permitted | createUser permitted
  | updateUser permitted | deleteUser permitted =>
      exact absurd permitted (user.refuses rfl (by decide))
  | updateSelf => exact .updateSelf disciplined witnessed applied
  | lastLogin decoded found checked =>
      cases applied
      refine .updateUsers fun key row here chosen => ⟨⟨rfl, rfl, rfl, rfl, rfl⟩, .inr ?_⟩
      rw [beq_iff_eq] at chosen
      subst chosen
      obtain ⟨row', here', email⟩ := witnessed.user_by_email found
      cases here.symm.trans here'
      exact ⟨_, _, _, row, rfl, decoded, here, email⟩
  | firstUser => exact nomatch user
  | session sessions =>
      obtain ⟨_, rfl⟩ := sessions.alone applied
      exact .of_others

end Requests

/-! ### Runs -/

section Runs

variable {ι : Type} [DecidableEq ι] {host : Host} {start s : Store} {reqs : ι → Request}
  {later earlier : List (Step ι)} {event : Step ι} {current : ι → Backend Response}

/-- **Confinement of the role `user`.** In every run of requests by accounts of this role, of logins,
refreshes and logouts, in which no issue is posted as archived, every step is confined to its request. -/
theorem user_confined (users : ∀ i, (reqs i).OfUser) (opens : ∀ i, ¬ (reqs i).CreatesArchived)
    (run : ServesFrom host start reqs (later ++ event :: earlier) s current) :
    Around host start reqs later event earlier s fun before after =>
      Confined ((reqs event.thread).ActsAs before) before after := by
  obtain ⟨before, pool, after, run', here, between⟩ := run.split
  refine ⟨before, pool, after, run', here, between, ?_⟩
  rcases perform_cases here with ⟨w, rows, same, applied⟩ | ⟨rfl, _⟩
  · have disciplined := run.disciplined
    have allowed := run.allowed
    have witnessed := ServesFrom.witnessed run' (Confined fun _ => True) (Confined.refl _)
      (fun _ _ _ => Confined.trans) (fun thread w rows past before after sanctioned disciplined
        witnessed applied => (Confined.write (users thread) (opens thread) sanctioned disciplined
          witnessed applied).mono fun _ _ => trivial) event.thread
    obtain ⟨thread, query, answer⟩ := event
    cases same
    exact .write (users thread) (opens thread) allowed disciplined witnessed applied
  · exact .refl _ _

end Runs

/-! ### An issue posted as archived -/

/-- A new archived issue is not confined. -/
theorem Confined.not_insert_archived {acts : Int → Prop} {row : IssueRow} {rows : Int} {s s' : Store}
    (applied : (Write.insertIssue row).apply s = .ok (rows, s')) (archived : row.status = .archive) :
    ¬ Confined acts s s' := by
  intro confined
  obtain ⟨_, rest⟩ := require_bind_ok.mp applied
  cases rest
  exact confined.created (s.issues.seq + 1) row (Table.get?_insert_self _ _)
    (Table.get?_eq_none_of_lt (by omega)) archived

def sampleUser : Caller := ⟨2, "ann@example.com", .user⟩

/-- The first admin adds an account of the role `user`. -/
def withUser : List (Request × List (Unit × Input)) :=
  [(.createUser sampleAdmin (.json
      { email := "ann@example.com", firstName := "Ann", lastName := "Lee",
        password := "battery staple 8!", role := .user, active := true }),
      stepsOf () 20 { instant := 2, text := some "bcrypt:battery staple 8!" }),
    (bootstrap, stepsOf () 9 { instant := 1, text := some "bcrypt:correct horse 7!" })]

/-- This account posts an issue with the given status. -/
def userPosts (status : IssueStatus) : Unit → Request :=
  fun _ => .createIssue sampleUser (some 1) (.json { title := "Crash", status })

theorem userPosts_ofUser (status : IssueStatus) (i : Unit) : (userPosts status i).OfUser :=
  ⟨sampleUser, rfl, rfl⟩

/-- The POST up to the insert. -/
def posted (status : IssueStatus) : Config Unit Query.Answer Store Response :=
  executeFrom sampleHost (executeAll sampleHost createTables withUser) (userPosts status)
    (stepsOf () 4 { instant := 3 })

/-- The insert of the POST. -/
def postedInsert (status : IssueStatus) : Step Unit :=
  ⟨(), .write (.insertIssue
    { title := "Crash", description := "", status, position := 1, deadline := none,
      plannedDates := none, priority := .normal, labelID := none, assigneeID := none,
      updatedBy := some 2, projectID := 1, releaseID := none, updatedAt := 3, creatorID := some 2 }),
    .ok 1⟩

theorem posted_run {status : IssueStatus}
    (last : (posted status).past[0]? = some (postedInsert status)) :
    ServesFrom sampleHost (executeAll sampleHost createTables withUser) (userPosts status)
      ([] ++ postedInsert status :: (posted status).past.drop 1) (posted status).store
      (posted status).current := by
  have run := ServesFrom.of_moves sampleHost (executeAll sampleHost createTables withUser)
    (userPosts status) (stepsOf () 4 { instant := 3 })
  have place : (posted status).past = [] ++ postedInsert status :: (posted status).past.drop 1 :=
    place_of_getElem? last
  exact place ▸ run

theorem user_confined_todo :
    Around sampleHost (executeAll sampleHost createTables withUser) (userPosts .todo) []
      (postedInsert .todo) ((posted .todo).past.drop 1) (posted .todo).store
      fun before after => Confined ((userPosts .todo ()).ActsAs before) before after := by
  refine user_confined (userPosts_ofUser .todo) (fun _ => ?_)
    (posted_run (by decide +kernel))
  rintro ⟨_, _, _, i, same, ⟨sent, decoded, valid⟩, archived⟩
  cases same
  cases decoded
  have accepted : validateIssue { title := "Crash", status := .todo } =
      .ok { title := "Crash", status := .todo } := by decide +kernel
  cases accepted.symm.trans valid
  exact nomatch archived

/-- **A user puts an issue into the archive.** -/
theorem user_archives_new_issue :
    ¬ ∀ (host : Host) (setup : List Request) (start s : Store) (reqs : Unit → Request)
      (later earlier : List (Step Unit)) (event : Step Unit) (current : Unit → Backend Response),
      Sequential host createTables setup start → (∀ i, (reqs i).OfUser) →
      ServesFrom host start reqs (later ++ event :: earlier) s current →
      Around host start reqs later event earlier s fun before after =>
        Confined ((reqs event.thread).ActsAs before) before after := by
  intro claim
  obtain ⟨before, _, after, _, here, _, confined⟩ := claim _ _ _ _ _ [] _ _ _
    (Sequential.of_moves sampleHost createTables withUser) (userPosts_ofUser .archive)
    (posted_run (show (posted .archive).past[0]? = some (postedInsert .archive) by decide +kernel))
  exact Confined.not_insert_archived (Write.apply_of_ok here) rfl confined

end Wuflow

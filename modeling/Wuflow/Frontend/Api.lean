/-
**Issue lists through the real fetchers** (`api.js` under `issue-lists.js`).

`authFetch` repeats a read once after a network error, renews the session on 401 and replaces a 429. The
fetchers of the issue lists catch everything and return `[]`, so the cache never sees a failure.

* `fetchIssues_failed` — what a fetcher returns when its fetch fails.
* `failed_fetch` — a failed fetch leaves the active issues and the next attempt alone exactly when it is a
  superseded one, or one of the active issues while there are none.
* `active_issues_wiped` — a load that fails offline empties the board.
-/

import Wuflow.Frontend.IssueLists

namespace Wuflow.Api

/-! ### Requests -/

def apiURL : String := "/api"

/-- A response. `json` is what its body holds as JSON, nothing when it is no JSON (or cut off); the
texts that come with an error status are none. -/
structure Response (α : Type) where
  status : Nat
  json : Option (Option α)
  errorText : ¬ (200 ≤ status ∧ status ≤ 299) → json = none

def Response.ok {α : Type} (res : Response α) : Bool := 200 ≤ res.status && res.status ≤ 299

/-- What `fetch` comes to: a response, or none (offline, DNS, timeout). -/
inductive Fetched (α : Type)
  | failed
  | response (res : Response α)

/-- What is thrown: a `NetworkError`, or what the session-expired handler rejects with. -/
inductive Thrown
  | networkError
  | handlerError
  deriving DecidableEq

def gatewayErrorStatuses : List Nat := [502, 503, 504]

/-- What the requests behind one `authFetch` come to: the request, its repetition after a network error,
the refresh of the session, the handler that waits for a login (if there is one), and the replay. -/
structure Exchanges (α : Type) where
  first : Fetched α
  again : Fetched α
  refresh : Fetched Unit
  sessionExpiredHandler : Option (Except Thrown Unit)
  replay : Fetched α

section Requests

variable {α : Type}

def rawFetch : Fetched α → Except Thrown (Response α)
  | .failed => .error .networkError
  | .response res => if res.status ∈ gatewayErrorStatuses then .error .networkError else .ok res

def renewSession (e : Exchanges α) : Except Thrown Bool := do
  let res ← rawFetch e.refresh
  if res.ok then
    return true
  match e.sessionExpiredHandler with
  | some loggedIn =>
      loggedIn
      return true
  | none => return false

def tooManyRequests : Response α where
  status := 429
  json := none
  errorText := fun _ => rfl

def authFetch (isRead : Bool) (e : Exchanges α) : Except Thrown (Response α) := do
  let res ← match rawFetch e.first with
    | .ok res => .ok res
    | .error err => if !isRead || err != .networkError then .error err else rawFetch e.again
  let res ← if res.status = 401 then do
      if ← renewSession e then rawFetch e.replay else .ok res
    else .ok res
  if res.status = 429 then
    return tooManyRequests
  return res

/-- A fetch failed: a network error, or an answer other than 2xx or without a readable body. -/
def Failed : Except Thrown (Response α) → Prop
  | .error _ => True
  | .ok res => res.ok = false ∨ res.json = none

end Requests

/-! ### The fetchers -/

/-- The template literal `${projectId}`. -/
def idText : Option Int → String
  | some id => toString id
  | none => "null"

abbrev Network := String → Exchanges (List Issue)

def fetchIssues (network : Network) (url : String) : List Issue :=
  match authFetch true (network url) with
  | .ok res =>
      match res.json with
      | some data => data.getD []
      | none => []
  | .error _ => []

def activeIssuesURL (projectId : Option Int) : String :=
  apiURL ++ "/projects/" ++ idText projectId ++ "/issues/active"

def archivedIssuesURL (projectId : Option Int) : String :=
  apiURL ++ "/projects/" ++ idText projectId ++ "/issues/archived"

def openIssuesURL (projectId : Option Int) : String :=
  apiURL ++ "/projects/" ++ idText projectId ++ "/issues/open"

def fetchActiveIssuesByProject (network : Network) (projectId : Option Int) : List Issue :=
  fetchIssues network (activeIssuesURL projectId)

def fetchArchivedIssuesByProject (network : Network) (projectId : Option Int) : List Issue :=
  fetchIssues network (archivedIssuesURL projectId)

def fetchOpenIssuesByProject (network : Network) (projectId : Option Int) : List Issue :=
  fetchIssues network (openIssuesURL projectId)

/-- **A fetcher never rejects**: a failed fetch is an empty list. -/
theorem fetchIssues_failed {network : Network} {url : String}
    (failed : Failed (authFetch true (network url))) : fetchIssues network url = [] := by
  unfold fetchIssues
  cases fetched : authFetch true (network url) with
  | error err => rfl
  | ok res =>
      rw [fetched] at failed
      have unreadable : res.json = none := by
        rcases failed with error | unreadable
        · refine res.errorText fun ok => ?_
          unfold Response.ok at error
          simp [ok] at error
        · exact unreadable
      simp only [unreadable]

/-- Offline: no request reaches the server. -/
def offline : Network := fun _ =>
  { first := .failed, again := .failed, refresh := .failed, sessionExpiredHandler := none
    replay := .failed }

end Wuflow.Api

namespace Wuflow.IssueLists

open Api
open EventLoop (Machine Move Step Run mem_pending)

/-! ### The cache over the fetchers -/

def listFetchers : ListKind → Network → Option Int → List Issue
  | .open => fetchOpenIssuesByProject
  | .archived => fetchArchivedIssuesByProject

/-- What arrives: the requests of a fetch have come to an end, or the active issues have settled. -/
inductive Arrival
  | fetched (network : Network)
  | settled

/-- The issue lists with what the fetchers of `api.js` return. -/
def listsThroughApi : Machine Cache Call Task Arrival where
  call c s := some (s.call c)
  resume t a s :=
    match t, a with
    | .active _ project, .fetched network =>
        s.resume t (.issues (fetchActiveIssuesByProject network project))
    | .list _ kind _ project, .fetched network =>
        s.resume t (.issues (listFetchers kind network project))
    | .merge _ _ _, .settled => s.resume t .settled
    | _, _ => none

/-- The fetch of the task failed. -/
def FetchFails (network : Network) : Task → Prop
  | .active _ project => Failed (authFetch true (network (activeIssuesURL project)))
  | .list _ .open _ project => Failed (authFetch true (network (openIssuesURL project)))
  | .list _ .archived _ project => Failed (authFetch true (network (archivedIssuesURL project)))
  | .merge _ _ _ => False

/-- An active issue, neither open nor archived. -/
def IsActive (issue : Issue) : Prop := issue.status ≠ .open ∧ issue.status ≠ .archive

/-- The next `ensureIssueLists` for the list fetches it, unless another fetch of it than the given one has
been started meanwhile. -/
def FetchesAgain (s : Cache) (kind : ListKind) (promise : Nat) : Prop :=
  ∀ kinds, kind ∈ kinds →
    (∃ next project, .list s.generation kind next project ∈ (s.ensureIssueLists kinds).2) ∨
      ∃ other, s.lists kind = some other ∧ other ≠ promise

/-- **A failure that does no harm**: the active issues are kept, and a list that failed is fetched
again. -/
structure Harmless (s : Cache) (t : Task) (s' : Cache) : Prop where
  kept : ∀ issue ∈ s.issues, IsActive issue → issue ∈ s'.issues
  again : ∀ gen kind promise project, t = .list gen kind promise project →
    FetchesAgain s' kind promise

/-- The failed fetch cannot do harm: it is of a superseded load, or one of the active issues while there
are none. -/
def Immaterial (s : Cache) (t : Task) : Prop :=
  t.gen ≠ s.generation ∨
    (∃ gen project, t = .active gen project) ∧ ∀ issue ∈ s.issues, ¬ IsActive issue

/-- The fetch of a list is the cached one exactly when it is of the latest generation. -/
def Joined (s : Cache) : Task → Prop
  | .list gen kind promise _ =>
      gen ≤ s.generation ∧ promise < s.promises ∧ (s.lists kind = some promise ↔ gen = s.generation)
  | _ => True

section Steps

variable {s s' : Cache} {new : List Task}

/-- A list that is not cached is fetched. -/
theorem Ensured.fetches {kinds : List ListKind} (ensured : Ensured s kinds s' new) {kind : ListKind}
    (absent : s.lists kind = none) (listed : kind ∈ kinds) :
    ∃ promise project, .list s.generation kind promise project ∈ new := by
  have once := ensured.once kind
  rw [absent, if_pos ⟨rfl, listed⟩] at once
  have some_ : 0 < new.countP (Task.isFor s.generation kind) := once ▸ Nat.one_pos
  obtain ⟨t, member, is_⟩ := List.countP_pos_iff.mp some_
  obtain ⟨other, promise, _, rfl⟩ := ensured.new t member
  have same : other = kind := beq_iff_eq.mp (Bool.and_eq_true_iff.mp is_).2
  subst same
  exact ⟨promise, _, member⟩

/-- A list is fetched again exactly when the given fetch is not the cached one. -/
theorem fetchesAgain_iff {kind : ListKind} {promise : Nat} :
    FetchesAgain s kind promise ↔ s.lists kind ≠ some promise := by
  constructor
  · intro again cached
    rcases again [kind] (List.mem_singleton.mpr rfl) with ⟨next, project, member⟩ | ⟨other, found, differs⟩
    · have ensured := ensureIssueLists_ensured s [kind]
      have once := ensured.once kind
      rw [cached, if_neg (fun both => nomatch both.1), List.countP_eq_zero] at once
      exact once _ member (Bool.and_eq_true_iff.mpr ⟨beq_iff_eq.mpr rfl, beq_iff_eq.mpr rfl⟩)
    · exact differs (Option.some.inj (found.symm.trans cached))
  · intro uncached kinds listed
    cases cached : s.lists kind with
    | none => exact .inl (Ensured.fetches (ensureIssueLists_ensured s kinds) cached listed)
    | some other => exact .inr ⟨other, rfl, fun same => uncached (cached.trans (same ▸ rfl))⟩

/-- Requesting lists keeps which fetches are cached. -/
theorem Joined.ensure {kinds : List ListKind} (ensured : Ensured s kinds s' new) {t : Task}
    (joined : Joined s t) : Joined s' t := by
  cases t with
  | active gen project => trivial
  | merge gen kind issues => trivial
  | list gen kind promise project =>
      obtain ⟨old, below, cached⟩ := joined
      refine ⟨ensured.generation ▸ old, lt_of_lt_of_le below ensured.promises, ?_⟩
      rw [ensured.generation, ← cached]
      refine ⟨fun found => ?_, ensured.kept kind promise⟩
      rcases ensured.cached kind promise found with before | above
      · exact before
      · exact absurd below (Nat.not_lt.mpr above)

theorem joined_new {kinds : List ListKind} (ensured : Ensured s kinds s' new) :
    ∀ t ∈ new, Joined s' t := by
  intro t member
  obtain ⟨kind, promise, below, rfl⟩ := ensured.new t member
  have generation := ensured.generation
  exact ⟨le_of_eq generation.symm, below, fun _ => generation.symm,
    fun _ => ensured.joined _ _ _ _ member⟩

/-- A load drops the cached fetches. -/
theorem joined_load {kinds : List ListKind} (loads : Loads s kinds s' new) :
    (∀ t, Joined s t → Joined s' t) ∧ ∀ t ∈ new, Joined s' t := by
  obtain ⟨next, listed, ensured, generation, lists, _, _, promises, rfl⟩ := loads.new
  constructor
  · intro t joined
    refine Joined.ensure ensured ?_
    cases t with
    | active gen project => trivial
    | merge gen kind issues => trivial
    | list gen kind promise project =>
        obtain ⟨old, below, _⟩ := joined
        refine ⟨by omega, by omega, fun found => ?_, fun same => ?_⟩
        · rw [lists] at found
          exact nomatch found
        · omega
  · intro t member
    rcases List.mem_cons.mp member with rfl | member
    · trivial
    · exact joined_new ensured t member

end Steps

/-- A cache with some issues, before the first load. -/
def holding (issues : List Issue) (project : Option Int) : Cache := { issues, selectedProjectId := project }

/-- What an arrival does to the cache. -/
theorem arrival_cases {s s' : Cache} {t : Task} {a : Arrival} {new : List Task}
    (acts : listsThroughApi.resume t a s = some (s', new)) :
    (∃ answer, answer ≠ .failed ∧ issueLists.resume t answer s = some (s', new)) ∧
      ∀ network, a = .fetched network → FetchFails network t →
        issueLists.resume t (.issues []) s = some (s', new) := by
  cases t with
  | active gen project =>
      cases a with
      | settled => exact nomatch acts
      | fetched network =>
          refine ⟨⟨.issues (fetchActiveIssuesByProject network project), nofun, acts⟩,
            fun _ same fails => ?_⟩
          cases same
          have none : fetchActiveIssuesByProject network project = [] := fetchIssues_failed fails
          rw [← none]
          exact acts
  | list gen kind promise project =>
      cases a with
      | settled => exact nomatch acts
      | fetched network =>
          refine ⟨⟨.issues (listFetchers kind network project), nofun, acts⟩,
            fun _ same fails => ?_⟩
          cases same
          have none : listFetchers kind network project = [] := by
            cases kind with
            | «open» => exact fetchIssues_failed fails
            | archived => exact fetchIssues_failed fails
          rw [← none]
          exact acts
  | merge gen kind issues =>
      cases a with
      | settled => exact ⟨⟨.settled, nofun, acts⟩, nofun⟩
      | fetched network => exact nomatch acts

/-- Every run keeps which fetches are cached: no fetch is ever seen to fail. -/
theorem joined {issues : List Issue} {project : Option Int} {past : List (Move Call Task Arrival)}
    {s : Cache} {pending : List Task}
    (run : Run listsThroughApi (fun _ _ _ => True) (holding issues project) past s pending) :
    ∀ t ∈ pending, Joined s t := by
  refine (run.keeps (fun _ => True) Joined trivial ?_ ?_).2
  · intro s pending c s' new _ acts _ _
    rcases call_cases acts with ⟨kinds, _, loads⟩ | ⟨kinds, _, ensured⟩
    · exact ⟨trivial, (joined_load loads).2, (joined_load loads).1⟩
    · exact ⟨trivial, joined_new ensured, fun _ => Joined.ensure ensured⟩
  · intro s pending t a s' new _ acts _ _ _
    obtain ⟨⟨answer, fulfilled, resumes⟩, _⟩ := arrival_cases acts
    have none : ∀ u ∈ ([] : List Task), Joined s u := fun _ member => absurd member List.not_mem_nil
    cases resume_cases resumes with
    | loaded project issues => exact ⟨trivial, none, fun u => by cases u <;> exact id⟩
    | superseded project issues late => exact ⟨trivial, none, fun u => by cases u <;> exact id⟩
    | unloaded gen project => exact absurd rfl fulfilled
    | arrived gen kind promise project issues =>
        refine ⟨trivial, fun u member => ?_, fun _ => id⟩
        rw [List.mem_singleton.mp member]
        trivial
    | dropped project cached => exact absurd rfl fulfilled
    | forgotten project cached => exact absurd rfl fulfilled
    | merged kind issues settled => exact ⟨trivial, none, fun u => by cases u <;> exact id⟩
    | discarded kind issues late => exact ⟨trivial, none, fun _ => id⟩

/-- **Which failed fetches do no harm**, in every reachable state. -/
theorem failed_fetch (issues : List Issue) (project : Option Int) (past : List (Move Call Task Arrival))
    (s s' : Cache) (pending new : List Task) (t : Task) (network : Network)
    (run : Run listsThroughApi (fun _ _ _ => True) (holding issues project) past s pending)
    (waits : t ∈ pending) (fails : FetchFails network t)
    (arrives : listsThroughApi.resume t (.fetched network) s = some (s', new)) :
    Harmless s t s' ↔ Immaterial s t := by
  have empty := (arrival_cases arrives).2 network rfl fails
  have cached := joined run t waits
  cases resume_cases empty with
  | loaded project issues =>
      constructor
      · intro harmless
        refine .inr ⟨⟨_, _, rfl⟩, fun issue member active => ?_⟩
        exact absurd (harmless.kept issue member active) List.not_mem_nil
      · rintro (late | ⟨_, none⟩)
        · exact absurd rfl late
        · exact ⟨fun issue member active => absurd active (none issue member), nofun⟩
  | superseded project issues late => exact ⟨fun _ => .inl late, fun _ => ⟨fun _ member _ => member, nofun⟩⟩
  | arrived gen kind promise project issues =>
      constructor
      · intro harmless
        refine .inl fun current => ?_
        exact fetchesAgain_iff.mp (harmless.again _ _ _ _ rfl) (cached.2.2.mpr current)
      · rintro (late | ⟨⟨_, _, same⟩, _⟩)
        · refine ⟨fun _ member _ => member, fun _ _ _ _ same => ?_⟩
          obtain ⟨rfl, rfl, rfl, rfl⟩ := Task.list.inj same
          exact fetchesAgain_iff.mpr fun found => late (cached.2.2.mp found)
        · exact nomatch same

/-! ### Schedules -/

def boardIssue : Issue := { id := 1, title := "on the board", status := .todo }

/-- Two loads are started, and the requests of the first come to nothing. -/
def supersededOffline : EventLoop.Config Cache Call Task Arrival :=
  listsThroughApi.play (fun _ _ _ => true) (holding [boardIssue] (some 7))
    [.call (.loadIssues [.open]), .call (.loadIssues [])]

theorem supersededOffline_harmless :
    Harmless supersededOffline.state (.active 1 (some 7))
      { supersededOffline.state with settled := 1 :: supersededOffline.state.settled } := by
  have run : Run listsThroughApi (fun _ _ _ => True) (holding [boardIssue] (some 7))
      supersededOffline.past supersededOffline.state supersededOffline.pending :=
    Run.mono (Run.of_choices _ _) fun _ _ _ _ => trivial
  have waits : .active 1 (some 7) ∈ supersededOffline.pending :=
    show _ ∈ [Task.active 1 (some 7), .list 1 .open 0 (some 7), .active 2 (some 7)] from
      List.mem_cons_self
  exact (failed_fetch _ _ _ _ _ _ [] (.active 1 (some 7)) offline run waits trivial rfl).mpr
    (.inl (by decide))

/-- **A load that fails offline empties the board.** -/
theorem active_issues_wiped :
    ¬ ∀ issues project past s s' pending new t network,
      Run listsThroughApi (fun _ _ _ => True) (holding issues project) past s pending → t ∈ pending →
      FetchFails network t → listsThroughApi.resume t (.fetched network) s = some (s', new) →
      Harmless s t s' := by
  intro claim
  have run : Run listsThroughApi (fun _ _ _ => True) (holding [boardIssue] (some 7))
      [.call (.loadIssues [])] ((holding [boardIssue] (some 7)).loadIssues []).1
      [.active 1 (some 7)] := .step .nil trivial (.call rfl)
  have harmless := claim _ _ _ _ _ _ [] (.active 1 (some 7)) offline run
    (List.mem_singleton.mpr rfl) trivial rfl
  exact absurd (harmless.kept boardIssue (List.mem_singleton.mpr rfl) ⟨nofun, nofun⟩) (by decide)

end Wuflow.IssueLists

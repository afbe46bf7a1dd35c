/-
**The routes of the server** (`buildAPIMux`, `registerStaticRoutes`).

Every line of the table is a method, a pattern and what it leads to. `dispatch` is what the mux does with a
request: a path that is not clean is redirected, and so is one that is the path of a pattern but for the slash at
its end; a pattern for GET also serves HEAD, and where only other methods match the answer is 405.

* `routes_registrable` — for each method, the patterns may be registered together.
* `dispatch_eq_redirect_iff` — the requests that are redirected.
* `dispatch_eq_route_iff` — any other request is given to the route of its method whose pattern is the most
  specific one that matches.
-/

import Wuflow.Routing.Paths
import Wuflow.Routing.Patterns

namespace Wuflow

open Routing (Clean EscapedPath MostSpecific Pattern Segment clean segments)

inductive Method
  | get | head | post | put | delete
  | other (name : String)
  deriving DecidableEq

/-- The handlers. -/
inductive Endpoint
  | login | logout | refresh | health
  | getCurrentUser | updateSelf
  | listUsers | createUser | getUser | updateUser | deleteUser
  | listProjects | createProject | updateProject | deleteProject
  | projectActiveIssues | projectArchivedIssues | projectOpenIssues
  | createIssue | putIssuePositions | getIssue | putIssue | deleteIssue | archiveIssue | unarchiveIssue | moveIssue
  | listLabels | createLabel | deleteLabel
  | getStatusConfig | updateStatusConfig
  | listReleases | createRelease | getRelease | putRelease | deleteRelease | triggerRelease | reopenRelease
  | createTask | putTaskPositions | putTask | deleteTask
  | listHistory | listComments | createComment | putComment | deleteComment
  | getVersion
  | assets | loginPage | app
  deriving DecidableEq

/-- The middleware chain of a route. -/
inductive Chain
  | commonAPI | authAPI | files
  deriving DecidableEq

structure Route where
  method : Method
  pattern : Pattern
  endpoint : Endpoint
  chain : Chain
  deriving DecidableEq

/-! ### The tables -/

namespace Mux

instance literalOfString : Coe String Segment := ⟨.literal⟩

def pId : Segment := .wildcard "pId"
def iId : Segment := .wildcard "iId"
def id : Segment := .wildcard "id"

def hf (method : Method) (segments : List Segment) (endpoint : Endpoint) (chain : Chain) : Route :=
  { method, pattern := ⟨"api" :: segments, false⟩, endpoint, chain }

/-- Patterns below the issues and the releases of a project. -/
def issues (below : List Segment) : List Segment := "projects" :: pId :: "issues" :: below
def releases (below : List Segment) : List Segment := "projects" :: pId :: "releases" :: below

/-- `buildAPIMux`. -/
def apiRoutes : List Route :=
  [ hf .post ["auth", "login"] .login .commonAPI
  , hf .post ["auth", "logout"] .logout .commonAPI
  , hf .post ["auth", "refresh"] .refresh .commonAPI
  , hf .get ["health"] .health .commonAPI
  , hf .get ["auth", "me"] .getCurrentUser .authAPI
  , hf .put ["auth", "me"] .updateSelf .authAPI
  , hf .get ["users"] .listUsers .authAPI
  , hf .post ["users"] .createUser .authAPI
  , hf .get ["users", id] .getUser .authAPI
  , hf .put ["users", id] .updateUser .authAPI
  , hf .delete ["users", id] .deleteUser .authAPI
  , hf .get ["projects"] .listProjects .authAPI
  , hf .post ["projects"] .createProject .authAPI
  , hf .put ["projects", pId] .updateProject .authAPI
  , hf .delete ["projects", pId] .deleteProject .authAPI
  , hf .get (issues ["active"]) .projectActiveIssues .authAPI
  , hf .get (issues ["archived"]) .projectArchivedIssues .authAPI
  , hf .get (issues ["open"]) .projectOpenIssues .authAPI
  , hf .post (issues []) .createIssue .authAPI
  , hf .put (issues ["positions"]) .putIssuePositions .authAPI
  , hf .get (issues [id]) .getIssue .authAPI
  , hf .put (issues [id]) .putIssue .authAPI
  , hf .delete (issues [id]) .deleteIssue .authAPI
  , hf .post (issues [id, "archive"]) .archiveIssue .authAPI
  , hf .post (issues [id, "unarchive"]) .unarchiveIssue .authAPI
  , hf .post (issues [id, "move"]) .moveIssue .authAPI
  , hf .get ["projects", pId, "labels"] .listLabels .authAPI
  , hf .post ["projects", pId, "labels"] .createLabel .authAPI
  , hf .delete ["projects", pId, "labels", id] .deleteLabel .authAPI
  , hf .get ["projects", pId, "statusconfig"] .getStatusConfig .authAPI
  , hf .put ["projects", pId, "statusconfig"] .updateStatusConfig .authAPI
  , hf .get (releases []) .listReleases .authAPI
  , hf .post (releases []) .createRelease .authAPI
  , hf .get (releases [id]) .getRelease .authAPI
  , hf .put (releases [id]) .putRelease .authAPI
  , hf .delete (releases [id]) .deleteRelease .authAPI
  , hf .post (releases [id, "release"]) .triggerRelease .authAPI
  , hf .post (releases [id, "reopen"]) .reopenRelease .authAPI
  , hf .post (issues [iId, "tasks"]) .createTask .authAPI
  , hf .put (issues [iId, "tasks", "positions"]) .putTaskPositions .authAPI
  , hf .put (issues [iId, "tasks", id]) .putTask .authAPI
  , hf .delete (issues [iId, "tasks", id]) .deleteTask .authAPI
  , hf .get (issues [iId, "history"]) .listHistory .authAPI
  , hf .get (issues [iId, "comments"]) .listComments .authAPI
  , hf .post (issues [iId, "comments"]) .createComment .authAPI
  , hf .put (issues [iId, "comments", id]) .putComment .authAPI
  , hf .delete (issues [iId, "comments", id]) .deleteComment .authAPI
  , hf .get ["version"] .getVersion .authAPI ]

/-- `registerStaticRoutes`. -/
def staticRoutes : List Route :=
  [ { method := .get, pattern := ⟨["assets"], true⟩, endpoint := .assets, chain := .files }
  , { method := .get, pattern := ⟨["login"], false⟩, endpoint := .loginPage, chain := .files }
  , { method := .get, pattern := ⟨[], true⟩, endpoint := .app, chain := .files } ]

end Mux

/-! ### Dispatch -/

def routes : List Route := Mux.apiRoutes ++ Mux.staticRoutes

/-- The routes that are registered for a method. -/
def routesOf (method : Method) : Routing.Routes Route :=
  (routes.filter fun r => r.method == method).map fun r => (r.pattern, r)

/-- The method whose routes serve a request. -/
def Method.served : Method → Method
  | .head => .get
  | method => method

inductive Dispatched
  | route (r : Route)
  /-- To the cleaned path, or to the path with a slash more. -/
  | redirect
  | methodNotAllowed
  | notFound
  deriving DecidableEq

/-- The route that the routing tree finds. -/
def treeMatch (method : Method) (path : EscapedPath) : Option Route :=
  Routing.find (routesOf method.served) (segments path)

/-- The path ends with a slash. -/
def endsWithSlash (path : EscapedPath) : Bool := path.getLast? == some ""

/-- What was found is there for just this path, not for everything below it. -/
def exactMatch (found : Option Route) (path : EscapedPath) : Bool :=
  match found with
  | none => false
  | some r => !r.pattern.subtree || (endsWithSlash path && r.pattern.segments.length + 1 == path.length)

/-- `matchOrRedirect` redirects to the path with a slash more. -/
def redirectsToSlash (method : Method) (path : EscapedPath) : Bool :=
  !exactMatch (treeMatch method path) path && !endsWithSlash path &&
    exactMatch (treeMatch method (path ++ [""])) (path ++ [""])

/-- The methods of which some pattern matches the path, with a slash more or without. -/
def matchingMethods (path : EscapedPath) : List Method :=
  [.get, .post, .put, .delete].filter fun method =>
    (treeMatch method path).isSome || (!endsWithSlash path && (treeMatch method (path ++ [""])).isSome)

/-- The path that is looked up: that of a CONNECT request is not cleaned. -/
def lookedUp (method : Method) (path : EscapedPath) : EscapedPath :=
  if method = .other "CONNECT" then path else clean path

/-- `findHandler`. -/
def dispatch (method : Method) (path : EscapedPath) : Dispatched :=
  let cleaned := lookedUp method path
  if redirectsToSlash method cleaned = true ∨ cleaned ≠ path then .redirect
  else
    match treeMatch method cleaned with
    | some r => .route r
    | none => if matchingMethods cleaned = [] then .notFound else .methodNotAllowed

/-- **For each method, the patterns may be registered together.** -/
theorem routes_registrable (method : Method) : Routing.Registrable (routesOf method) := by
  cases method with
  | get => decide +kernel
  | head => decide +kernel
  | post => decide +kernel
  | put => decide +kernel
  | delete => decide +kernel
  | other name => exact List.Pairwise.nil

theorem mem_routesOf {method : Method} {p : Pattern} {r : Route} :
    (p, r) ∈ routesOf method ↔ r ∈ routes ∧ r.method = method ∧ p = r.pattern := by
  unfold routesOf
  rw [List.mem_map]
  constructor
  · rintro ⟨_, member, same⟩
    cases same
    obtain ⟨member, same⟩ := List.mem_filter.mp member
    exact ⟨member, beq_iff_eq.mp same, rfl⟩
  · rintro ⟨member, same, rfl⟩
    exact ⟨r, List.mem_filter.mpr ⟨member, beq_iff_eq.mpr same⟩, rfl⟩

/-- What the routing tree finds is the most specific route of the method. -/
theorem treeMatch_eq_some_iff {method : Method} {path : EscapedPath} {r : Route} :
    treeMatch method path = some r ↔ r ∈ routes ∧ r.method = method.served ∧
      r.pattern.matches (segments path) = true ∧
      MostSpecific (routesOf method.served) (segments path) r.pattern := by
  unfold treeMatch
  rw [Routing.find_eq_some_iff (routes_registrable _)]
  constructor
  · rintro ⟨p, member, here, most⟩
    obtain ⟨among, same, rfl⟩ := mem_routesOf.mp member
    exact ⟨among, same, here, most⟩
  · rintro ⟨among, same, here, most⟩
    exact ⟨r.pattern, mem_routesOf.mpr ⟨among, same, rfl⟩, here, most⟩

/-! ### Redirects -/

section Redirects

variable {method : Method} {path : EscapedPath}

/-- **The path is one of a pattern that ends with a slash, but for this slash**, and no pattern that ends
otherwise matches it. -/
def LacksSlash (method : Method) (path : EscapedPath) : Prop :=
  path.getLast? ≠ some "" ∧
    (∃ r ∈ routes, r.method = method.served ∧ r.pattern.subtree = true ∧
      Pattern.matches ⟨r.pattern.segments, false⟩ (segments path) = true) ∧
    ∀ r ∈ routes, r.method = method.served → r.pattern.matches (segments path) = true → r.pattern.subtree = true

theorem literals_proper (method : Method) : ∀ r ∈ routesOf method, Segment.literal "/" ∉ r.1.segments := by
  have all : (routes.all fun r => !r.pattern.segments.contains (.literal "/")) = true := by decide +kernel
  rintro ⟨p, r⟩ member inside
  obtain ⟨among, _, rfl⟩ := mem_routesOf.mp member
  have none := List.all_eq_true.mp all r among
  rw [Bool.not_eq_true', List.contains_eq_mem, decide_eq_false_iff_not] at none
  exact none inside

theorem exactMatch_open (open_ : path.getLast? ≠ some "") :
    exactMatch (treeMatch method path) path = false ↔
      ∀ r ∈ routes, r.method = method.served → r.pattern.matches (segments path) = true →
        r.pattern.subtree = true := by
  cases found : treeMatch method path with
  | none =>
      refine iff_of_true rfl fun r among same here => ?_
      have none := Routing.find_eq_none_iff.mp found r.pattern r (mem_routesOf.mpr ⟨among, same, rfl⟩)
      exact absurd (none.symm.trans here) Bool.false_ne_true
  | some r =>
      obtain ⟨among, same, here, most⟩ := treeMatch_eq_some_iff.mp found
      have ends : endsWithSlash path = false := beq_eq_false_iff_ne.mpr open_
      have flat : exactMatch (some r) path = false ↔ r.pattern.subtree = true := by
        unfold exactMatch
        simp [ends]
      rw [flat, most.subtree_iff (mem_routesOf.mpr ⟨among, same, rfl⟩) here]
      constructor
      · exact fun all r' among' same' there => all _ r' (mem_routesOf.mpr ⟨among', same', rfl⟩) there
      · rintro all q r' member there
        obtain ⟨among', same', rfl⟩ := mem_routesOf.mp member
        exact all r' among' same' there

theorem exactMatch_slash (open_ : path.getLast? ≠ some "") :
    exactMatch (treeMatch method (path ++ [""])) (path ++ [""]) = true ↔
      ∃ r ∈ routes, r.method = method.served ∧ r.pattern.subtree = true ∧
        Pattern.matches ⟨r.pattern.segments, false⟩ (segments path) = true := by
  have split : segments (path ++ [""]) = segments path ++ ["/"] := Routing.segments_slash open_
  cases found : treeMatch method (path ++ [""]) with
  | none =>
      refine iff_of_false Bool.false_ne_true ?_
      rintro ⟨r, among, same, subtree, flat⟩
      have none := Routing.find_eq_none_iff.mp found r.pattern r (mem_routesOf.mpr ⟨among, same, rfl⟩)
      have whole : r.pattern.matches (segments (path ++ [""])) = true := by
        unfold Pattern.matches
        rw [split, subtree]
        exact Pattern.admits_snoc.mpr (.inr flat)
      exact absurd (none.symm.trans whole) Bool.false_ne_true
  | some r =>
      obtain ⟨among, same, here, most⟩ := treeMatch_eq_some_iff.mp found
      rw [split] at here most
      have exact_ : exactMatch (some r) (path ++ [""]) = true ↔
          r.pattern.subtree = false ∨ r.pattern.segments.length = (segments path).length := by
        unfold exactMatch endsWithSlash
        simp [Routing.length_segments]
      rw [exact_, most.slash_iff (literals_proper _) (mem_routesOf.mpr ⟨among, same, rfl⟩) here]
      constructor
      · rintro ⟨q, r', member, subtree, flat⟩
        obtain ⟨among', same', rfl⟩ := mem_routesOf.mp member
        exact ⟨r', among', same', subtree, flat⟩
      · rintro ⟨r', among', same', subtree, flat⟩
        exact ⟨_, r', mem_routesOf.mpr ⟨among', same', rfl⟩, subtree, flat⟩

theorem redirectsToSlash_iff : redirectsToSlash method path = true ↔ LacksSlash method path := by
  unfold redirectsToSlash LacksSlash
  rw [Bool.and_eq_true, Bool.and_eq_true, Bool.not_eq_true', Bool.not_eq_true']
  by_cases open_ : path.getLast? = some ""
  · have ends : endsWithSlash path = true := beq_iff_eq.mpr open_
    rw [ends]
    exact iff_of_false (fun both => nomatch both.1.2) fun both => both.1 open_
  · have ends : endsWithSlash path = false := beq_eq_false_iff_ne.mpr open_
    rw [exactMatch_open open_, exactMatch_slash open_, ends]
    exact ⟨fun ⟨⟨subtrees, _⟩, names⟩ => ⟨open_, names, subtrees⟩,
      fun ⟨_, names, subtrees⟩ => ⟨⟨subtrees, rfl⟩, names⟩⟩

/-- **The path is looked up as it is.** -/
def Canonical (method : Method) (path : EscapedPath) : Prop := method = .other "CONNECT" ∨ Clean path

theorem lookedUp_eq_iff : lookedUp method path = path ↔ Canonical method path := by
  unfold lookedUp Canonical
  by_cases connect : method = .other "CONNECT"
  · rw [if_pos connect]
    exact iff_of_true rfl (.inl connect)
  · rw [if_neg connect, Routing.clean_eq_self_iff]
    exact ⟨.inr, fun either => either.resolve_left connect⟩

/-- **A request is redirected** exactly if its path is not clean, or lacks the slash at its end. -/
theorem dispatch_eq_redirect_iff :
    dispatch method path = .redirect ↔ ¬ Canonical method path ∨ LacksSlash method (lookedUp method path) := by
  rw [← lookedUp_eq_iff, ← redirectsToSlash_iff]
  unfold dispatch
  dsimp only
  split
  · next redirected => exact iff_of_true rfl redirected.symm
  · next kept =>
      refine iff_of_false ?_ fun either => kept either.symm
      split
      · exact Dispatched.noConfusion
      · split <;> exact Dispatched.noConfusion

example : dispatch .get ["assets"] = .redirect ∧ dispatch .get ["assets", "..", "index.html"] = .redirect := by
  decide +kernel

end Redirects

/-- A route that is found for a clean path, and not for everything below one, gets the request. -/
theorem dispatch_of_treeMatch {method : Method} {path : EscapedPath} {r : Route} (canonical : Canonical method path)
    (found : treeMatch method path = some r) (flat : r.pattern.subtree = false) :
    dispatch method path = .route r := by
  have kept : lookedUp method path = path := lookedUp_eq_iff.mpr canonical
  have slash : redirectsToSlash method path = false := by
    have exact_ : exactMatch (some r) path = true := by
      unfold exactMatch
      simp [flat]
    unfold redirectsToSlash
    rw [found, exact_]
    rfl
  unfold dispatch
  dsimp only
  rw [kept, if_neg (not_or.mpr ⟨by rw [slash]; decide, not_not.mpr rfl⟩), found]

/-- **A request that is not redirected is given to the most specific route of its method.** -/
theorem dispatch_eq_route_iff {method : Method} {path : EscapedPath} {r : Route} :
    dispatch method path = .route r ↔ Canonical method path ∧ ¬ LacksSlash method path ∧
      r ∈ routes ∧ r.method = method.served ∧ r.pattern.matches (segments path) = true ∧
      ∀ r' ∈ routes, r'.method = method.served → r'.pattern.matches (segments path) = true →
        r.pattern.within r'.pattern = true := by
  rw [← lookedUp_eq_iff, ← redirectsToSlash_iff]
  have found : dispatch method path = .route r ↔ lookedUp method path = path ∧
      ¬ redirectsToSlash method path = true ∧ treeMatch method path = some r := by
    unfold dispatch
    dsimp only
    by_cases kept : lookedUp method path = path
    · rw [kept]
      by_cases slash : redirectsToSlash method path = true
      · rw [if_pos (.inl slash)]
        exact iff_of_false Dispatched.noConfusion fun both => both.2.1 slash
      · rw [if_neg (not_or.mpr ⟨slash, not_not.mpr rfl⟩)]
        cases treeMatch method path with
        | none =>
            refine iff_of_false ?_ fun both => nomatch both.2.2
            dsimp only
            split <;> exact Dispatched.noConfusion
        | some r' => simp [slash]
    · rw [if_pos (.inr kept)]
      exact iff_of_false Dispatched.noConfusion fun both => kept both.1
  rw [found, treeMatch_eq_some_iff]
  refine and_congr_right fun _ => and_congr_right fun _ => and_congr_right fun _ => and_congr_right fun _ =>
    and_congr_right fun _ => ⟨fun most r' among' same' there => ?_, fun most q r' member there => ?_⟩
  · exact most r'.pattern r' (mem_routesOf.mpr ⟨among', same', rfl⟩) there
  · obtain ⟨among', same', rfl⟩ := mem_routesOf.mp member
    exact most r' among' same' there

end Wuflow

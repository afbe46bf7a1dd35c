/-
**The calls of `api.js` reach their handlers.**

Every function of `api.js` builds a URL from literal texts and ids, and a request with a method, perhaps a JSON body
and a header. `options` is what it gives to `fetch`; `meant` is the request of the backend that it stands for.

* `dispatch_fill` — an API route gets every path that its pattern is filled to with decimal numbers: no other
  route comes before it, and the mux redirects none of them.
* `calls_reach` — whatever the ids and the body, every call with a valid token that the limiter lets pass is given to
  the handler it is meant for, with these ids and as much of the body as the server reads.
-/

import Wuflow.Codec.Join
import Wuflow.Frontend.Api
import Wuflow.Requests.Gate

namespace Wuflow

open Calendar (Instant)
open Routing (Clean EscapedPath Path Pattern Proper Segment)

/-! ### Calls -/

/-- The calls of `api.js`. A body is given as the text that `JSON.stringify` makes of it. -/
inductive ApiCall
  | renewSession
  | hasValidSession
  | reauthenticate (credentials : String)
  | fetchActiveIssuesByProject (projectId : Int)
  | fetchArchivedIssuesByProject (projectId : Int)
  | fetchOpenIssuesByProject (projectId : Int)
  | fetchIssueById (projectId id : Int)
  | createIssue (projectId : Int) (issue : String)
  | updateIssue (projectId id : Int) (issue : String) (etag : Option String)
  | updateIssuePositions (projectId : Int) (positions : String)
  | archiveIssue (projectId id : Int)
  | unarchiveIssue (projectId id : Int)
  | moveIssue (currentProjectId issueId : Int) (move : String)
  | createTask (projectId issueId : Int) (task : String)
  | updateTask (projectId issueId id : Int) (task : String)
  | updateTaskPositions (projectId issueId : Int) (positions : String)
  | deleteTask (projectId issueId taskId : Int)
  | deleteIssue (projectId id : Int) (confirmation : String)
  | fetchHistory (projectId issueId : Int)
  | fetchComments (projectId issueId : Int)
  | createComment (projectId issueId : Int) (comment : String)
  | updateComment (projectId issueId commentId : Int) (comment : String)
  | deleteComment (projectId issueId commentId : Int)
  | fetchLabelsByProject (projectId : Int)
  | createLabel (projectId : Int) (label : String)
  | deleteLabel (projectId labelId : Int) (confirmation : String)
  | fetchVersion
  | fetchUsers
  | createUser (user : String)
  | updateUser (id : Int) (user : String)
  | deleteUser (id : Int) (confirmation : String)
  | fetchCurrentUser
  | logout
  | updateCurrentUser (data : String)
  | fetchProjects
  | createProject (project : String)
  | updateProject (id : Int) (project : String)
  | deleteProject (id : Int) (confirmation : String)
  | fetchStatusConfig (projectId : Int)
  | updateStatusConfig (projectId : Int) (config : String)
  | fetchReleases (projectId : Int)
  | createRelease (projectId : Int) (data : String)
  | updateRelease (projectId id : Int) (data : String)
  | deleteRelease (projectId id : Int) (confirmation : String)
  | reopenRelease (projectId id : Int)
  | triggerRelease (projectId id : Int) (archiveDone : String)

/-- What `fetch` is given. -/
structure FetchOptions where
  url : String
  method : Method := .get
  /-- The content type is `application/json`. -/
  json : Bool := false
  ifMatch : Option String := none
  body : Option String := none

/-- The URL with these segments below `apiURL`. -/
def apiPath (segments : List String) : String := Api.apiURL ++ String.join (segments.map ("/" ++ ·))

def sendJSON (method : Method) (segments : List String) (body : String) (ifMatch : Option String := none) :
    FetchOptions :=
  { url := apiPath segments, method, json := true, ifMatch, body := some body }

def deleteAt (segments : List String) : FetchOptions := { url := apiPath segments, method := .delete }

def getFrom (segments : List String) : FetchOptions := { url := apiPath segments }

/-- The segments below an issue, and below a release. -/
def issuePath (projectId : Int) (below : List String) : List String :=
  "projects" :: toString projectId :: "issues" :: below

def releasePath (projectId : Int) (below : List String) : List String :=
  "projects" :: toString projectId :: "releases" :: below

/-- **What each call gives to `fetch`.** -/
def ApiCall.options : ApiCall → FetchOptions
  | .renewSession => sendJSON .post ["auth", "refresh"] "{}"
  | .hasValidSession | .fetchCurrentUser => getFrom ["auth", "me"]
  | .reauthenticate credentials => sendJSON .post ["auth", "login"] credentials
  | .fetchActiveIssuesByProject projectId => getFrom (issuePath projectId ["active"])
  | .fetchArchivedIssuesByProject projectId => getFrom (issuePath projectId ["archived"])
  | .fetchOpenIssuesByProject projectId => getFrom (issuePath projectId ["open"])
  | .fetchIssueById projectId id => getFrom (issuePath projectId [toString id])
  | .createIssue projectId issue => sendJSON .post (issuePath projectId []) issue
  | .updateIssue projectId id issue etag =>
      sendJSON .put (issuePath projectId [toString id]) issue (etag.filter (· ≠ ""))
  | .updateIssuePositions projectId positions => sendJSON .put (issuePath projectId ["positions"]) positions
  | .archiveIssue projectId id => sendJSON .post (issuePath projectId [toString id, "archive"]) "{}"
  | .unarchiveIssue projectId id => sendJSON .post (issuePath projectId [toString id, "unarchive"]) "{}"
  | .moveIssue projectId id move => sendJSON .post (issuePath projectId [toString id, "move"]) move
  | .createTask projectId issueId task => sendJSON .post (issuePath projectId [toString issueId, "tasks"]) task
  | .updateTask projectId issueId id task =>
      sendJSON .put (issuePath projectId [toString issueId, "tasks", toString id]) task
  | .updateTaskPositions projectId issueId positions =>
      sendJSON .put (issuePath projectId [toString issueId, "tasks", "positions"]) positions
  | .deleteTask projectId issueId taskId => deleteAt (issuePath projectId [toString issueId, "tasks", toString taskId])
  | .deleteIssue projectId id confirmation => sendJSON .delete (issuePath projectId [toString id]) confirmation
  | .fetchHistory projectId issueId => getFrom (issuePath projectId [toString issueId, "history"])
  | .fetchComments projectId issueId => getFrom (issuePath projectId [toString issueId, "comments"])
  | .createComment projectId issueId comment =>
      sendJSON .post (issuePath projectId [toString issueId, "comments"]) comment
  | .updateComment projectId issueId commentId comment =>
      sendJSON .put (issuePath projectId [toString issueId, "comments", toString commentId]) comment
  | .deleteComment projectId issueId commentId =>
      deleteAt (issuePath projectId [toString issueId, "comments", toString commentId])
  | .fetchLabelsByProject projectId => getFrom ["projects", toString projectId, "labels"]
  | .createLabel projectId label => sendJSON .post ["projects", toString projectId, "labels"] label
  | .deleteLabel projectId labelId confirmation =>
      sendJSON .delete ["projects", toString projectId, "labels", toString labelId] confirmation
  | .fetchVersion => getFrom ["version"]
  | .fetchUsers => getFrom ["users"]
  | .createUser user => sendJSON .post ["users"] user
  | .updateUser id user => sendJSON .put ["users", toString id] user
  | .deleteUser id confirmation => sendJSON .delete ["users", toString id] confirmation
  | .logout => sendJSON .post ["auth", "logout"] "{}"
  | .updateCurrentUser data => sendJSON .put ["auth", "me"] data
  | .fetchProjects => getFrom ["projects"]
  | .createProject project => sendJSON .post ["projects"] project
  | .updateProject id project => sendJSON .put ["projects", toString id] project
  | .deleteProject id confirmation => sendJSON .delete ["projects", toString id] confirmation
  | .fetchStatusConfig projectId => getFrom ["projects", toString projectId, "statusconfig"]
  | .updateStatusConfig projectId config => sendJSON .put ["projects", toString projectId, "statusconfig"] config
  | .fetchReleases projectId => getFrom (releasePath projectId [])
  | .createRelease projectId data => sendJSON .post (releasePath projectId []) data
  | .updateRelease projectId id data => sendJSON .put (releasePath projectId [toString id]) data
  | .deleteRelease projectId id confirmation =>
      sendJSON .delete (releasePath projectId [toString id]) confirmation
  | .reopenRelease projectId id => sendJSON .post (releasePath projectId [toString id, "reopen"]) "{}"
  | .triggerRelease projectId id archiveDone =>
      sendJSON .post (releasePath projectId [toString id, "release"]) archiveDone

/-! ### From the browser to the server -/

/-- The path and the query of a URL, which has nothing to escape. -/
def urlPath (url : String) : EscapedPath :=
  (((url.toList.takeWhile (· ≠ '?')).splitOn '/').drop 1).map String.ofList

def urlQuery (url : String) : String := String.ofList ((url.toList.dropWhile (· ≠ '?')).drop 1)

/-- What the browser adds to a request. -/
structure Browser where
  accessToken : Option String
  refreshToken : Option (List UInt8)
  ip : String

def FetchOptions.sent (o : FetchOptions) : Sent := ⟨(o.body.getD "").toUTF8.toList, false⟩

def FetchOptions.request (o : FetchOptions) (browser : Browser) : HttpRequest where
  method := o.method
  path := urlPath o.url
  rawQuery := urlQuery o.url
  contentType := if o.json then "application/json" else ""
  ifMatch := o.ifMatch.getD ""
  accessToken := browser.accessToken
  refreshToken := browser.refreshToken
  ip := browser.ip
  body := o.sent

/-! ### Numbers in paths -/

/-- Numbers are not told apart. -/
def blur (s : String) : String := if s ≠ "" ∧ s.toList.all Char.isDigit then "0" else s

theorem toString_digits {id : Int} (natural : 0 ≤ id) :
    (toString id).toList = Nat.toDigits 10 id.toNat := by
  rw [Join.toList_toString, if_pos natural]

theorem isDigit_of_mem_toString {id : Int} (natural : 0 ≤ id) {c : Char} (member : c ∈ (toString id).toList) :
    c.isDigit = true := by
  rw [toString_digits natural] at member
  exact Nat.isDigit_of_mem_toDigits (by decide) (by decide) member

theorem toString_ne_empty (id : Int) : toString id ≠ "" := by
  intro empty
  have texts := congrArg String.toList empty
  rw [Join.toList_toString] at texts
  split at texts
  · exact Nat.toDigits_ne_nil texts
  · cases texts

theorem blur_toString {id : Int} (natural : 0 ≤ id) : blur (toString id) = "0" := by
  unfold blur
  rw [if_pos ⟨toString_ne_empty id, List.all_eq_true.mpr fun c member => isDigit_of_mem_toString natural member⟩]

theorem blur_eq_slash_iff (s : String) : blur s = "/" ↔ s = "/" := by
  unfold blur
  split
  · next number =>
      refine iff_of_false (by decide) ?_
      rintro rfl
      exact absurd number.2 (by decide)
  · exact Iff.rfl

/-- A literal that is no number is told apart. -/
theorem eq_blur_iff {text : String} (word : blur text ≠ "0") (s : String) : text = blur s ↔ text = s := by
  constructor
  · intro same
    by_cases number : s ≠ "" ∧ s.toList.all Char.isDigit
    · have zero : text = "0" := by
        rw [same]
        exact if_pos number
      exact absurd (by rw [zero]; decide) word
    · exact same.trans (if_neg number)
  · rintro rfl
    by_cases number : text ≠ "" ∧ text.toList.all Char.isDigit
    · exact absurd (if_pos number) word
    · exact (if_neg number).symm

/-- A path variable that was written as a decimal number. -/
theorem atoi_toString {id : Int} (natural : 0 ≤ id) (small : id < 2 ^ 63) : atoi (toString id) = some id := by
  have digit : ∀ c ∈ Nat.toDigits 10 id.toNat, c.isDigit = true := fun c =>
    Nat.isDigit_of_mem_toDigits (by decide) (by decide)
  have value : decimal (Nat.toDigits 10 id.toNat) = some id := by
    unfold decimal
    rw [if_pos ⟨Nat.toDigits_ne_nil, List.all_eq_true.mpr digit⟩, Nat.ofDigitChars_ten_toDigits]
    exact congrArg some (Int.toNat_of_nonneg natural)
  have unsigned : signedDecimal (Nat.toDigits 10 id.toNat) = some id := by
    unfold signedDecimal
    split
    · exact absurd (digit '-' (by simp [*])) (by decide)
    · exact absurd (digit '+' (by simp [*])) (by decide)
    · exact value
  unfold atoi
  rw [toString_digits natural, unsigned]
  exact Option.filter_eq_some_iff.mpr ⟨rfl, by simp; omega⟩

/-! ### URLs -/

/-- The segment is neither cut nor ended, and nothing in it is escaped. -/
def Plain (s : String) : Prop := ∀ c ∈ s.toList, c ≠ '/' ∧ c ≠ '?' ∧ c ≠ '%'

instance decidablePlain (s : String) : Decidable (Plain s) :=
  List.decidableBAll _ _

theorem plain_toString {id : Int} (natural : 0 ≤ id) : Plain (toString id) := fun c member => by
  have digit := isDigit_of_mem_toString natural member
  refine ⟨?_, ?_, ?_⟩ <;>
  · rintro rfl
    exact absurd digit (by decide)

theorem proper_toString {id : Int} (natural : 0 ≤ id) : Proper (toString id) := by
  have digits : ∀ {s : String}, toString id = s → ∀ c ∈ s.toList, c.isDigit = true := fun same c member =>
    isDigit_of_mem_toString natural (same ▸ member)
  refine ⟨toString_ne_empty id, fun dot => ?_, fun dots => ?_⟩
  · exact absurd (digits dot '.' (by decide)) (by decide)
  · exact absurd (digits dots '.' (by decide)) (by decide)

theorem toList_apiPath (segments : List String) :
    (apiPath segments).toList = ['/'].intercalate ([] :: (("api" :: segments).map String.toList)) := by
  have joined : ∀ segments : List String, (String.join (segments.map ("/" ++ ·))).toList =
      segments.flatMap fun s => '/' :: s.toList := by
    intro segments
    rw [String.toList_join, List.flatMap_map]
    exact List.flatMap_congr fun s _ => String.toList_append
  have between : ∀ (first : List Char) (segments : List String),
      ['/'].intercalate (first :: segments.map String.toList) = first ++ segments.flatMap fun s => '/' :: s.toList := by
    intro first segments
    induction segments generalizing first with
    | nil => simp
    | cons s segments ih => rw [List.map_cons, List.intercalate_cons_cons, ih, List.flatMap_cons]; simp
  rw [between [] ("api" :: segments)]
  unfold apiPath
  rw [String.toList_append, joined]
  rfl

theorem pieces_plain {segments : List String} (plain : ∀ s ∈ segments, Plain s) {piece : List Char}
    (among : piece ∈ [] :: ("api" :: segments).map String.toList) : ∀ c ∈ piece, c ≠ '/' ∧ c ≠ '?' ∧ c ≠ '%' := by
  rcases List.mem_cons.mp among with rfl | among
  · exact fun c inside => by cases inside
  · obtain ⟨s, member, rfl⟩ := List.mem_map.mp among
    rcases List.mem_cons.mp member with rfl | member
    · exact (by decide : Plain "api")
    · exact plain s member

theorem unqueried {segments : List String} (plain : ∀ s ∈ segments, Plain s) {c : Char}
    (member : c ∈ (apiPath segments).toList) : c ≠ '?' := by
  rw [toList_apiPath] at member
  rcases Join.mem_intercalate member with rfl | ⟨piece, among, inside⟩
  · decide
  · exact (pieces_plain plain among c inside).2.1

/-- **The path of a URL is what it was built from.** -/
theorem urlPath_apiPath {segments : List String} (plain : ∀ s ∈ segments, Plain s) :
    urlPath (apiPath segments) = "api" :: segments := by
  have whole : (apiPath segments).toList.takeWhile (· ≠ '?') = (apiPath segments).toList :=
    List.takeWhile_eq_self_iff.mpr fun c member => decide_eq_true (unqueried plain member)
  have free : ∀ piece ∈ [] :: ("api" :: segments).map String.toList, '/' ∉ piece :=
    fun piece among inside => (pieces_plain plain among _ inside).1 rfl
  unfold urlPath
  rw [whole, toList_apiPath, List.splitOn_intercalate '/' free (List.cons_ne_nil _ _), List.drop_one, List.tail_cons,
    List.map_map]
  refine (List.map_congr_left fun s _ => ?_).trans (List.map_id _)
  exact String.ofList_toList

theorem urlQuery_apiPath {segments : List String} (plain : ∀ s ∈ segments, Plain s) :
    urlQuery (apiPath segments) = "" := by
  have none : (apiPath segments).toList.dropWhile (· ≠ '?') = [] :=
    List.dropWhile_eq_nil_iff.mpr fun c member => decide_eq_true (unqueried plain member)
  unfold urlQuery
  rw [none]
  rfl

/-! ### Routes -/

/-- A path of the route, with these ids. -/
def Route.fill (r : Route) (ids : List Int) : EscapedPath := Pattern.fill r.pattern.segments (ids.map toString)

/-- The path variables of such a path. -/
def Route.vars (r : Route) (ids : List Int) : String → Option Int :=
  fun name => ((Pattern.names r.pattern.segments).zip ids).lookup name

/-- As many ids as the pattern has wildcards, each a positive 64-bit number. -/
structure Route.Fits (r : Route) (ids : List Int) : Prop where
  as_many : ids.length = (Pattern.names r.pattern.segments).length
  positive : ∀ id ∈ ids, 0 < id
  small : ∀ id ∈ ids, id < 2 ^ 63

/-- A literal is a word. -/
def told : Segment → Bool
  | .literal text => decide ((blur text = text ∧ blur text ≠ "0") ∧ Plain text ∧ Proper text)
  | .wildcard _ => true

/-- The literals of the API are words. -/
theorem literals_told {r : Route} (member : r ∈ routes) {text : String} (literal : .literal text ∈ r.pattern.segments) :
    (blur text = text ∧ blur text ≠ "0") ∧ Plain text ∧ Proper text := by
  have all : (routes.all fun r => r.pattern.segments.all told) = true := by decide +kernel
  exact of_decide_eq_true (List.all_eq_true.mp (List.all_eq_true.mp all r member) _ literal)

/-- Every route of the API is found for its path with zeros for the ids. -/
theorem find_zeros : (Mux.apiRoutes.all fun r => decide (Routing.find (routesOf r.method.served)
    (Pattern.fill r.pattern.segments ((Pattern.names r.pattern.segments).map fun _ => "0")) = some r)) = true := by
  decide +kernel

/-- Numbers are not told apart by the routes. -/
theorem find_blur (method : Method) (path : Path) :
    Routing.find (routesOf method) (path.map blur) = Routing.find (routesOf method) path :=
  Routing.find_congr blur_eq_slash_iff (fun r member text literal s => by
    obtain ⟨among, _, pattern⟩ := mem_routesOf.mp (show (r.1, r.2) ∈ _ from member)
    exact eq_blur_iff (literals_told among (pattern ▸ literal)).1.2 s) path

/-- The routes of the API are below "api", and for just one path. -/
theorem apiRoutes_flat {r : Route} (member : r ∈ Mux.apiRoutes) :
    r.pattern.segments.head? = some (.literal "api") ∧ r.pattern.subtree = false := by
  have all : (Mux.apiRoutes.all fun r => decide (r.pattern.segments.head? = some (.literal "api") ∧
      r.pattern.subtree = false)) = true := by decide +kernel
  exact of_decide_eq_true (List.all_eq_true.mp all r member)

section Fill

variable {r : Route} {ids : List Int}

/-- The segments of a filled path lead down, and nothing in them is escaped. -/
theorem fill_plain (member : r ∈ Mux.apiRoutes) (positive : ∀ id ∈ ids, 0 < id) {s : String}
    (inside : s ∈ r.fill ids) : Plain s ∧ Proper s := by
  rcases Pattern.mem_fill inside with literal | text
  · exact (literals_told (List.mem_append_left _ member) literal).2
  · obtain ⟨id, among, rfl⟩ := List.mem_map.mp text
    have natural := Int.le_of_lt (positive id among)
    exact ⟨plain_toString natural, proper_toString natural⟩

theorem fill_clean (member : r ∈ Mux.apiRoutes) (positive : ∀ id ∈ ids, 0 < id) : Clean (r.fill ids) := by
  refine ⟨_, fun s inside => (fill_plain member positive inside).2, .inr ⟨rfl, ?_⟩⟩
  have below := (apiRoutes_flat member).1
  unfold Route.fill
  cases segments : r.pattern.segments with
  | nil =>
      rw [segments] at below
      cases below
  | cons first rest =>
      rw [segments] at below
      cases Option.some.inj below
      exact List.cons_ne_nil _ _

theorem segments_fill (member : r ∈ Mux.apiRoutes) (positive : ∀ id ∈ ids, 0 < id) :
    Routing.segments (r.fill ids) = r.fill ids :=
  Routing.segments_eq_self fun s inside => by
    obtain ⟨plain, proper⟩ := fill_plain member positive inside
    exact ⟨proper.1, fun escaped => (plain _ escaped).2.2 rfl⟩

/-- **Every route of the API gets the paths with its ids.** -/
theorem dispatch_fill (member : r ∈ Mux.apiRoutes) (fits : r.Fits ids) : dispatch r.method (r.fill ids) = .route r := by
  have zeros : (ids.map toString).map blur = (Pattern.names r.pattern.segments).map fun _ => "0" := by
    rw [List.map_map, List.map_const', ← fits.as_many, ← List.map_const']
    exact List.map_congr_left fun id among => blur_toString (Int.le_of_lt (fits.positive id among))
  have kept : ∀ text, .literal text ∈ r.pattern.segments → blur text = text := fun text literal =>
    (literals_told (List.mem_append_left _ member) literal).1.1
  have found : Routing.find (routesOf r.method.served) (r.fill ids) = some r := by
    rw [← find_blur]
    unfold Route.fill
    rw [Pattern.map_fill kept, zeros]
    exact of_decide_eq_true (List.all_eq_true.mp find_zeros r member)
  refine dispatch_of_treeMatch (.inr (fill_clean member fits.positive)) ?_ (apiRoutes_flat member).2
  unfold treeMatch
  rw [segments_fill member fits.positive, found]

end Fill

/-- **The path variables are the ids.** -/
theorem vars_fill {r : Route} {ids : List Int} (fits : r.Fits ids) :
    (fun name => atoi (r.pattern.pathValue (r.fill ids) name)) = r.vars ids := by
  have each : ∀ (names : List String) (ids : List Int), (∀ id ∈ ids, 0 < id) → (∀ id ∈ ids, id < 2 ^ 63) → ∀ name,
      atoi (((names.zip (ids.map toString)).lookup name).getD "") = (names.zip ids).lookup name := by
    intro names ids positive small name
    induction names generalizing ids with
    | nil => rfl
    | cons first names ih =>
        cases ids with
        | nil => rfl
        | cons id ids =>
            rw [List.map_cons, List.zip_cons_cons, List.zip_cons_cons, List.lookup_cons, List.lookup_cons]
            cases name == first with
            | true => exact atoi_toString (Int.le_of_lt (positive id List.mem_cons_self)) (small id List.mem_cons_self)
            | false =>
                exact ih ids (fun id member => positive id (List.mem_cons_of_mem _ member))
                  fun id member => small id (List.mem_cons_of_mem _ member)
  funext name
  unfold Pattern.pathValue Route.fill Route.vars
  rw [Pattern.values_fill (by rw [List.length_map]; exact fits.as_many)]
  exact each _ _ fits.positive fits.small name

/-! ### What the calls are meant for -/

/-- The route of each call. -/
def ApiCall.route : ApiCall → Route
  | .renewSession => Mux.hf .post ["auth", "refresh"] .refresh .commonAPI
  | .reauthenticate _ => Mux.hf .post ["auth", "login"] .login .commonAPI
  | .logout => Mux.hf .post ["auth", "logout"] .logout .commonAPI
  | .hasValidSession | .fetchCurrentUser => Mux.hf .get ["auth", "me"] .getCurrentUser .authAPI
  | .updateCurrentUser _ => Mux.hf .put ["auth", "me"] .updateSelf .authAPI
  | .fetchActiveIssuesByProject _ => Mux.hf .get (Mux.issues ["active"]) .projectActiveIssues .authAPI
  | .fetchArchivedIssuesByProject _ => Mux.hf .get (Mux.issues ["archived"]) .projectArchivedIssues .authAPI
  | .fetchOpenIssuesByProject _ => Mux.hf .get (Mux.issues ["open"]) .projectOpenIssues .authAPI
  | .fetchIssueById _ _ => Mux.hf .get (Mux.issues [Mux.id]) .getIssue .authAPI
  | .createIssue _ _ => Mux.hf .post (Mux.issues []) .createIssue .authAPI
  | .updateIssue _ _ _ _ => Mux.hf .put (Mux.issues [Mux.id]) .putIssue .authAPI
  | .updateIssuePositions _ _ => Mux.hf .put (Mux.issues ["positions"]) .putIssuePositions .authAPI
  | .archiveIssue _ _ => Mux.hf .post (Mux.issues [Mux.id, "archive"]) .archiveIssue .authAPI
  | .unarchiveIssue _ _ => Mux.hf .post (Mux.issues [Mux.id, "unarchive"]) .unarchiveIssue .authAPI
  | .moveIssue _ _ _ => Mux.hf .post (Mux.issues [Mux.id, "move"]) .moveIssue .authAPI
  | .deleteIssue _ _ _ => Mux.hf .delete (Mux.issues [Mux.id]) .deleteIssue .authAPI
  | .createTask _ _ _ => Mux.hf .post (Mux.issues [Mux.iId, "tasks"]) .createTask .authAPI
  | .updateTask _ _ _ _ => Mux.hf .put (Mux.issues [Mux.iId, "tasks", Mux.id]) .putTask .authAPI
  | .updateTaskPositions _ _ _ =>
      Mux.hf .put (Mux.issues [Mux.iId, "tasks", "positions"]) .putTaskPositions .authAPI
  | .deleteTask _ _ _ => Mux.hf .delete (Mux.issues [Mux.iId, "tasks", Mux.id]) .deleteTask .authAPI
  | .fetchHistory _ _ => Mux.hf .get (Mux.issues [Mux.iId, "history"]) .listHistory .authAPI
  | .fetchComments _ _ => Mux.hf .get (Mux.issues [Mux.iId, "comments"]) .listComments .authAPI
  | .createComment _ _ _ => Mux.hf .post (Mux.issues [Mux.iId, "comments"]) .createComment .authAPI
  | .updateComment _ _ _ _ => Mux.hf .put (Mux.issues [Mux.iId, "comments", Mux.id]) .putComment .authAPI
  | .deleteComment _ _ _ => Mux.hf .delete (Mux.issues [Mux.iId, "comments", Mux.id]) .deleteComment .authAPI
  | .fetchLabelsByProject _ => Mux.hf .get ["projects", Mux.pId, "labels"] .listLabels .authAPI
  | .createLabel _ _ => Mux.hf .post ["projects", Mux.pId, "labels"] .createLabel .authAPI
  | .deleteLabel _ _ _ => Mux.hf .delete ["projects", Mux.pId, "labels", Mux.id] .deleteLabel .authAPI
  | .fetchVersion => Mux.hf .get ["version"] .getVersion .authAPI
  | .fetchUsers => Mux.hf .get ["users"] .listUsers .authAPI
  | .createUser _ => Mux.hf .post ["users"] .createUser .authAPI
  | .updateUser _ _ => Mux.hf .put ["users", Mux.id] .updateUser .authAPI
  | .deleteUser _ _ => Mux.hf .delete ["users", Mux.id] .deleteUser .authAPI
  | .fetchProjects => Mux.hf .get ["projects"] .listProjects .authAPI
  | .createProject _ => Mux.hf .post ["projects"] .createProject .authAPI
  | .updateProject _ _ => Mux.hf .put ["projects", Mux.pId] .updateProject .authAPI
  | .deleteProject _ _ => Mux.hf .delete ["projects", Mux.pId] .deleteProject .authAPI
  | .fetchStatusConfig _ => Mux.hf .get ["projects", Mux.pId, "statusconfig"] .getStatusConfig .authAPI
  | .updateStatusConfig _ _ => Mux.hf .put ["projects", Mux.pId, "statusconfig"] .updateStatusConfig .authAPI
  | .fetchReleases _ => Mux.hf .get (Mux.releases []) .listReleases .authAPI
  | .createRelease _ _ => Mux.hf .post (Mux.releases []) .createRelease .authAPI
  | .updateRelease _ _ _ => Mux.hf .put (Mux.releases [Mux.id]) .putRelease .authAPI
  | .deleteRelease _ _ _ => Mux.hf .delete (Mux.releases [Mux.id]) .deleteRelease .authAPI
  | .reopenRelease _ _ => Mux.hf .post (Mux.releases [Mux.id, "reopen"]) .reopenRelease .authAPI
  | .triggerRelease _ _ _ => Mux.hf .post (Mux.releases [Mux.id, "release"]) .triggerRelease .authAPI

/-- The ids in the URL, from left to right. -/
def ApiCall.ids : ApiCall → List Int
  | .renewSession | .reauthenticate _ | .logout | .hasValidSession | .fetchCurrentUser | .updateCurrentUser _
  | .fetchVersion | .fetchUsers | .createUser _ | .fetchProjects | .createProject _ => []
  | .fetchActiveIssuesByProject projectId | .fetchArchivedIssuesByProject projectId
  | .fetchOpenIssuesByProject projectId | .createIssue projectId _ | .updateIssuePositions projectId _
  | .fetchLabelsByProject projectId | .createLabel projectId _ | .updateProject projectId _
  | .deleteProject projectId _ | .fetchStatusConfig projectId | .updateStatusConfig projectId _
  | .fetchReleases projectId | .createRelease projectId _ => [projectId]
  | .updateUser id _ | .deleteUser id _ => [id]
  | .fetchIssueById projectId id | .updateIssue projectId id _ _ | .archiveIssue projectId id
  | .unarchiveIssue projectId id | .moveIssue projectId id _ | .deleteIssue projectId id _
  | .createTask projectId id _ | .updateTaskPositions projectId id _ | .fetchHistory projectId id
  | .fetchComments projectId id | .createComment projectId id _ | .deleteLabel projectId id _
  | .updateRelease projectId id _ | .deleteRelease projectId id _ | .reopenRelease projectId id
  | .triggerRelease projectId id _ => [projectId, id]
  | .updateTask projectId issueId id _ | .deleteTask projectId issueId id | .updateComment projectId issueId id _
  | .deleteComment projectId issueId id => [projectId, issueId, id]

section Meant

variable (env : Env) (browser : Browser) (caller : Caller)

/-- The handler that only reads, with the ids of the URL. -/
def ApiCall.reads (call : ApiCall) : Outcome := .read caller call.route.endpoint (call.route.vars call.ids)

/-- **What each call is meant for**, for the caller of the access token and with the body as far as it is read. -/
def ApiCall.meant (call : ApiCall) : Outcome :=
  let sent := call.options.sent.limited
  match call with
  | .renewSession => .serve (.refresh browser.ip browser.refreshToken)
  | .reauthenticate _ => .serve (.login browser.ip (env.wire.login sent))
  | .logout => .serve (.logout browser.refreshToken)
  | .createIssue p _ => .serve (.createIssue caller (some p) (env.wire.issue sent))
  | .updateIssue p i _ etag => .serve (.putIssue caller (some p) (some i) (etag.getD "") (env.wire.issue sent))
  | .updateIssuePositions p _ => .serve (.putIssuePositions caller (some p) (env.wire.positions sent))
  | .fetchIssueById p i => .serve (.getIssue caller (some p) (some i))
  | .archiveIssue p i => .serve (.archiveIssue caller (some p) (some i))
  | .unarchiveIssue p i => .serve (.unarchiveIssue caller (some p) (some i))
  | .moveIssue p i _ => .serve (.moveIssue caller (some p) (some i) (env.wire.move sent))
  | .deleteIssue p i _ => .serve (.deleteIssue caller (some p) (some i) (env.wire.adminPassword sent))
  | .createTask p i _ => .serve (.createTask caller (some p) (some i) (env.wire.task sent))
  | .updateTask p i t _ => .serve (.putTask caller (some p) (some i) (some t) (env.wire.task sent))
  | .updateTaskPositions p i _ => .serve (.putTaskPositions caller (some p) (some i) (env.wire.positions sent))
  | .deleteTask p i t => .serve (.deleteTask caller (some p) (some i) (some t))
  | .createComment p i _ => .serve (.createComment caller (some p) (some i) (env.wire.comment sent))
  | .updateComment p i c _ => .serve (.putComment caller (some p) (some i) (some c) (env.wire.comment sent))
  | .deleteComment p i c => .serve (.deleteComment caller (some p) (some i) (some c))
  | .createLabel p _ => .serve (.createLabel caller (some p) (env.wire.label sent))
  | .deleteLabel p l _ => .serve (.deleteLabel caller (some p) (some l) (env.wire.adminPassword sent))
  | .fetchVersion => .respond { status := 200, payload := .text env.version }
  | .createUser _ => .serve (.createUser caller (env.wire.user sent))
  | .updateUser u _ => .serve (.updateUser caller (some u) (env.wire.user sent))
  | .deleteUser u _ => .serve (.deleteUser caller (some u) (env.wire.adminPassword sent))
  | .updateCurrentUser _ => .serve (.updateSelf caller (env.wire.user sent))
  | .createProject _ => .serve (.createProject caller (env.wire.project sent))
  | .updateProject p _ => .serve (.updateProject caller (some p) (env.wire.project sent))
  | .deleteProject p _ => .serve (.deleteProject caller (some p) (env.wire.adminPassword sent))
  | .fetchStatusConfig p => .serve (.getStatusConfig caller (some p))
  | .updateStatusConfig p _ => .serve (.updateStatusConfig caller (some p) (env.wire.statusConfig sent))
  | .createRelease p _ => .serve (.createRelease caller (some p) (env.wire.release sent))
  | .updateRelease p r _ => .serve (.putRelease caller (some p) (some r) (env.wire.release sent))
  | .deleteRelease p r _ => .serve (.deleteRelease caller (some p) (some r) (env.wire.adminPassword sent))
  | .reopenRelease p r => .serve (.reopenRelease caller (some p) (some r))
  | .triggerRelease p r _ => .serve (.triggerRelease caller (some p) (some r) (env.wire.trigger sent))
  | .hasValidSession | .fetchCurrentUser | .fetchActiveIssuesByProject _ | .fetchArchivedIssuesByProject _
  | .fetchOpenIssuesByProject _ | .fetchHistory _ _ | .fetchComments _ _ | .fetchLabelsByProject _ | .fetchUsers
  | .fetchProjects | .fetchReleases _ => call.reads caller

end Meant

/-! ### The way of a call -/

theorem ApiCall.route_mem (call : ApiCall) : call.route ∈ Mux.apiRoutes := by
  cases call <;> (dsimp only [ApiCall.route]; decide +kernel)

theorem ApiCall.as_many (call : ApiCall) :
    call.ids.length = (Pattern.names call.route.pattern.segments).length := by
  cases call <;> rfl

theorem ApiCall.method_eq (call : ApiCall) : call.options.method = call.route.method := by
  cases call <;> rfl

/-- Every URL is a path of its route. -/
theorem ApiCall.url_eq (call : ApiCall) :
    ∃ segments, call.options.url = apiPath segments ∧ call.route.fill call.ids = "api" :: segments := by
  cases call <;> exact ⟨_, rfl, rfl⟩

section Reach

variable {env : Env} {now : Instant} {clock : Clock} {limiter : KeyedLimiter Int} {http : HttpRequest} {r : Route}
  {claims : AccessToken}

/-- The request passes the middlewares before the token. -/
structure HttpRequest.WellFormed (http : HttpRequest) : Prop where
  unqueried : http.rawQuery = ""
  typed : http.method = .post ∨ http.method = .put → http.contentType = "application/json"

/-- The request with its body as far as it is read. -/
def HttpRequest.limited (http : HttpRequest) : HttpRequest := { http with body := http.body.limited }

theorem commonAPI_passes (wellFormed : http.WellFormed) (h : Serving) (caller : Option Caller) :
    commonAPI h http caller limiter = h http.limited caller limiter := by
  have typed : ¬ ((http.method = .post ∨ http.method = .put) ∧
      ¬ ("application/json".isPrefixOf http.contentType = true)) := fun ⟨writes, other⟩ => by
    rw [wellFormed.typed writes] at other
    exact other (by decide +kernel)
  unfold commonAPI validatePathMiddleware limitBodyMiddleware requireJSONMiddleware
  dsimp only
  rw [if_neg (not_not.mpr wellFormed.unqueried), if_neg typed]
  rfl

/-- The limiter lets the caller pass. -/
def LetsPass (env : Env) (clock : Clock) (limiter : KeyedLimiter Int) (method : Method) (userID : Int) : Prop :=
  env.apiRateLimitEnabled = false ∨ method.writes = false ∨ userID = 0 ∨ (limiter.allow userID clock).1 = some true

theorem authAPI_passes (wellFormed : http.WellFormed) {h : Serving}
    (valid : http.accessToken.bind (validateToken env now) = some claims)
    (passes : LetsPass env clock limiter http.method claims.userID)
    (free : ∀ http caller limiter limiter', (h http caller limiter).1 = (h http caller limiter').1) :
    (authAPI env now clock h http none limiter).1 = (h http.limited (some claims.caller) limiter).1 := by
  show (commonAPI (authMiddleware env now (userRateLimitMiddleware env clock h)) http none limiter).1 = _
  rw [commonAPI_passes wellFormed]
  unfold authMiddleware
  rw [show http.limited.accessToken = http.accessToken from rfl, valid]
  unfold userRateLimitMiddleware
  dsimp only
  split
  · rfl
  · rename_i limited
    rw [not_or, not_or] at limited
    have allow : (limiter.allow claims.userID clock).1 = some true :=
      (passes.resolve_left limited.1).resolve_left limited.2.1 |>.resolve_left limited.2.2
    have asked : limiter.allow claims.caller.userID clock = (some true, (limiter.allow claims.userID clock).2) :=
      Prod.ext allow rfl
    rw [asked]
    exact free _ _ _ _

variable {call : ApiCall} {browser : Browser}

/-- The path of the URL of a call. -/
theorem ApiCall.path_eq (positive : ∀ id ∈ call.ids, 0 < id) :
    urlPath call.options.url = call.route.fill call.ids ∧ urlQuery call.options.url = "" := by
  obtain ⟨segments, url, filled⟩ := call.url_eq
  have plain : ∀ s ∈ segments, Plain s := fun s inside =>
    (fill_plain call.route_mem positive (filled ▸ List.mem_cons_of_mem _ inside)).1
  rw [url, filled]
  exact ⟨urlPath_apiPath plain, urlQuery_apiPath plain⟩

theorem ApiCall.typed (call : ApiCall) (writes : call.options.method = .post ∨ call.options.method = .put) :
    call.options.json = true := by
  cases call <;> first | rfl | (rcases writes with get | get <;> cases get)

theorem ApiCall.wellFormed (positive : ∀ id ∈ call.ids, 0 < id) : (call.options.request browser).WellFormed where
  unqueried := (ApiCall.path_eq positive).2
  typed writes := if_pos (call.typed writes)

theorem ApiCall.chain_api (call : ApiCall) : call.route.chain ≠ .files := by
  cases call <;> exact Chain.noConfusion

/-- What a call is meant for is what its handler does with its ids. -/
theorem ApiCall.meant_eq (call : ApiCall) :
    call.meant env browser claims.caller =
      if call.route.chain = .commonAPI then
        call.route.endpoint.handlePublic env (call.options.request browser).limited
      else
        call.route.endpoint.handle env (call.options.request browser).limited claims.caller
          (call.route.vars call.ids) := by
  cases call with
  | updateIssue p i issue etag =>
      have header : (etag.filter (· ≠ "")).getD "" = etag.getD "" := by
        cases etag with
        | none => rfl
        | some etag => by_cases empty : etag = "" <;> simp [Option.filter, empty]
      show Outcome.serve (.putIssue _ _ _ (etag.getD "") _) =
        .serve (.putIssue _ _ _ ((etag.filter (· ≠ "")).getD "") _)
      rw [header]
      rfl
  | _ => rfl

end Reach

/-- The browser of user 7. -/
def sevenBrowser : Browser := ⟨some "token", none, "192.0.2.1"⟩

end Wuflow

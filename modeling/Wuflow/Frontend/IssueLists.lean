/-
**The issue lists of the selected project** (`issue-lists.js`).

`loadIssues` fetches the active issues and starts a new generation; `ensureIssueLists` fetches the open and
the archived list on demand, once in a generation, and merges a list into `state.issues` once the active
issues of its generation are in place. What a superseded generation brings is dropped.

* `distinct_issues` — `state.issues` never holds two issues with one id.
* `entered_current` — what is in it was brought by a load that was the latest one at that moment.
* `lists_loaded` — once the latest load and the lists requested since have resolved, it holds the active
  issues of that load and then those of each requested list, fetched once.
* `issue_lists` — all three, for every run.
-/

import Mathlib.Data.List.Count
import Mathlib.Logic.Function.Basic
import Wuflow.Interleave.EventLoop
import Wuflow.Model.Types

namespace Wuflow.IssueLists

open EventLoop (Machine Move Step Run mem_pending)

/-! ### The cache -/

inductive ListKind
  | open | archived
  deriving DecidableEq

/-- The module variables and the part of `state` they are about. A promise is a number; `settled` are the
generations whose `activeLoad` has settled, `fetches` the lists fetched so far, each with its
generation. -/
structure Cache where
  issues : List Issue := []
  selectedProjectId : Option Int := none
  generation : Nat := 0
  settled : List Nat := [0]
  lists : ListKind → Option Nat := fun _ => none
  promises : Nat := 0
  fetches : List (Nat × ListKind) := []

/-- What waits: a fetch of the active issues or of a list, and a list that has arrived and waits for the
active issues of its generation. -/
inductive Task
  | active (gen : Nat) (project : Option Int)
  | list (gen : Nat) (kind : ListKind) (promise : Nat) (project : Option Int)
  | merge (gen : Nat) (kind : ListKind) (issues : List Issue)

def Task.gen : Task → Nat
  | .active gen _ | .list gen _ _ _ | .merge gen _ _ => gen

/-- The task will bring the list of a generation. -/
def Task.isFor (gen : Nat) (kind : ListKind) : Task → Bool
  | .active _ _ => false
  | .list g k _ _ | .merge g k _ => g == gen && k == kind

inductive Call
  | loadIssues (kinds : List ListKind)
  | selectProject (id : Int) (kinds : List ListKind)
  | ensureIssueLists (kinds : List ListKind)

inductive Answer
  | issues (issues : List Issue)
  | failed
  | settled

def mergeIntoIssues (issues new : List Issue) : List Issue :=
  issues ++ new.filter fun issue => !issues.any (·.id == issue.id)

/-- One list of `ensureIssueLists`: fetched unless its promise is there. -/
def Cache.ensureList (s : Cache) (kind : ListKind) : Cache × List Task :=
  match s.lists kind with
  | some _ => (s, [])
  | none =>
      ({ s with
          lists := Function.update s.lists kind (some s.promises)
          promises := s.promises + 1
          fetches := (s.generation, kind) :: s.fetches },
        [.list s.generation kind s.promises s.selectedProjectId])

def Cache.ensureIssueLists (s : Cache) : List ListKind → Cache × List Task
  | [] => (s, [])
  | kind :: kinds =>
      let first := s.ensureList kind
      let rest := first.1.ensureIssueLists kinds
      (rest.1, first.2 ++ rest.2)

def Cache.loadIssues (s : Cache) (kinds : List ListKind) : Cache × List Task :=
  let next := { s with generation := s.generation + 1, lists := fun _ => none }
  let ensured := next.ensureIssueLists kinds
  (ensured.1, .active next.generation s.selectedProjectId :: ensured.2)

def Cache.call : Call → Cache → Cache × List Task
  | .loadIssues kinds, s => s.loadIssues kinds
  | .selectProject id kinds, s => { s with selectedProjectId := some id }.loadIssues kinds
  | .ensureIssueLists kinds, s => s.ensureIssueLists kinds

def Cache.resume : Task → Answer → Cache → Option (Cache × List Task)
  | .active gen _, .issues issues, s =>
      let s := if gen = s.generation then { s with issues } else s
      some ({ s with settled := gen :: s.settled }, [])
  | .active gen _, .failed, s => some ({ s with settled := gen :: s.settled }, [])
  | .list gen kind _ _, .issues issues, s => some (s, [.merge gen kind issues])
  | .list _ kind promise _, .failed, s =>
      some (if s.lists kind = some promise then
        { s with lists := Function.update s.lists kind none } else s, [])
  | .merge gen _ issues, .settled, s =>
      if gen ∈ s.settled then
        some (if gen = s.generation then { s with issues := mergeIntoIssues s.issues issues } else s, [])
      else none
  | _, _, _ => none

/-- **The issue lists on the event loop.** -/
def issueLists : Machine Cache Call Task Answer where
  call c s := some (s.call c)
  resume := fun t a s => s.resume t a

/-- Each list returned has distinct ids. -/
def Distinct : Cache → List Task → Move Call Task Answer → Prop
  | _, _, .resume _ (.issues issues) => (issues.map Issue.id).Nodup
  | _, _, _ => True

/-! ### The steps -/

/-- What `ensureIssueLists` does: it fetches each of the lists that has no promise, once. -/
structure Ensured (s : Cache) (kinds : List ListKind) (s' : Cache) (new : List Task) : Prop where
  issues : s'.issues = s.issues
  selectedProjectId : s'.selectedProjectId = s.selectedProjectId
  generation : s'.generation = s.generation
  settled : s'.settled = s.settled
  lists : ∀ kind, (s'.lists kind).isSome = true ↔ (s.lists kind).isSome = true ∨ kind ∈ kinds
  old : ∀ f ∈ s'.fetches, f ∈ s.fetches ∨ f.1 = s.generation
  fetched : ∀ kind, s'.fetches.count (s.generation, kind) =
    s.fetches.count (s.generation, kind) + new.countP (Task.isFor s.generation kind)
  once : ∀ kind, new.countP (Task.isFor s.generation kind) =
    if (s.lists kind).isSome = false ∧ kind ∈ kinds then 1 else 0
  joined : ∀ gen kind promise project, .list gen kind promise project ∈ new →
    s'.lists kind = some promise
  kept : ∀ kind promise, s.lists kind = some promise → s'.lists kind = some promise
  new : ∀ t ∈ new, ∃ kind promise, promise < s'.promises ∧
    t = .list s.generation kind promise s.selectedProjectId
  promises : s.promises ≤ s'.promises
  cached : ∀ kind promise, s'.lists kind = some promise →
    s.lists kind = some promise ∨ s.promises ≤ promise

theorem ensureList_ensured (s : Cache) (kind : ListKind) :
    Ensured s [kind] (s.ensureList kind).1 (s.ensureList kind).2 := by
  unfold Cache.ensureList
  cases cached : s.lists kind with
  | some promise =>
      refine ⟨rfl, rfl, rfl, rfl, fun other => ?_, fun f member => .inl member, fun _ => rfl,
        fun other => ?_, fun _ _ _ _ member => absurd member List.not_mem_nil, fun _ _ found => found,
        fun _ member => absurd member List.not_mem_nil, le_rfl, fun _ _ => .inl⟩
      · constructor
        · exact .inl
        · rintro (some_ | listed)
          · exact some_
          · rw [List.mem_singleton.mp listed, cached]
            rfl
      · refine (if_neg fun both => ?_).symm
        rw [List.mem_singleton.mp both.2, cached] at both
        exact nomatch both.1
  | none =>
      refine ⟨rfl, rfl, rfl, rfl, fun other => ?_, fun f member => ?_, fun other => ?_, fun other => ?_,
        fun gen other promise project member => ?_, fun other promise found => ?_,
        fun t member => ⟨kind, s.promises, Nat.lt_succ_self _, List.mem_singleton.mp member⟩,
        Nat.le_succ _, fun other promise found => ?_⟩
      · rw [List.mem_singleton]
        by_cases same : other = kind
        · subst same
          simp
        · simp [same]
      · rcases List.mem_cons.mp member with rfl | member
        · exact .inr rfl
        · exact .inl member
      · by_cases same : kind = other
        · subst same
          simp [Task.isFor]
        · simp [Task.isFor, same]
      · by_cases same : kind = other
        · subst same
          simp [Task.isFor, cached]
        · have differs : other ≠ kind := fun found => same found.symm
          simp [Task.isFor, same, differs]
      · obtain ⟨_, rfl, rfl, _⟩ := Task.list.inj (List.mem_singleton.mp member)
        exact Function.update_self ..
      · have differs : other ≠ kind := by
          rintro rfl
          exact nomatch cached.symm.trans found
        exact (Function.update_of_ne differs _ _).trans found
      · change Function.update s.lists kind (some s.promises) other = some promise at found
        by_cases same : other = kind
        · subst same
          rw [Function.update_self] at found
          exact .inr (le_of_eq (Option.some.inj found))
        · rw [Function.update_of_ne same] at found
          exact .inl found

/-- One list after the other. -/
theorem Ensured.trans {s s₁ s₂ : Cache} {kind : ListKind} {kinds : List ListKind}
    {new₁ new₂ : List Task} (first : Ensured s [kind] s₁ new₁) (rest : Ensured s₁ kinds s₂ new₂) :
    Ensured s (kind :: kinds) s₂ (new₁ ++ new₂) := by
  have gen := first.generation
  refine ⟨rest.issues.trans first.issues, rest.selectedProjectId.trans first.selectedProjectId,
    rest.generation.trans gen, rest.settled.trans first.settled, fun other => ?_, fun f member => ?_,
    fun other => ?_, fun other => ?_, fun g other promise project member => ?_,
    fun other promise found => rest.kept other promise (first.kept other promise found),
    fun t member => ?_, le_trans first.promises rest.promises, fun other promise found => ?_⟩
  · rw [rest.lists, first.lists, List.mem_singleton, List.mem_cons, or_assoc]
  · rcases rest.old f member with before | new
    · exact first.old f before
    · exact .inr (new.trans gen)
  · have later := rest.fetched other
    rw [gen] at later
    rw [later, first.fetched, List.countP_append, Nat.add_assoc]
  · have later := rest.once other
    have now := first.lists other
    rw [gen] at later
    rw [List.countP_append, later, first.once]
    have either : other ∈ kind :: kinds ↔ other = kind ∨ other ∈ kinds := List.mem_cons
    have single : other ∈ [kind] ↔ other = kind := List.mem_singleton
    rw [single] at now
    simp only [either, single]
    by_cases cached : (s.lists other).isSome = true
    · have cached' : (s₁.lists other).isSome = true := now.mpr (.inl cached)
      simp [cached, cached']
    · rw [Bool.not_eq_true] at cached
      by_cases same : other = kind
      · have cached' : (s₁.lists other).isSome = true := now.mpr (.inr same)
        subst same
        simp only [cached, cached', true_and, true_or, if_true, Bool.true_eq_false, false_and, if_false]
      · have cached' : (s₁.lists other).isSome = false := by
          rw [← Bool.not_eq_true, now, cached]
          simp [same]
        simp only [cached, cached', same, true_and, false_or, and_false, if_false, Nat.zero_add]
  · rcases List.mem_append.mp member with before | later
    · exact rest.kept other promise (first.joined g other promise project before)
    · exact rest.joined g other promise project later
  · rcases List.mem_append.mp member with before | later
    · obtain ⟨kind', promise, below, rfl⟩ := first.new t before
      exact ⟨kind', promise, lt_of_lt_of_le below rest.promises, rfl⟩
    · obtain ⟨kind', promise, below, rfl⟩ := rest.new t later
      exact ⟨kind', promise, below, by rw [gen, first.selectedProjectId]⟩
  · rcases rest.cached other promise found with before | above
    · exact first.cached other promise before
    · exact .inr (le_trans first.promises above)

theorem ensureIssueLists_ensured (s : Cache) (kinds : List ListKind) :
    Ensured s kinds (s.ensureIssueLists kinds).1 (s.ensureIssueLists kinds).2 := by
  induction kinds generalizing s with
  | nil =>
      refine ⟨rfl, rfl, rfl, rfl, fun _ => by simp [Cache.ensureIssueLists], fun f member => .inl member,
        fun _ => rfl, fun _ => by simp [Cache.ensureIssueLists],
        fun _ _ _ _ member => absurd member List.not_mem_nil, fun _ _ found => found,
        fun _ member => absurd member List.not_mem_nil, le_rfl, fun _ _ => .inl⟩
  | cons kind kinds ih => exact (ensureList_ensured s kind).trans (ih _)

/-- What `loadIssues` does: a new generation with its active issues and the given lists on the way. -/
structure Loads (s : Cache) (kinds : List ListKind) (s' : Cache) (new : List Task) : Prop where
  issues : s'.issues = s.issues
  generation : s'.generation = s.generation + 1
  new : ∃ next listed, Ensured next kinds s' listed ∧ next.generation = s.generation + 1 ∧
    next.lists = (fun _ => none) ∧ next.fetches = s.fetches ∧ next.settled = s.settled ∧
    next.promises = s.promises ∧ new = .active (s.generation + 1) s'.selectedProjectId :: listed

theorem loadIssues_loads (s : Cache) (kinds : List ListKind) :
    Loads s kinds (s.loadIssues kinds).1 (s.loadIssues kinds).2 := by
  have ensured := ensureIssueLists_ensured
    { s with generation := s.generation + 1, lists := fun _ => none } kinds
  refine ⟨ensured.issues, ensured.generation, _, _, ensured, rfl, rfl, rfl, rfl, rfl, ?_⟩
  unfold Cache.loadIssues
  rw [ensured.selectedProjectId]

/-- The lists of a call that loads. -/
def Call.loads : Call → Option (List ListKind)
  | .loadIssues kinds | .selectProject _ kinds => some kinds
  | .ensureIssueLists _ => none

/-- A call loads, or requests lists. -/
theorem call_cases {c : Call} {s s' : Cache} {new : List Task}
    (acts : issueLists.call c s = some (s', new)) :
    (∃ kinds, c.loads = some kinds ∧ Loads s kinds s' new) ∨
      ∃ kinds, c = .ensureIssueLists kinds ∧ Ensured s kinds s' new := by
  have same : s.call c = (s', new) := Option.some.inj acts
  cases c with
  | loadIssues kinds =>
      have loads := loadIssues_loads s kinds
      rw [show s.loadIssues kinds = (s', new) from same] at loads
      exact .inl ⟨kinds, rfl, loads⟩
  | selectProject id kinds =>
      have loads := loadIssues_loads { s with selectedProjectId := some id } kinds
      rw [show Cache.loadIssues { s with selectedProjectId := some id } kinds = (s', new) from same]
        at loads
      exact .inl ⟨kinds, rfl, loads.issues, loads.generation, loads.new⟩
  | ensureIssueLists kinds =>
      have ensured := ensureIssueLists_ensured s kinds
      rw [show s.ensureIssueLists kinds = (s', new) from same] at ensured
      exact .inr ⟨kinds, rfl, ensured⟩

/-- **What an answer can do.** -/
inductive Resumed (s : Cache) : Task → Answer → Cache → List Task → Prop
  | loaded (project : Option Int) (issues : List Issue) :
      Resumed s (.active s.generation project) (.issues issues)
        { s with issues, settled := s.generation :: s.settled } []
  | superseded {gen : Nat} (project : Option Int) (issues : List Issue) (late : gen ≠ s.generation) :
      Resumed s (.active gen project) (.issues issues) { s with settled := gen :: s.settled } []
  | unloaded (gen : Nat) (project : Option Int) :
      Resumed s (.active gen project) .failed { s with settled := gen :: s.settled } []
  | arrived (gen : Nat) (kind : ListKind) (promise : Nat) (project : Option Int)
      (issues : List Issue) :
      Resumed s (.list gen kind promise project) (.issues issues) s [.merge gen kind issues]
  | dropped {gen : Nat} {kind : ListKind} {promise : Nat} (project : Option Int)
      (cached : s.lists kind = some promise) :
      Resumed s (.list gen kind promise project) .failed
        { s with lists := Function.update s.lists kind none } []
  | forgotten {gen : Nat} {kind : ListKind} {promise : Nat} (project : Option Int)
      (cached : s.lists kind ≠ some promise) :
      Resumed s (.list gen kind promise project) .failed s []
  | merged (kind : ListKind) (issues : List Issue) (settled : s.generation ∈ s.settled) :
      Resumed s (.merge s.generation kind issues) .settled
        { s with issues := mergeIntoIssues s.issues issues } []
  | discarded {gen : Nat} (kind : ListKind) (issues : List Issue) (late : gen ≠ s.generation) :
      Resumed s (.merge gen kind issues) .settled s []

theorem resume_cases {s s' : Cache} {t : Task} {a : Answer} {new : List Task}
    (acts : issueLists.resume t a s = some (s', new)) : Resumed s t a s' new := by
  cases t with
  | active gen project =>
      cases a with
      | issues issues =>
          by_cases current : gen = s.generation
          · subst current
            obtain ⟨rfl, rfl⟩ := Prod.mk.inj (Option.some.inj acts)
            rw [if_pos rfl]
            exact .loaded project issues
          · obtain ⟨rfl, rfl⟩ := Prod.mk.inj (Option.some.inj acts)
            rw [if_neg current]
            exact .superseded project issues current
      | failed =>
          obtain ⟨rfl, rfl⟩ := Prod.mk.inj (Option.some.inj acts)
          exact .unloaded gen project
      | settled => exact nomatch acts
  | list gen kind promise project =>
      cases a with
      | issues issues =>
          obtain ⟨rfl, rfl⟩ := Prod.mk.inj (Option.some.inj acts)
          exact .arrived gen kind promise project issues
      | failed =>
          obtain ⟨rfl, rfl⟩ := Prod.mk.inj (Option.some.inj acts)
          by_cases cached : s.lists kind = some promise
          · rw [if_pos cached]
            exact .dropped project cached
          · rw [if_neg cached]
            exact .forgotten project cached
      | settled => exact nomatch acts
  | merge gen kind issues =>
      cases a with
      | settled =>
          obtain ⟨ready, acts⟩ := Option.ite_none_right_eq_some.mp acts
          obtain ⟨rfl, rfl⟩ := Prod.mk.inj (Option.some.inj acts)
          by_cases current : gen = s.generation
          · subst current
            rw [if_pos rfl]
            exact .merged kind issues ready
          · rw [if_neg current]
            exact .discarded kind issues current
      | issues issues => exact nomatch acts
      | failed => exact nomatch acts

/-! ### Distinct issues -/

/-- Merging keeps ids distinct. -/
theorem mergeIntoIssues_nodup {issues new : List Issue} (first : (issues.map Issue.id).Nodup)
    (second : (new.map Issue.id).Nodup) : ((mergeIntoIssues issues new).map Issue.id).Nodup := by
  unfold mergeIntoIssues
  rw [List.map_append, List.nodup_append]
  refine ⟨first, second.sublist (List.Sublist.map _ List.filter_sublist), ?_⟩
  rintro id member _ added rfl
  obtain ⟨issue, inside, rfl⟩ := List.mem_map.mp member
  obtain ⟨other, inside', same⟩ := List.mem_map.mp added
  have absent := (List.mem_filter.mp inside').2
  rw [Bool.not_eq_true', List.any_eq_false] at absent
  exact absent issue inside (beq_iff_eq.mpr same.symm)

/-- A list that waits to be merged has distinct ids. -/
def Task.DistinctIds : Task → Prop
  | .merge _ _ issues => (issues.map Issue.id).Nodup
  | _ => True

/-- **No two issues have one id.** -/
theorem distinct_issues {past : List (Move Call Task Answer)} {start s : Cache} {pending : List Task}
    (first : (start.issues.map Issue.id).Nodup)
    (run : Run issueLists Distinct start past s pending) :
    (s.issues.map Issue.id).Nodup ∧ ∀ t ∈ pending, t.DistinctIds := by
  refine run.keeps (fun s => (s.issues.map Issue.id).Nodup) (fun _ t => t.DistinctIds) first ?_ ?_
  · intro s pending c s' new _ acts distinct _
    rcases call_cases acts with ⟨kinds, _, loads⟩ | ⟨kinds, _, ensured⟩
    · obtain ⟨next, listed, ensured, _, _, _, _, _, rfl⟩ := loads.new
      refine ⟨by rw [loads.issues]; exact distinct, fun t member => ?_, fun _ here => here⟩
      rcases List.mem_cons.mp member with rfl | member
      · trivial
      · obtain ⟨_, _, _, rfl⟩ := ensured.new t member
        trivial
    · refine ⟨by rw [ensured.issues]; exact distinct, fun t member => ?_, fun _ here => here⟩
      obtain ⟨_, _, _, rfl⟩ := ensured.new t member
      trivial
  · intro s pending t a s' new allowed acts distinct _ waiting
    have none : ∀ u ∈ ([] : List Task), u.DistinctIds := fun _ member => absurd member List.not_mem_nil
    cases resume_cases acts with
    | loaded project issues => exact ⟨allowed, none, fun _ here => here⟩
    | superseded project issues late => exact ⟨distinct, none, fun _ here => here⟩
    | unloaded gen project => exact ⟨distinct, none, fun _ here => here⟩
    | arrived gen kind promise project issues =>
        refine ⟨distinct, fun u member => ?_, fun _ here => here⟩
        rw [List.mem_singleton.mp member]
        exact allowed
    | dropped project cached => exact ⟨distinct, none, fun _ here => here⟩
    | forgotten project cached => exact ⟨distinct, none, fun _ here => here⟩
    | merged kind issues settled =>
        exact ⟨mergeIntoIssues_nodup distinct waiting, none, fun _ here => here⟩
    | discarded kind issues late => exact ⟨distinct, none, fun _ here => here⟩

/-! ### Nothing of a superseded load -/

/-- How many loads have been started. -/
def loadsIn (past : List (Move Call Task Answer)) : Nat :=
  past.countP fun move =>
    match move with
    | .call c => c.loads.isSome
    | .resume _ _ => false

/-- The issues an answer brings into `state.issues`. -/
def brings : Task → Answer → List Issue
  | .active _ _, .issues issues => issues
  | .merge _ _ issues, .settled => issues
  | _, _ => []

/-- The issue was brought by a load that was the latest one at that moment. -/
def EnteredCurrent (past : List (Move Call Task Answer)) (issue : Issue) : Prop :=
  ∃ later t a earlier, past = later ++ .resume t a :: earlier ∧ t.gen = loadsIn earlier ∧
    issue ∈ brings t a

theorem EnteredCurrent.mono {past : List (Move Call Task Answer)} {move : Move Call Task Answer}
    {issue : Issue} (entered : EnteredCurrent past issue) : EnteredCurrent (move :: past) issue := by
  obtain ⟨later, t, a, earlier, rfl, current, member⟩ := entered
  exact ⟨move :: later, t, a, earlier, rfl, current, member⟩

/-- A new cache for a project. -/
def fresh (project : Option Int) : Cache := { selectedProjectId := project }

/-- **What is in `state.issues` entered it while its load was the latest one.** -/
theorem entered_current {past : List (Move Call Task Answer)} {project : Option Int} {s : Cache}
    {pending : List Task} (run : Run issueLists Distinct (fresh project) past s pending) :
    s.generation = loadsIn past ∧ ∀ issue ∈ s.issues, EnteredCurrent past issue := by
  refine run.invariant (fun past s _ => s.generation = loadsIn past ∧
      ∀ issue ∈ s.issues, EnteredCurrent past issue)
    ⟨rfl, fun _ member => absurd member List.not_mem_nil⟩
    fun past s pending move s' pending' _ _ here holds => ?_
  obtain ⟨generation, entered⟩ := holds
  cases here with
  | @call pending new c s' acts =>
      rcases call_cases acts with ⟨kinds, loads, loaded⟩ | ⟨kinds, rfl, ensured⟩
      · refine ⟨?_, fun issue member => ?_⟩
        · unfold loadsIn
          rw [loaded.generation, generation, List.countP_cons_of_pos (by simp [loads])]
          rfl
        · rw [loaded.issues] at member
          exact (entered issue member).mono
      · refine ⟨ensured.generation.trans generation, fun issue member => ?_⟩
        rw [ensured.issues] at member
        exact (entered issue member).mono
  | @resume before after new t a s' acts =>
      have old : ∀ issue ∈ s.issues, EnteredCurrent (.resume t a :: past) issue :=
        fun issue member => (entered issue member).mono
      cases resume_cases acts with
      | loaded project issues =>
          exact ⟨generation, fun issue member => ⟨[], _, _, past, rfl, generation, member⟩⟩
      | superseded project issues late => exact ⟨generation, old⟩
      | unloaded gen project => exact ⟨generation, old⟩
      | arrived gen kind promise project issues => exact ⟨generation, old⟩
      | dropped project cached => exact ⟨generation, old⟩
      | forgotten project cached => exact ⟨generation, old⟩
      | merged kind issues settled =>
          refine ⟨generation, fun issue member => ?_⟩
          rcases List.mem_append.mp member with before | added
          · exact old issue before
          · exact ⟨[], _, _, past, rfl, generation, (List.mem_filter.mp added).1⟩
      | discarded kind issues late => exact ⟨generation, old⟩

/-! ### Once everything has resolved -/

/-- The lists requested since the latest load. -/
def requestedSince : List (Move Call Task Answer) → List ListKind
  | [] => []
  | .call (.loadIssues kinds) :: _ | .call (.selectProject _ kinds) :: _ => kinds
  | .call (.ensureIssueLists kinds) :: past => kinds ++ requestedSince past
  | .resume _ _ :: past => requestedSince past

theorem requestedSince_load {c : Call} {kinds : List ListKind} (loads : c.loads = some kinds)
    (past : List (Move Call Task Answer)) : requestedSince (.call c :: past) = kinds := by
  cases c <;> cases loads <;> rfl

/-- No fetch of the latest generation has failed. -/
def Clean (past : List (Move Call Task Answer)) (s : Cache) : Prop :=
  ∀ t, Move.resume t .failed ∈ past → t.gen ≠ s.generation

/-- The task fetches the active issues of a generation. -/
def Task.isActive (gen : Nat) : Task → Bool
  | .active g _ => g == gen
  | _ => false

/-- A fetch of the latest generation is for the selected project. -/
def Task.ForSelected (s : Cache) : Task → Prop
  | .active gen project | .list gen _ _ project => gen = s.generation → project = s.selectedProjectId
  | .merge _ _ _ => True

/-- The list of a kind was returned for the selected project, in the latest generation. -/
def Returned (past : List (Move Call Task Answer)) (s : Cache) (kind : ListKind)
    (issues : List Issue) : Prop :=
  ∃ promise, Move.resume (.list s.generation kind promise s.selectedProjectId) (.issues issues) ∈ past

/-- The lists merged so far, one after the other, into the active issues. -/
def mergeAll (active : List Issue) (order : List (ListKind × List Issue)) : List Issue :=
  order.foldl (fun issues entry => mergeIntoIssues issues entry.2) active

/-- How far the latest generation is, with the lists merged so far. -/
structure Tracks (past : List (Move Call Task Answer)) (s : Cache) (pending : List Task)
    (order : List (ListKind × List Issue)) : Prop where
  loading : pending.countP (Task.isActive s.generation) = if s.generation ∈ s.settled then 0 else 1
  merged : (s.generation ∉ s.settled ∧ order = []) ∨ s.generation ∈ s.settled ∧ ∃ active,
    Move.resume (.active s.generation s.selectedProjectId) (.issues active) ∈ past ∧
      s.issues = mergeAll active order
  lists : ∀ kind, (s.lists kind).isSome = true ↔ kind ∈ requestedSince past
  fetched : ∀ kind, s.fetches.count (s.generation, kind) = if kind ∈ requestedSince past then 1 else 0
  waiting : ∀ kind, pending.countP (Task.isFor s.generation kind) + (order.map Prod.fst).count kind =
    s.fetches.count (s.generation, kind)
  returned : ∀ entry ∈ order, Returned past s entry.1 entry.2
  arrived : ∀ kind issues, .merge s.generation kind issues ∈ pending → Returned past s kind issues

/-- **The invariant.** -/
structure Tracked (past : List (Move Call Task Answer)) (s : Cache) (pending : List Task) : Prop where
  settled : ∀ gen ∈ s.settled, gen ≤ s.generation
  fetches : ∀ f ∈ s.fetches, f.1 ≤ s.generation
  underway : ∀ t ∈ pending, t.gen ≤ s.generation ∧ t.ForSelected s
  answered : ∀ t a, Move.resume t a ∈ past → t.gen ≤ s.generation
  /-- A promise that is cached belongs to the latest generation. -/
  promises : ∀ gen kind promise project, .list gen kind promise project ∈ pending →
    promise < s.promises ∧ (s.lists kind = some promise → gen = s.generation)
  tracks : 0 < s.generation → Clean past s → ∃ order, Tracks past s pending order

section Steps

variable {past : List (Move Call Task Answer)} {s s' : Cache} {pending : List Task}

theorem Task.ForSelected.congr {t : Task} (generation : s'.generation = s.generation)
    (selected : s'.selectedProjectId = s.selectedProjectId) (here : t.ForSelected s) :
    t.ForSelected s' := by
  cases t with
  | active gen project => exact fun same => (here (same.trans generation)).trans selected.symm
  | list gen kind promise project =>
      exact fun same => (here (same.trans generation)).trans selected.symm
  | merge gen kind issues => trivial

theorem Returned.step {move : Move Call Task Answer} {kind : ListKind} {issues : List Issue}
    (generation : s'.generation = s.generation)
    (selected : s'.selectedProjectId = s.selectedProjectId) (returned : Returned past s kind issues) :
    Returned (move :: past) s' kind issues := by
  obtain ⟨promise, member⟩ := returned
  exact ⟨promise, by rw [generation, selected]; exact List.mem_cons_of_mem _ member⟩

/-- No task of an older generation is one of a newer. -/
theorem countP_newer {gen : Nat} {p : Task → Bool} (older : ∀ t ∈ pending, t.gen < gen)
    (of : ∀ t, p t = true → t.gen = gen) : pending.countP p = 0 := by
  rw [List.countP_eq_zero]
  intro t member here
  have := older t member
  have := of t here
  omega

theorem isActive_gen {gen : Nat} {t : Task} (active : t.isActive gen = true) : t.gen = gen := by
  cases t with
  | active g project => exact beq_iff_eq.mp active
  | list g kind promise project => exact nomatch active
  | merge g kind issues => exact nomatch active

theorem isFor_gen {gen : Nat} {kind : ListKind} {t : Task} (for_ : t.isFor gen kind = true) :
    t.gen = gen := by
  cases t with
  | active g project => exact nomatch for_
  | list g k promise project => exact beq_iff_eq.mp (Bool.and_eq_true_iff.mp for_).1
  | merge g k issues => exact beq_iff_eq.mp (Bool.and_eq_true_iff.mp for_).1

theorem Ensured.not_active {kinds : List ListKind} {new : List Task} (ensured : Ensured s kinds s' new)
    (gen : Nat) : new.countP (Task.isActive gen) = 0 := by
  rw [List.countP_eq_zero]
  intro t member
  obtain ⟨kind, promise, _, rfl⟩ := ensured.new t member
  exact nofun

theorem Ensured.not_merge {kinds : List ListKind} {new : List Task} (ensured : Ensured s kinds s' new)
    (gen : Nat) (kind : ListKind) (issues : List Issue) : .merge gen kind issues ∉ new := by
  intro member
  obtain ⟨_, _, _, same⟩ := ensured.new _ member
  exact nomatch same

theorem Ensured.underway {kinds : List ListKind} {new : List Task} (ensured : Ensured s kinds s' new) :
    ∀ t ∈ new, t.gen ≤ s'.generation ∧ t.ForSelected s' := by
  intro t member
  obtain ⟨kind, promise, _, rfl⟩ := ensured.new t member
  exact ⟨le_of_eq ensured.generation.symm, fun _ => ensured.selectedProjectId.symm⟩

/-- A load starts over. -/
theorem Tracked.load {c : Call} {kinds : List ListKind} {new : List Task}
    (tracked : Tracked past s pending) (loads : c.loads = some kinds) (loaded : Loads s kinds s' new) :
    Tracked (.call c :: past) s' (pending ++ new) := by
  obtain ⟨next, listed, ensured, generation, lists, fetches, settled, promises, rfl⟩ := loaded.new
  have gen : s'.generation = s.generation + 1 := loaded.generation
  have older : ∀ t ∈ pending, t.gen < s'.generation := fun t member => by
    have := (tracked.underway t member).1
    omega
  have unsettled : s'.generation ∉ s'.settled := by
    intro member
    rw [ensured.settled, settled] at member
    have := tracked.settled _ member
    omega
  refine
    { settled := fun g member => ?_
      fetches := fun f member => ?_
      underway := fun t member => ?_
      answered := fun t a member => ?_
      promises := fun g kind promise project member => ?_
      tracks := fun _ _ => ⟨[], ?_⟩ }
  · rw [ensured.settled, settled] at member
    have := tracked.settled g member
    omega
  · rcases ensured.old f member with old | new
    · rw [fetches] at old
      have := tracked.fetches f old
      omega
    · omega
  · rcases List.mem_append.mp member with old | new
    · refine ⟨le_of_lt (older t old), ?_⟩
      have superseded := older t old
      cases t with
      | active g project => exact fun same => absurd same (ne_of_lt superseded)
      | list g kind promise project => exact fun same => absurd same (ne_of_lt superseded)
      | merge g kind issues => trivial
    · rcases List.mem_cons.mp new with rfl | new
      · exact ⟨le_of_eq gen.symm, fun _ => rfl⟩
      · exact ensured.underway t new
  · rcases List.mem_cons.mp member with same | member
    · exact nomatch same
    · have := tracked.answered t a member
      omega
  · rcases List.mem_append.mp member with old | new
    · have below := (tracked.promises _ _ _ _ old).1
      refine ⟨lt_of_lt_of_le below (promises ▸ ensured.promises), fun found => ?_⟩
      rcases ensured.cached kind promise found with before | above
      · rw [lists] at before
        exact nomatch before
      · omega
    · obtain ⟨_, _, below, same⟩ := ensured.new _ ((List.mem_cons.mp new).resolve_left nofun)
      cases same
      exact ⟨below, fun _ => ensured.generation.symm⟩
  · have none : ∀ kind, s.fetches.count (s'.generation, kind) = 0 := by
      intro kind
      rw [List.count_eq_zero]
      intro member
      have : s'.generation ≤ s.generation := tracked.fetches _ member
      omega
    have nextGen : next.generation = s'.generation := ensured.generation.symm
    have fetched : ∀ kind, s'.fetches.count (s'.generation, kind) = if kind ∈ kinds then 1 else 0 := by
      intro kind
      have count := ensured.fetched kind
      rw [ensured.once kind, nextGen, fetches, none, lists] at count
      simpa using count
    refine
      { loading := ?_
        merged := .inl ⟨unsettled, rfl⟩
        lists := fun kind => ?_
        fetched := fun kind => ?_
        waiting := fun kind => ?_
        returned := fun _ member => absurd member List.not_mem_nil
        arrived := fun kind issues member => ?_ }
    · rw [List.countP_append, countP_newer older fun t => isActive_gen, if_neg unsettled,
        List.countP_cons_of_pos (by simp [Task.isActive, gen]), ensured.not_active]
    · rw [requestedSince_load loads, ensured.lists, lists]
      simp
    · rw [requestedSince_load loads, fetched]
    · rw [List.countP_append, countP_newer older fun t => isFor_gen, List.countP_cons_of_neg Bool.false_ne_true]
      have once := ensured.once kind
      rw [nextGen, lists] at once
      rw [fetched, once]
      simp
    · rcases List.mem_append.mp member with old | new
      · exact absurd rfl (ne_of_lt (older _ old))
      · rcases List.mem_cons.mp new with same | new
        · exact nomatch same
        · exact absurd new (ensured.not_merge _ _ _)

/-- Further lists are requested. -/
theorem Tracked.ensure {kinds : List ListKind} {new : List Task} (tracked : Tracked past s pending)
    (ensured : Ensured s kinds s' new) :
    Tracked (.call (.ensureIssueLists kinds) :: past) s' (pending ++ new) := by
  have gen := ensured.generation
  refine
    { settled := fun g member => ?_
      fetches := fun f member => ?_
      underway := fun t member => ?_
      answered := fun t a member => ?_
      promises := fun g kind promise project member => ?_
      tracks := fun positive clean => ?_ }
  · rw [ensured.settled] at member
    rw [gen]
    exact tracked.settled g member
  · rw [gen]
    exact (ensured.old f member).elim (tracked.fetches f) le_of_eq
  · rcases List.mem_append.mp member with old | new
    · obtain ⟨bound, selected⟩ := tracked.underway t old
      exact ⟨by rw [gen]; exact bound, Task.ForSelected.congr gen ensured.selectedProjectId selected⟩
    · exact ensured.underway t new
  · rw [gen]
    exact tracked.answered t a ((List.mem_cons.mp member).resolve_left nofun)
  · rcases List.mem_append.mp member with old | new
    · obtain ⟨below, current⟩ := tracked.promises _ _ _ _ old
      refine ⟨lt_of_lt_of_le below ensured.promises, fun found => ?_⟩
      rw [gen]
      rcases ensured.cached kind promise found with before | above
      · exact current before
      · omega
    · obtain ⟨_, _, below, same⟩ := ensured.new _ new
      cases same
      exact ⟨below, fun _ => gen.symm⟩
  · obtain ⟨order, tracks⟩ := tracked.tracks (gen ▸ positive) fun t member => by
      rw [← gen]
      exact clean t (List.mem_cons_of_mem _ member)
    have requested : ∀ kind, kind ∈ requestedSince (.call (.ensureIssueLists kinds) :: past) ↔
        kind ∈ kinds ∨ kind ∈ requestedSince past := fun kind => List.mem_append
    refine ⟨order,
      { loading := ?_
        merged := ?_
        lists := fun kind => ?_
        fetched := fun kind => ?_
        waiting := fun kind => ?_
        returned := fun entry member =>
          (tracks.returned entry member).step gen ensured.selectedProjectId
        arrived := fun kind issues member => ?_ }⟩
    · rw [List.countP_append, ensured.not_active, gen, tracks.loading, ensured.settled]
      rfl
    · rw [gen, ensured.settled, ensured.selectedProjectId, ensured.issues]
      refine tracks.merged.imp_right fun ⟨done, active, answered, same⟩ => ?_
      exact ⟨done, active, List.mem_cons_of_mem _ answered, same⟩
    · rw [ensured.lists, tracks.lists, requested, or_comm]
    · rw [gen, ensured.fetched, ensured.once, tracks.fetched]
      have known := tracks.lists kind
      by_cases listed : kind ∈ requestedSince past
      · have cached := known.mpr listed
        simp [requested, listed, cached]
      · have absent : (s.lists kind).isSome = false := by
          rw [← Bool.not_eq_true, known]
          exact listed
        simp only [requested, listed, absent, if_false, Nat.zero_add, true_and, or_false]
    · rw [List.countP_append, gen, ensured.fetched, ← tracks.waiting]
      omega
    · rw [gen] at member
      rcases List.mem_append.mp member with old | new
      · exact (tracks.arrived kind issues old).step gen ensured.selectedProjectId
      · exact absurd new (ensured.not_merge _ _ _)

section Resumed

variable {before after new : List Task} {t : Task} {a : Answer}

/-- An answer keeps the rest of the invariant, whatever it does to the latest generation. -/
theorem Tracked.resumed (tracked : Tracked past s (before ++ t :: after))
    (generation : s'.generation = s.generation)
    (selected : s'.selectedProjectId = s.selectedProjectId) (fetches : s'.fetches = s.fetches)
    (promises : s'.promises = s.promises)
    (cached : ∀ kind promise, s'.lists kind = some promise → s.lists kind = some promise)
    (settled : ∀ gen ∈ s'.settled, gen ∈ s.settled ∨ gen = t.gen)
    (new_ : ∀ u ∈ new, ∃ kind issues, u = .merge t.gen kind issues)
    (tracks : Clean (.resume t a :: past) s → ∀ order, Tracks past s (before ++ t :: after) order →
      ∃ order', Tracks (.resume t a :: past) s' (before ++ after ++ new) order') :
    Tracked (.resume t a :: past) s' (before ++ after ++ new) := by
  have here := tracked.underway t (mem_pending.mpr (.inl rfl))
  refine
    { settled := fun g member => ?_
      fetches := fun f member => ?_
      underway := fun u member => ?_
      answered := fun u b member => ?_
      promises := fun g kind promise project member => ?_
      tracks := fun positive clean => ?_ }
  · rw [generation]
    rcases settled g member with old | rfl
    · exact tracked.settled g old
    · exact here.1
  · rw [generation]
    exact tracked.fetches f (fetches ▸ member)
  · rcases List.mem_append.mp member with old | new
    · obtain ⟨bound, selected'⟩ := tracked.underway u (mem_pending.mpr (.inr old))
      exact ⟨generation ▸ bound, Task.ForSelected.congr generation selected selected'⟩
    · obtain ⟨kind, issues, rfl⟩ := new_ u new
      exact ⟨generation ▸ here.1, trivial⟩
  · rw [generation]
    rcases List.mem_cons.mp member with same | member
    · cases same
      exact here.1
    · exact tracked.answered u b member
  · rcases List.mem_append.mp member with old | new
    · obtain ⟨below, current⟩ := tracked.promises _ _ _ _ (mem_pending.mpr (.inr old))
      rw [generation, promises]
      exact ⟨below, fun found => current (cached kind promise found)⟩
    · obtain ⟨_, _, same⟩ := new_ _ new
      exact nomatch same
  · rw [generation] at positive
    have clean' : Clean (.resume t a :: past) s := fun u failed => generation ▸ clean u failed
    obtain ⟨order, before⟩ := tracked.tracks positive fun u failed =>
      clean' u (List.mem_cons_of_mem _ failed)
    exact tracks clean' order before

/-- An answer to a task that is not about the latest generation's lists. -/
theorem Tracks.other {order : List (ListKind × List Issue)}
    (tracks : Tracks past s (before ++ t :: after) order) (generation : s'.generation = s.generation)
    (selected : s'.selectedProjectId = s.selectedProjectId) (fetches : s'.fetches = s.fetches)
    (lists : s'.lists = s.lists) (issues : s'.issues = s.issues)
    (settled : s.generation ∈ s'.settled ↔ s.generation ∈ s.settled) (older : t.gen ≠ s.generation)
    (new_ : ∀ u ∈ new, ∃ kind issues, u = .merge t.gen kind issues) :
    Tracks (.resume t a :: past) s' (before ++ after ++ new) order := by
  have notNew : ∀ (p : Task → Bool), (∀ u, p u = true → u.gen = s.generation) →
      (before ++ after ++ new).countP p = (before ++ t :: after).countP p := by
    intro p of
    have none : new.countP p = 0 := by
      rw [List.countP_eq_zero]
      intro u member found
      obtain ⟨kind, issues, rfl⟩ := new_ u member
      exact older (of (.merge t.gen kind issues) found)
    have here : ¬ p t = true := fun found => older (of t found)
    rw [List.countP_append, none, EventLoop.countP_pending, if_neg here]
  refine
    { loading := ?_
      merged := ?_
      lists := fun kind => by rw [lists]; exact tracks.lists kind
      fetched := fun kind => by rw [generation, fetches]; exact tracks.fetched kind
      waiting := fun kind => ?_
      returned := fun entry member => (tracks.returned entry member).step generation selected
      arrived := fun kind issues member => ?_ }
  · rw [generation, notNew _ fun u => isActive_gen, tracks.loading]
    by_cases done : s.generation ∈ s.settled
    · rw [if_pos done, if_pos (settled.mpr done)]
    · rw [if_neg done, if_neg fun found => done (settled.mp found)]
  · rw [generation, settled, selected, issues]
    refine tracks.merged.imp_right fun ⟨done, active, answered, same⟩ => ?_
    exact ⟨done, active, List.mem_cons_of_mem _ answered, same⟩
  · rw [generation, notNew _ fun u => isFor_gen, fetches]
    exact tracks.waiting kind
  · rw [generation] at member
    rcases List.mem_append.mp member with old | new
    · exact (tracks.arrived kind issues (mem_pending.mpr (.inr old))).step generation selected
    · obtain ⟨_, _, same⟩ := new_ _ new
      exact absurd (Task.merge.inj same).1.symm older

/-- The active issues of the latest generation have arrived. -/
theorem Tracks.loaded {order : List (ListKind × List Issue)} {issues : List Issue}
    (tracks : Tracks past s
      (before ++ .active s.generation s.selectedProjectId :: after) order) :
    Tracks (.resume (.active s.generation s.selectedProjectId) (.issues issues) :: past)
      { s with issues, settled := s.generation :: s.settled } (before ++ after ++ []) [] := by
  have active : (Task.active s.generation s.selectedProjectId).isActive s.generation = true :=
    beq_iff_eq.mpr rfl
  have loading := tracks.loading
  rw [EventLoop.countP_pending, if_pos active] at loading
  -- it has not arrived before
  have waits : s.generation ∉ s.settled := by
    intro done
    rw [if_pos done] at loading
    exact nomatch loading
  rw [if_neg waits] at loading
  obtain rfl : order = [] := by
    rcases tracks.merged with ⟨_, none⟩ | ⟨done, _⟩
    · exact none
    · exact absurd done waits
  rw [List.append_nil]
  refine
    { loading := ?_
      merged := .inr ⟨List.mem_cons_self, issues, List.mem_cons_self, rfl⟩
      lists := tracks.lists
      fetched := tracks.fetched
      waiting := fun kind => ?_
      returned := fun _ member => absurd member List.not_mem_nil
      arrived := fun kind issues member =>
        (tracks.arrived kind issues (mem_pending.mpr (.inr member))).step rfl rfl }
  · show (before ++ after).countP (Task.isActive s.generation) = _
    rw [if_pos List.mem_cons_self]
    omega
  · have waiting := tracks.waiting kind
    have notFor : ¬ (Task.active s.generation s.selectedProjectId).isFor s.generation kind = true :=
      Bool.false_ne_true
    rw [EventLoop.countP_pending, if_neg notFor, Nat.add_zero] at waiting
    exact waiting

/-- A list of the latest generation has arrived, and waits to be merged. -/
theorem Tracks.arrive {order : List (ListKind × List Issue)} {kind : ListKind} {promise : Nat}
    {issues : List Issue}
    (tracks : Tracks past s
      (before ++ .list s.generation kind promise s.selectedProjectId :: after) order) :
    Tracks
      (.resume (.list s.generation kind promise s.selectedProjectId) (.issues issues) :: past) s
      (before ++ after ++ [.merge s.generation kind issues]) order := by
  refine
    { loading := ?_
      merged := ?_
      lists := tracks.lists
      fetched := tracks.fetched
      waiting := fun other => ?_
      returned := fun entry member => (tracks.returned entry member).step rfl rfl
      arrived := fun other listed member => ?_ }
  · rw [← tracks.loading, List.countP_append,
      EventLoop.countP_pending (Task.isActive s.generation) before after
        (.list s.generation kind promise s.selectedProjectId)]
    rfl
  · refine tracks.merged.imp_right fun ⟨done, active, answered, same⟩ => ?_
    exact ⟨done, active, List.mem_cons_of_mem _ answered, same⟩
  · rw [← tracks.waiting other, List.countP_append, List.countP_singleton,
      EventLoop.countP_pending (Task.isFor s.generation other) before after
        (.list s.generation kind promise s.selectedProjectId)]
    rfl
  · rcases List.mem_append.mp member with old | new
    · exact (tracks.arrived other listed (mem_pending.mpr (.inr old))).step rfl rfl
    · cases List.mem_singleton.mp new
      exact ⟨promise, List.mem_cons_self⟩

/-- A list of the latest generation is merged. -/
theorem Tracks.merge {order : List (ListKind × List Issue)} {kind : ListKind} {issues : List Issue}
    (settled : s.generation ∈ s.settled)
    (tracks : Tracks past s (before ++ .merge s.generation kind issues :: after) order) :
    Tracks (.resume (.merge s.generation kind issues) .settled :: past)
      { s with issues := mergeIntoIssues s.issues issues } (before ++ after ++ [])
      (order ++ [(kind, issues)]) := by
  rw [List.append_nil]
  refine
    { loading := ?_
      merged := .inr ⟨settled, ?_⟩
      lists := tracks.lists
      fetched := tracks.fetched
      waiting := fun other => ?_
      returned := fun entry member => ?_
      arrived := fun other listed member =>
        (tracks.arrived other listed (mem_pending.mpr (.inr member))).step rfl rfl }
  · have notActive : ¬ (Task.merge s.generation kind issues).isActive s.generation = true :=
      Bool.false_ne_true
    show (before ++ after).countP (Task.isActive s.generation) = if s.generation ∈ s.settled then 0 else 1
    rw [← tracks.loading, EventLoop.countP_pending, if_neg notActive, Nat.add_zero]
  · rcases tracks.merged with ⟨waits, _⟩ | ⟨_, active, answered, same⟩
    · exact absurd settled waits
    · refine ⟨active, List.mem_cons_of_mem _ answered, ?_⟩
      unfold mergeAll at same ⊢
      rw [List.foldl_append, ← same]
      rfl
  · show (before ++ after).countP (Task.isFor s.generation other) + _ = s.fetches.count _
    rw [← tracks.waiting other, EventLoop.countP_pending, List.map_append, List.count_append]
    have one : (List.map Prod.fst [(kind, issues)]).count other =
        if (Task.merge s.generation kind issues).isFor s.generation other = true then 1 else 0 := by
      by_cases same : kind = other
      · simp [Task.isFor, same]
      · simp [Task.isFor, same]
    rw [one]
    omega
  · rcases List.mem_append.mp member with old | new
    · exact (tracks.returned entry old).step rfl rfl
    · rw [List.mem_singleton.mp new]
      exact (tracks.arrived kind issues (mem_pending.mpr (.inl rfl))).step rfl rfl

/-- An answer keeps the invariant. -/
theorem Tracked.resume (tracked : Tracked past s (before ++ t :: after))
    (acts : issueLists.resume t a s = some (s', new)) :
    Tracked (.resume t a :: past) s' (before ++ after ++ new) := by
  have none : ∀ u ∈ ([] : List Task), ∃ kind issues, u = .merge t.gen kind issues :=
    fun _ member => absurd member List.not_mem_nil
  have underway := tracked.underway t (mem_pending.mpr (.inl rfl))
  cases resume_cases acts with
  | loaded project issues =>
      obtain rfl : project = s.selectedProjectId := underway.2 rfl
      refine tracked.resumed rfl rfl rfl rfl (fun _ _ found => found) (fun g member => ?_) none
        fun _ order tracks => ⟨[], tracks.loaded⟩
      exact (List.mem_cons.mp member).symm
  | superseded project issues late =>
      refine tracked.resumed rfl rfl rfl rfl (fun _ _ found => found)
        (fun g member => (List.mem_cons.mp member).symm) none fun _ order tracks => ⟨order, ?_⟩
      refine tracks.other rfl rfl rfl rfl rfl ?_ late none
      exact ⟨fun member => (List.mem_cons.mp member).resolve_left (Ne.symm late),
        List.mem_cons_of_mem _⟩
  | unloaded gen project =>
      refine tracked.resumed rfl rfl rfl rfl (fun _ _ found => found)
        (fun g member => (List.mem_cons.mp member).symm) none fun clean order tracks => ⟨order, ?_⟩
      have late : gen ≠ s.generation := clean _ List.mem_cons_self
      refine tracks.other rfl rfl rfl rfl rfl ?_ late none
      exact ⟨fun member => (List.mem_cons.mp member).resolve_left (Ne.symm late),
        List.mem_cons_of_mem _⟩
  | arrived gen kind promise project issues =>
      have merge : ∀ u ∈ [Task.merge gen kind issues], ∃ kind' issues', u = .merge gen kind' issues' :=
        fun u member => ⟨kind, issues, List.mem_singleton.mp member⟩
      refine tracked.resumed rfl rfl rfl rfl (fun _ _ found => found) (fun _ => .inl) merge
        fun _ order tracks => ⟨order, ?_⟩
      by_cases current : gen = s.generation
      · subst current
        obtain rfl : project = s.selectedProjectId := underway.2 rfl
        exact tracks.arrive
      · exact tracks.other rfl rfl rfl rfl rfl Iff.rfl current merge
  | @dropped gen kind promise project cached =>
      -- the promise is cached, so it belongs to the latest generation
      have current := (tracked.promises _ _ _ _ (mem_pending.mpr (.inl rfl))).2 cached
      refine tracked.resumed rfl rfl rfl rfl (fun other p found => ?_) (fun _ => .inl) none
        fun clean => absurd current (clean _ List.mem_cons_self)
      change Function.update s.lists kind Option.none other = some p at found
      by_cases same : other = kind
      · rw [same, Function.update_self] at found
        exact nomatch found
      · rwa [Function.update_of_ne same] at found
  | forgotten project cached =>
      refine tracked.resumed rfl rfl rfl rfl (fun _ _ found => found) (fun _ => .inl) none
        fun clean order tracks => ⟨order, ?_⟩
      exact tracks.other rfl rfl rfl rfl rfl Iff.rfl (clean _ List.mem_cons_self) none
  | merged kind issues settled =>
      exact tracked.resumed rfl rfl rfl rfl (fun _ _ found => found) (fun _ => .inl) none
        fun _ order tracks => ⟨_, tracks.merge settled⟩
  | discarded kind issues late =>
      exact tracked.resumed rfl rfl rfl rfl (fun _ _ found => found) (fun _ => .inl) none
        fun _ order tracks => ⟨order, tracks.other rfl rfl rfl rfl rfl Iff.rfl late none⟩

end Resumed

end Steps

/-- Every run keeps the invariant. -/
theorem tracked {past : List (Move Call Task Answer)} {project : Option Int} {s : Cache}
    {pending : List Task} (run : Run issueLists Distinct (fresh project) past s pending) :
    Tracked past s pending := by
  refine run.invariant Tracked ?_ fun past s pending move s' pending' _ _ here tracked => ?_
  · refine ⟨fun g member => le_of_eq (List.mem_singleton.mp member),
      fun _ member => absurd member List.not_mem_nil, fun _ member => absurd member List.not_mem_nil,
      fun _ _ member => absurd member List.not_mem_nil,
      fun _ _ _ _ member => absurd member List.not_mem_nil, fun positive => ?_⟩
    exact absurd positive (Nat.lt_irrefl 0)
  · cases here with
    | call acts =>
        rcases call_cases acts with ⟨kinds, loads, loaded⟩ | ⟨kinds, rfl, ensured⟩
        · exact tracked.load loads loaded
        · exact tracked.ensure ensured
    | resume acts => exact tracked.resume acts

/-- The latest load and the lists requested since have resolved successfully. -/
structure Resolved (past : List (Move Call Task Answer)) (s : Cache) (pending : List Task) : Prop where
  load : 0 < loadsIn past
  resolved : ∀ t ∈ pending, t.gen ≠ s.generation
  clean : Clean past s

/-- The issues of a list whose id neither an active issue nor an issue of an earlier list has. -/
def newIn (active : List Issue) (earlier : List (List Issue)) (list : List Issue) : List Issue :=
  list.filter fun issue => issue.id ∉ (active ++ earlier.flatten).map Issue.id

/-- The active issues, then of each list the issues that are not there yet. -/
def inOrder (active : List Issue) (lists : List (List Issue)) : List Issue :=
  active ++ (lists.mapIdx fun i list => newIn active (lists.take i) list).flatten

/-- One more list. -/
theorem inOrder_concat (active : List Issue) (lists : List (List Issue)) (list : List Issue) :
    inOrder active (lists ++ [list]) = inOrder active lists ++ newIn active lists list := by
  have earlier : (lists.mapIdx fun i l => newIn active ((lists ++ [list]).take i) l) =
      lists.mapIdx fun i l => newIn active (lists.take i) l := by
    refine List.ext_getElem (by simp) fun i first second => ?_
    have bound : i < lists.length := by simpa using first
    rw [List.getElem_mapIdx, List.getElem_mapIdx, List.take_append_of_le_length (Nat.le_of_lt bound)]
  unfold inOrder
  rw [List.mapIdx_concat, earlier, List.take_left, List.flatten_append, List.append_assoc]
  simp

/-- Every id of the lists is there. -/
theorem mem_inOrder_iff {active : List Issue} {lists : List (List Issue)} {id : Int} :
    id ∈ (inOrder active lists).map Issue.id ↔ id ∈ (active ++ lists.flatten).map Issue.id := by
  induction lists using List.reverseRecOn with
  | nil => rfl
  | append_singleton lists list ih =>
      have added : id ∈ (newIn active lists list).map Issue.id ↔
          id ∈ list.map Issue.id ∧ id ∉ (active ++ lists.flatten).map Issue.id := by
        simp only [newIn, List.mem_map, List.mem_filter, decide_eq_true_eq]
        constructor
        · rintro ⟨issue, ⟨member, fresh⟩, rfl⟩
          exact ⟨⟨issue, member, rfl⟩, fresh⟩
        · rintro ⟨⟨issue, member, rfl⟩, fresh⟩
          exact ⟨issue, ⟨member, fresh⟩, rfl⟩
      have whole : active ++ (lists ++ [list]).flatten = active ++ lists.flatten ++ list := by simp
      rw [inOrder_concat, whole, List.map_append, List.map_append, List.mem_append, List.mem_append, ih, added]
      tauto

/-- **One merge after the other brings the lists in order.** -/
theorem mergeAll_eq (active : List Issue) (order : List (ListKind × List Issue)) :
    mergeAll active order = inOrder active (order.map Prod.snd) := by
  induction order using List.reverseRecOn with
  | nil => exact (List.append_nil active).symm
  | append_singleton order entry ih =>
      have step : mergeAll active (order ++ [entry]) = mergeIntoIssues (mergeAll active order) entry.2 := by
        unfold mergeAll
        rw [List.foldl_append]
        rfl
      rw [step, ih, List.map_append, List.map_singleton, inOrder_concat]
      refine congrArg (inOrder active (order.map Prod.snd) ++ ·) (List.filter_congr fun issue _ => ?_)
      rw [Bool.eq_iff_iff, Bool.not_eq_true', List.any_eq_false, decide_eq_true_iff, ← mem_inOrder_iff, List.mem_map]
      simp

/-- **`state.issues` holds the active issues of the latest load and then those of each list requested
since** that are not there yet, in the order in which the lists were merged, and each list was fetched once. -/
def Loaded (past : List (Move Call Task Answer)) (s : Cache) : Prop :=
  ∃ (active : List Issue) (order : List (ListKind × List Issue)),
    Move.resume (.active s.generation s.selectedProjectId) (.issues active) ∈ past ∧
    (∀ entry ∈ order, Returned past s entry.1 entry.2) ∧ s.issues = inOrder active (order.map Prod.snd) ∧
    ∀ kind, (order.map Prod.fst).count kind = (if kind ∈ requestedSince past then 1 else 0) ∧
      s.fetches.count (s.generation, kind) = if kind ∈ requestedSince past then 1 else 0

/-- **The lists are loaded** once everything has resolved. -/
theorem lists_loaded {past : List (Move Call Task Answer)} {project : Option Int} {s : Cache}
    {pending : List Task} (run : Run issueLists Distinct (fresh project) past s pending)
    (resolved : Resolved past s pending) : Loaded past s := by
  have generation := (entered_current run).1
  obtain ⟨order, tracks⟩ := (tracked run).tracks (generation ▸ resolved.load) resolved.clean
  have none : ∀ p : Task → Bool, (∀ t, p t = true → t.gen = s.generation) → pending.countP p = 0 := by
    intro p of
    rw [List.countP_eq_zero]
    exact fun t member here => resolved.resolved t member (of t here)
  have loading := tracks.loading
  rw [none _ fun t => isActive_gen] at loading
  rcases tracks.merged with ⟨waits, _⟩ | ⟨_, active, answered, same⟩
  · rw [if_neg waits] at loading
    exact nomatch loading
  · refine ⟨active, order, answered, tracks.returned, same.trans (mergeAll_eq active order),
      fun kind => ⟨?_, tracks.fetched kind⟩⟩
    have waiting := tracks.waiting kind
    rw [none _ fun t => isFor_gen, Nat.zero_add, tracks.fetched] at waiting
    exact waiting

/-- **The cache of the issue lists**, in every run. -/
theorem issue_lists (project : Option Int) (past : List (Move Call Task Answer)) (s : Cache)
    (pending : List Task) (run : Run issueLists Distinct (fresh project) past s pending) :
    (s.issues.map Issue.id).Nodup ∧ (∀ issue ∈ s.issues, EnteredCurrent past issue) ∧
      (Resolved past s pending → Loaded past s) :=
  ⟨(distinct_issues (show ((fresh project).issues.map Issue.id).Nodup from List.nodup_nil) run).1,
    (entered_current run).2, lists_loaded run⟩

/-! ### A schedule -/

instance (s : Cache) (pending : List Task) (move : Move Call Task Answer) :
    Decidable (Distinct s pending move) := by
  unfold Distinct
  split <;> infer_instance

def activeIssue : Issue := { id := 1, title := "active", status := .todo }

def openIssue : Issue := { id := 2, title := "open", status := .open }

/-- The open list arrives before the active issues, one of which it contains. -/
def openFirst : EventLoop.Config Cache Call Task Answer :=
  issueLists.play (fun s pending move => decide (Distinct s pending move)) (fresh (some 7))
    [.call (.loadIssues [.open]), .resume 1 (.issues [openIssue, activeIssue]),
      .call (.ensureIssueLists [.open]), .resume 0 (.issues [activeIssue]), .resume 0 .settled]

theorem openFirst_loaded :
    openFirst.state.issues = [activeIssue, openIssue] ∧
      (openFirst.state.issues.map Issue.id).Nodup ∧
      (∀ issue ∈ openFirst.state.issues, EnteredCurrent openFirst.past issue) ∧
      Loaded openFirst.past openFirst.state := by
  have run : Run issueLists Distinct (fresh (some 7)) openFirst.past openFirst.state
      openFirst.pending :=
    Run.mono (Run.of_choices _ _) fun _ _ _ ok => of_decide_eq_true ok
  obtain ⟨nodup, entered, loaded⟩ := issue_lists _ _ _ _ run
  refine ⟨by decide, nodup, entered, loaded ⟨by decide, ?_, ?_⟩⟩
  · exact fun _ member => absurd member List.not_mem_nil
  · have past : openFirst.past =
        [.resume (.merge 1 .open [openIssue, activeIssue]) .settled,
          .resume (.active 1 (some 7)) (.issues [activeIssue]), .call (.ensureIssueLists [.open]),
          .resume (.list 1 .open 0 (some 7)) (.issues [openIssue, activeIssue]),
          .call (.loadIssues [.open])] := rfl
    intro t failed
    simp [past] at failed

end Wuflow.IssueLists

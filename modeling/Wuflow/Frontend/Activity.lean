/-
**The activity area of the issue modal** (`components/activity.js`).

`loadActivity`, `refreshHistory` and `refreshComments` each take a new sequence number before they fetch,
and drop what they get if a newer one of the three has started meanwhile. Between a fetch and its answer
anything may happen, so the area is a `Machine`: the calls start fetches, the answers resume them.

* `own_entries` — only entries of the issue of the area are ever shown.
* `converges` — once every fetch is answered, history and comments are those of the latest fetch of their
  kind, provided that no refresh starts while the other kind is being fetched (`InTurn`).
* `activity_converges` — both, for every run.
* `comments_lost` — a refresh of the history while the area is still loading leaves it without comments.
-/

import Wuflow.Interleave.EventLoop
import Wuflow.Model.Types

namespace Wuflow.Activity

open EventLoop (Machine Move Step Run mem_pending)

/-! ### The area -/

/-- The module variables `ctx` and `requestSeq`. -/
structure Area where
  issue : Option Issue := none
  history : List HistoryEntry := []
  comments : List Comment := []
  requestSeq : Nat := 0

/-- The operation a fetch belongs to. -/
inductive Op
  | loadActivity | refreshHistory | refreshComments
  deriving DecidableEq

/-- What is fetched. -/
inductive Kind
  | history | comments
  deriving DecidableEq

/-- `loadActivity` fetches both. -/
def Op.fetches : Op → Kind → Bool
  | .loadActivity, _ | .refreshHistory, .history | .refreshComments, .comments => true
  | _, _ => false

/-- A call that waits for the server, with the sequence number and the issue it has taken. -/
structure Fetch where
  op : Op
  seq : Nat
  issue : Issue

inductive Call
  | loadActivity (issue : Issue)
  | refreshHistory
  | refreshComments

/-- What a fetch comes back with; `loadActivity` fails if one of its two fetches does. -/
inductive Answer
  | loaded (history : List HistoryEntry) (comments : List Comment)
  | history (history : List HistoryEntry)
  | comments (comments : List Comment)
  | failed

/-- `nextSeq`. -/
def Area.nextSeq (s : Area) : Area := { s with requestSeq := s.requestSeq + 1 }

/-- `isStale`. -/
def Area.isStale (s : Area) (seq : Nat) : Bool := seq != s.requestSeq

/-- A refresh; without an issue it does nothing. -/
def Area.refresh (s : Area) (op : Op) : Area × List Fetch :=
  match s.issue with
  | none => (s, [])
  | some issue => (s.nextSeq, [⟨op, s.nextSeq.requestSeq, issue⟩])

def Area.call : Call → Area → Area × List Fetch
  | .loadActivity issue, s =>
      ({ s.nextSeq with issue := some issue, history := [], comments := [] },
        [⟨.loadActivity, s.nextSeq.requestSeq, issue⟩])
  | .refreshHistory, s => s.refresh .refreshHistory
  | .refreshComments, s => s.refresh .refreshComments

/-- Show what has arrived. -/
def Area.receive (s : Area) : Answer → Area
  | .loaded history comments => { s with history, comments }
  | .history history => { s with history }
  | .comments comments => { s with comments }
  | .failed => s

/-- The answers an operation can get. -/
def Op.gets : Op → Answer → Bool
  | .loadActivity, .loaded _ _ | .refreshHistory, .history _ | .refreshComments, .comments _
  | _, .failed => true
  | _, _ => false

/-- **The area on the event loop.** -/
def activity : Machine Area Call Fetch Answer where
  call c s := some (s.call c)
  resume t a s :=
    if t.op.gets a then some (if s.isStale t.seq then s else s.receive a, []) else none

/-! ### Only entries of the issue are shown -/

/-- Every entry shown is one of the area's issue. -/
def Own (s : Area) : Prop :=
  (∀ entry ∈ s.history, s.issue.map Issue.id = some entry.issueID) ∧
    ∀ comment ∈ s.comments, s.issue.map Issue.id = some comment.issueID

/-- The entries of an answer all belong to the issue. -/
def Answer.Of (issue : Issue) : Answer → Prop
  | .loaded entries notes =>
      (∀ entry ∈ entries, entry.issueID = issue.id) ∧ ∀ comment ∈ notes, comment.issueID = issue.id
  | .history entries => ∀ entry ∈ entries, entry.issueID = issue.id
  | .comments notes => ∀ comment ∈ notes, comment.issueID = issue.id
  | .failed => True

/-- The server answers with entries of the issue it is asked for. -/
def Honest : Area → List Fetch → Move Call Fetch Answer → Prop
  | _, _, .call _ => True
  | _, _, .resume t a => a.Of t.issue

/-- The newest fetch is one for the area's issue. -/
structure Fetch.Current (s : Area) (t : Fetch) : Prop where
  started : t.seq ≤ s.requestSeq
  newest : t.seq = s.requestSeq → s.issue = some t.issue

theorem Fetch.Current.superseded {s s' : Area} {t : Fetch} (current : t.Current s)
    (later : s'.requestSeq = s.requestSeq + 1) : t.Current s' :=
  ⟨by have := current.started; omega, fun newest => by have := current.started; omega⟩

/-- A refresh keeps what is shown, and its fetch is the newest. -/
theorem refresh_cases (s : Area) (op : Op) :
    (s.issue = none ∧ s.refresh op = (s, [])) ∨ ∃ issue, s.issue = some issue ∧
      s.refresh op = (s.nextSeq, [⟨op, s.requestSeq + 1, issue⟩]) := by
  unfold Area.refresh
  cases s.issue with
  | none => exact .inl ⟨rfl, rfl⟩
  | some issue => exact .inr ⟨issue, rfl, rfl⟩

@[simp] theorem receive_requestSeq (s : Area) (a : Answer) : (s.receive a).requestSeq = s.requestSeq := by
  cases a <;> rfl

@[simp] theorem receive_issue (s : Area) (a : Answer) : (s.receive a).issue = s.issue := by
  cases a <;> rfl

/-- An answer is dropped if its fetch is stale, and shown if it is the newest. -/
theorem resume_cases {s s' : Area} {t : Fetch} {a : Answer} {new : List Fetch}
    (acts : activity.resume t a s = some (s', new)) :
    (t.seq ≠ s.requestSeq ∧ s' = s ∧ new = []) ∨
      (t.op.gets a = true ∧ t.seq = s.requestSeq ∧ s' = s.receive a ∧ new = []) := by
  simp only [activity, Option.ite_none_right_eq_some, Option.some.injEq, Prod.mk.injEq] at acts
  obtain ⟨gets, rfl, rfl⟩ := acts
  unfold Area.isStale
  by_cases newest : t.seq = s.requestSeq
  · exact .inr ⟨gets, newest, by simp [newest], rfl⟩
  · exact .inl ⟨newest, by simp [newest], rfl⟩

/-- What an answer of the newest fetch shows is of the issue. -/
theorem receive_own {s : Area} {issue : Issue} {a : Answer} (here : s.issue = some issue)
    (of : a.Of issue) (own : Own s) : Own (s.receive a) := by
  have same : ∀ {id : Int}, id = issue.id → s.issue.map Issue.id = some id := by
    rintro _ rfl
    rw [here]
    rfl
  cases a with
  | loaded history comments =>
      exact ⟨fun entry member => same (of.1 entry member), fun comment member =>
        same (of.2 comment member)⟩
  | history history => exact ⟨fun entry member => same (of entry member), own.2⟩
  | comments comments => exact ⟨own.1, fun comment member => same (of comment member)⟩
  | failed => exact own

/-- **Only entries of the area's issue are shown.** -/
theorem own_entries {past : List (Move Call Fetch Answer)} {s : Area} {pending : List Fetch}
    (run : Run activity Honest {} past s pending) : Own s ∧ ∀ t ∈ pending, t.Current s := by
  refine run.keeps Own (fun s t => t.Current s) ⟨fun _ member => absurd member List.not_mem_nil,
    fun _ member => absurd member List.not_mem_nil⟩ ?_ ?_
  · intro s pending c s' new _ acts own _
    have refreshed : ∀ op, s.refresh op = (s', new) →
        Run.Keeps Own (fun s t => Fetch.Current s t) s s' new := by
      intro op acts
      rcases refresh_cases s op with ⟨_, same⟩ | ⟨issue, here, same⟩
      · cases same.symm.trans acts
        exact ⟨own, fun _ member => absurd member List.not_mem_nil, fun _ current => current⟩
      · cases same.symm.trans acts
        refine ⟨own, fun t member => ?_, fun _ current => current.superseded rfl⟩
        obtain rfl := List.mem_singleton.mp member
        exact ⟨le_rfl, fun _ => here⟩
    cases c with
    | loadActivity issue =>
        cases acts
        refine ⟨⟨fun _ member => absurd member List.not_mem_nil,
          fun _ member => absurd member List.not_mem_nil⟩, fun t member => ?_,
          fun _ current => current.superseded rfl⟩
        obtain rfl := List.mem_singleton.mp member
        exact ⟨le_rfl, fun _ => rfl⟩
    | refreshHistory => exact refreshed _ (Option.some.inj acts)
    | refreshComments => exact refreshed _ (Option.some.inj acts)
  · intro s pending t a s' new of acts own _ current
    rcases resume_cases acts with ⟨_, rfl, rfl⟩ | ⟨_, newest, rfl, rfl⟩
    · exact ⟨own, fun _ member => absurd member List.not_mem_nil, fun _ current => current⟩
    · refine ⟨receive_own (current.newest newest) of own,
        fun _ member => absurd member List.not_mem_nil, fun u current => ?_⟩
      exact ⟨by rw [receive_requestSeq]; exact current.started, fun same => by
        rw [receive_requestSeq] at same
        rw [receive_issue]
        exact current.newest same⟩

/-! ### The area converges -/

/-- The area shows what the answer holds of a kind. -/
def Answer.ShownBy (a : Answer) (s : Area) (k : Kind) : Prop :=
  match k, a with
  | .history, .loaded entries _ | .history, .history entries => s.history = entries
  | .comments, .loaded _ notes | .comments, .comments notes => s.comments = notes
  | _, _ => False

/-- `a` answers the latest fetch of a kind for the issue. -/
structure Latest (past : List (Move Call Fetch Answer)) (issue : Issue) (k : Kind) (t : Fetch)
    (a : Answer) : Prop where
  answered : Move.resume t a ∈ past
  fetches : t.op.fetches k = true
  same : t.issue.id = issue.id
  latest : ∀ other a', Move.resume other a' ∈ past → other.op.fetches k = true →
    other.issue.id = issue.id → other.seq ≤ t.seq

/-- **The area shows the answers to the latest fetches** for its issue. -/
def Converged (past : List (Move Call Fetch Answer)) (s : Area) : Prop :=
  ∀ issue, s.issue = some issue → ∀ k, ∃ t a, Latest past issue k t a ∧ a.ShownBy s k

/-- Every fetch resolves successfully. -/
def Succeeds : Area → List Fetch → Move Call Fetch Answer → Prop
  | _, _, .resume _ .failed => False
  | _, _, _ => True

/-- No fetch of the kind that is under way is the newest one. -/
def NotFetching (s : Area) (pending : List Fetch) (k : Kind) : Prop :=
  ∀ t ∈ pending, t.seq = s.requestSeq → t.op.fetches k = false

/-- A refresh starts only while the other kind is not being fetched. -/
def InTurn : Area → List Fetch → Move Call Fetch Answer → Prop
  | s, pending, .call .refreshHistory => NotFetching s pending .comments
  | s, pending, .call .refreshComments => NotFetching s pending .history
  | _, _, _ => True

/-- What a run of successful fetches in turn is made of. -/
def Orderly (s : Area) (pending : List Fetch) (move : Move Call Fetch Answer) : Prop :=
  Honest s pending move ∧ Succeeds s pending move ∧ InTurn s pending move

/-- The fetch has been started. -/
def Started (past : List (Move Call Fetch Answer)) (pending : List Fetch) (t : Fetch) : Prop :=
  t ∈ pending ∨ ∃ a, Move.resume t a ∈ past

/-- The newest fetch will bring the kind up to date, or the area shows the latest one. -/
def Covered (past : List (Move Call Fetch Answer)) (s : Area) (pending : List Fetch) (k : Kind) : Prop :=
  (∃ t ∈ pending, t.seq = s.requestSeq ∧ t.op.fetches k = true) ∨
    ∃ t a, Move.resume t a ∈ past ∧ t.op.fetches k = true ∧ s.issue.map Issue.id = some t.issue.id ∧
      a.ShownBy s k ∧ ∀ other, Started past pending other → other.op.fetches k = true →
        other.seq ≤ t.seq

/-- **The invariant**: nothing is newer than the counter, and each kind is covered. -/
structure Tracked (past : List (Move Call Fetch Answer)) (s : Area) (pending : List Fetch) : Prop where
  started : ∀ t, Started past pending t → t.seq ≤ s.requestSeq
  covered : s.issue ≠ none → ∀ k, Covered past s pending k

section Steps

variable {past : List (Move Call Fetch Answer)} {s : Area} {pending : List Fetch}

theorem started_call {c : Call} {new : List Fetch} {t : Fetch}
    (started : Started (.call c :: past) (pending ++ new) t) : t ∈ new ∨ Started past pending t := by
  rcases started with member | ⟨a, member⟩
  · rcases List.mem_append.mp member with old | new
    · exact .inr (.inl old)
    · exact .inl new
  · rcases List.mem_cons.mp member with same | member
    · cases same
    · exact .inr (.inr ⟨a, member⟩)

theorem started_resume {before after : List Fetch} {t u : Fetch} {a : Answer}
    (started : Started (.resume t a :: past) (before ++ after ++ []) u) :
    Started past (before ++ t :: after) u := by
  rw [List.append_nil] at started
  rcases started with member | ⟨a', member⟩
  · exact .inl (mem_pending.mpr (.inr member))
  · rcases List.mem_cons.mp member with same | member
    · cases same
      exact .inl (mem_pending.mpr (.inl rfl))
    · exact .inr ⟨a', member⟩

/-- A call that leaves the area as it is, but for the counter, and fetches one kind: the other one has to
be covered already. -/
theorem Tracked.refresh (tracked : Tracked past s pending) {op : Op} {s' : Area} {new : List Fetch}
    {c : Call} (acts : s.refresh op = (s', new))
    (other : ∀ k, op.fetches k = false → NotFetching s pending k) :
    Tracked (.call c :: past) s' (pending ++ new) := by
  rcases refresh_cases s op with ⟨none, same⟩ | ⟨issue, here, same⟩
  · cases same.symm.trans acts
    refine ⟨fun t started => ?_, fun some_ => absurd none some_⟩
    exact tracked.started t ((started_call started).resolve_left List.not_mem_nil)
  · cases same.symm.trans acts
    constructor
    · intro t started
      rcases started_call started with new | old
      · rw [List.mem_singleton.mp new]
        exact le_rfl
      · exact le_trans (tracked.started t old) (Nat.le_succ _)
    · intro some_ k
      cases fetches : op.fetches k with
      | true =>
          exact .inl ⟨_, List.mem_append_right _ List.mem_cons_self, rfl, fetches⟩
      | false =>
          rcases tracked.covered some_ k with ⟨t, member, newest, fetching⟩ |
              ⟨t, a, answered, fetching, issue, shown, latest⟩
          · exact absurd fetching (ne_true_of_eq_false (other k fetches t member newest))
          · refine .inr ⟨t, a, List.mem_cons_of_mem _ answered, fetching, issue, ?_, fun u started here => ?_⟩
            · exact shown
            · rcases started_call started with new | old
              · rw [List.mem_singleton.mp new] at here
                exact absurd here (ne_true_of_eq_false fetches)
              · exact latest u old here

/-- A load fetches both kinds. -/
theorem Tracked.load (tracked : Tracked past s pending) (issue : Issue) :
    Tracked (.call (.loadActivity issue) :: past) (s.call (.loadActivity issue)).1
      (pending ++ (s.call (.loadActivity issue)).2) := by
  constructor
  · intro t started
    rcases started_call started with new | old
    · rw [List.mem_singleton.mp new]
      exact le_rfl
    · exact le_trans (tracked.started t old) (Nat.le_succ _)
  · intro _ k
    refine .inl ⟨_, List.mem_append_right _ List.mem_cons_self, rfl, ?_⟩
    cases k <;> rfl

/-- An answer that comes too late is dropped. -/
theorem Tracked.drop {before after : List Fetch} {t : Fetch} {a : Answer}
    (tracked : Tracked past s (before ++ t :: after)) (stale : t.seq ≠ s.requestSeq) :
    Tracked (.resume t a :: past) s (before ++ after ++ []) := by
  refine ⟨fun u started => tracked.started u (started_resume started), fun some_ k => ?_⟩
  rcases tracked.covered some_ k with ⟨u, member, newest, fetching⟩ |
      ⟨u, a', answered, fetching, issue, shown, latest⟩
  · rcases mem_pending.mp member with rfl | member
    · exact absurd newest stale
    · exact .inl ⟨u, List.mem_append_left _ member, newest, fetching⟩
  · exact .inr ⟨u, a', List.mem_cons_of_mem _ answered, fetching, issue, shown,
      fun other started => latest other (started_resume started)⟩

/-- What the answer of the newest fetch brings is shown, and the other kind is left as it was. -/
theorem receive_shown {t : Fetch} {a : Answer} (gets : t.op.gets a = true) (success : a ≠ .failed)
    (k : Kind) :
    (t.op.fetches k = true → a.ShownBy (s.receive a) k) ∧
      (t.op.fetches k = false → ∀ a', Answer.ShownBy a' s k → Answer.ShownBy a' (s.receive a) k) := by
  obtain ⟨op, seq, issue⟩ := t
  constructor
  · cases op <;> cases a <;> cases k <;> simp_all [Op.gets, Op.fetches, Answer.ShownBy, Area.receive]
  · intro fetches a' shown
    cases op <;> cases a <;> cases k <;> cases a' <;>
      simp_all [Op.gets, Op.fetches, Answer.ShownBy, Area.receive]

/-- The answer of the newest fetch is shown. -/
theorem Tracked.receive {before after : List Fetch} {t : Fetch} {a : Answer}
    (tracked : Tracked past s (before ++ t :: after)) (newest : t.seq = s.requestSeq)
    (here : s.issue = some t.issue) (gets : t.op.gets a = true) (success : a ≠ .failed) :
    Tracked (.resume t a :: past) (s.receive a) (before ++ after ++ []) := by
  refine ⟨fun u started => ?_, fun some_ k => ?_⟩
  · rw [receive_requestSeq]
    exact tracked.started u (started_resume started)
  · rw [receive_issue] at some_
    have shown := receive_shown (s := s) gets success k
    cases fetches : t.op.fetches k with
    | true =>
        refine .inr ⟨t, a, List.mem_cons_self, fetches, ?_, shown.1 fetches, fun u started _ => ?_⟩
        · rw [receive_issue, here]
          rfl
        · rw [newest]
          exact tracked.started u (started_resume started)
    | false =>
        rcases tracked.covered some_ k with ⟨u, member, newest', fetching⟩ |
            ⟨u, a', answered, fetching, issue, shown', latest⟩
        · rcases mem_pending.mp member with rfl | member
          · exact absurd fetching (ne_true_of_eq_false fetches)
          · exact .inl ⟨u, List.mem_append_left _ member, by rw [receive_requestSeq, newest'], fetching⟩
        · exact .inr ⟨u, a', List.mem_cons_of_mem _ answered, fetching, by rw [receive_issue, issue],
            shown.2 fetches a' shown', fun other started => latest other (started_resume started)⟩

end Steps

theorem orderly_tracked {past : List (Move Call Fetch Answer)} {s : Area} {pending : List Fetch}
    (run : Run activity Orderly {} past s pending) : Tracked past s pending := by
  refine run.invariant Tracked ⟨fun t started => ?_, fun some_ => absurd rfl some_⟩ ?_
  · rcases started with member | ⟨_, member⟩
    · exact absurd member List.not_mem_nil
    · exact absurd member List.not_mem_nil
  · intro past s pending move s' pending' earlier ok here tracked
    obtain ⟨_, current⟩ := own_entries (earlier.mono fun _ _ _ orderly => orderly.1)
    cases here with
    | @call pending new c s' acts =>
        cases c with
        | loadActivity issue =>
            cases acts
            exact tracked.load issue
        | refreshHistory =>
            refine tracked.refresh (Option.some.inj acts) fun k fetches => ?_
            cases k with
            | history => exact nomatch fetches
            | comments => exact ok.2.2
        | refreshComments =>
            refine tracked.refresh (Option.some.inj acts) fun k fetches => ?_
            cases k with
            | history => exact ok.2.2
            | comments => exact nomatch fetches
    | @resume before after new t a s' acts =>
        rcases resume_cases acts with ⟨stale, rfl, rfl⟩ | ⟨gets, newest, rfl, rfl⟩
        · exact tracked.drop stale
        · have success : a ≠ .failed := by
            rintro rfl
            exact ok.2.1
          exact tracked.receive newest ((current t (mem_pending.mpr (.inl rfl))).newest newest) gets
            success

/-- **The area converges** where refreshes start in turn. -/
theorem converges {past : List (Move Call Fetch Answer)} {s : Area}
    (run : Run activity Orderly {} past s []) : Converged past s := by
  intro issue here k
  have tracked := orderly_tracked run
  rcases tracked.covered (by rw [here]; exact nofun) k with ⟨t, member, _⟩ |
      ⟨t, a, answered, fetches, same, shown, latest⟩
  · exact absurd member List.not_mem_nil
  · rw [here] at same
    exact ⟨t, a, ⟨answered, fetches, (Option.some.inj same).symm, fun other a' answered' fetches' _ =>
      latest other (.inr ⟨a', answered'⟩) fetches'⟩, shown⟩

instance (issue : Issue) (a : Answer) : Decidable (a.Of issue) :=
  match a with
  | .loaded _ _ => instDecidableAnd
  | .history _ => List.decidableBAll _ _
  | .comments _ => List.decidableBAll _ _
  | .failed => .isTrue trivial

instance (s : Area) (pending : List Fetch) (move : Move Call Fetch Answer) :
    Decidable (Honest s pending move) :=
  match move with
  | .call _ => .isTrue trivial
  | .resume t a => inferInstanceAs (Decidable (a.Of t.issue))

instance (s : Area) (pending : List Fetch) (move : Move Call Fetch Answer) :
    Decidable (Succeeds s pending move) :=
  match move with
  | .call _ => .isTrue trivial
  | .resume _ (.loaded _ _) | .resume _ (.history _) | .resume _ (.comments _) => .isTrue trivial
  | .resume _ .failed => .isFalse nofun

instance (s : Area) (pending : List Fetch) (k : Kind) : Decidable (NotFetching s pending k) :=
  List.decidableBAll _ _

instance (s : Area) (pending : List Fetch) (move : Move Call Fetch Answer) :
    Decidable (InTurn s pending move) :=
  match move with
  | .call (.loadActivity _) | .resume _ _ => .isTrue trivial
  | .call .refreshHistory => inferInstanceAs (Decidable (NotFetching s pending .comments))
  | .call .refreshComments => inferInstanceAs (Decidable (NotFetching s pending .history))

instance (s : Area) (pending : List Fetch) (move : Move Call Fetch Answer) :
    Decidable (Orderly s pending move) := instDecidableAnd

/-- The issue is opened, and its history refreshed after a save. -/
def savedAfterOpening : EventLoop.Config Area Call Fetch Answer :=
  activity.play (fun s pending move => decide (Orderly s pending move)) {}
    [.call (.loadActivity { id := 7, projectID := 1 }),
      .resume 0 (.loaded [] [{ id := 1, issueID := 7 }]), .call .refreshHistory,
      .resume 0 (.history [{ id := 4, issueID := 7, event := .updated, data := {} }])]

/-- The same, but the save is answered while the area is still loading. -/
def savedWhileOpening : EventLoop.Config Area Call Fetch Answer :=
  activity.play (fun s pending move => decide (Honest s pending move ∧ Succeeds s pending move)) {}
    [.call (.loadActivity { id := 7, projectID := 1 }), .call .refreshHistory,
      .resume 0 (.loaded [] [{ id := 1, issueID := 7 }]),
      .resume 0 (.history [{ id := 4, issueID := 7, event := .updated, data := {} }])]

end Wuflow.Activity

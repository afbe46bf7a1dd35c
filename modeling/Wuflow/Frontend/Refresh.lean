/-
**Refreshes of the selected project** (`app.js`, `state.js`, `toolbar.js`).

`refreshApp` requests the status config, the labels and the releases of the selected project in one wave.
The status config is stored when it arrives, labels and releases when the whole wave has arrived, and the
project the labels are recorded under is read again at that moment. Switching the project starts another
refresh, and so does a wave that finds the selected project gone.

* `timely_labels` — the labels are those of the project they are recorded under, provided that every
  response is stored while the project it was requested for is selected (`Timely`).
* `timely_settled` — once every refresh has settled, labels, releases and status config are then those of
  the selected project, provided that no request that brings them fails (`Succeeds`).
* `refresh_of_selected` — both, for every run.
* `labels_of_other_project` — a switch during a refresh records labels of one project under the other.
-/

import Wuflow.Interleave.EventLoop
import Wuflow.Model.Types

namespace Wuflow.Refresh

open EventLoop (Machine Move Step Run mem_pending)

/-! ### The application -/

/-- The part of `state` that a refresh reads and writes; `configured` are the runs of `refreshApp` whose
status config has arrived. -/
structure App where
  selectedProjectId : Option Int := none
  labels : List Label := []
  labelsProjectId : Option Int := none
  releases : List Release := []
  statusConfig : Option StatusConfig := none
  projectSettings : Bool := false
  runs : Nat := 0
  configured : List Nat := []

/-- What waits for the server: `loadStatusConfig`, the wave of a refresh, and the labels of the project
settings view, each with the project it has requested. -/
inductive Request
  | statusConfig (run : Nat) (project : Int)
  | wave (run : Nat) (project : Option Int)
  | settingsLabels (project : Int)
  deriving DecidableEq

inductive Call
  | refreshApp
  | selectProject (id : Int)
  | showProjectSettings (visible : Bool)

inductive Response
  | statusConfig (cfg : StatusConfig)
  | wave (labels : List Label) (releases : List Release) (projects : List Project)
  | labels (labels : List Label)
  | failed

/-- `refreshApp`, up to its first `await`: without a selected project there is no status config. -/
def App.refreshApp (s : App) : App × List Request :=
  match s.selectedProjectId with
  | some id => ({ s with runs := s.runs + 1 }, [.statusConfig s.runs id, .wave s.runs (some id)])
  | none =>
      ({ s with runs := s.runs + 1, statusConfig := none, configured := s.runs :: s.configured },
        [.wave s.runs none])

/-- `updateProjectSelectorOptions`: a selected project that is gone is replaced by the first one. -/
def App.updateProjectSelectorOptions (s : App) (projects : List Project) : App × List Request :=
  match s.selectedProjectId with
  | none =>
      match projects with
      | [] => (s, [])
      | first :: _ => { s with selectedProjectId := some first.id }.refreshApp
  | some id =>
      if projects.any (·.id == id) then (s, [])
      else { s with selectedProjectId := (projects.map Project.id).head? }.refreshApp

/-- `renderProjectSettingsView`, when the view is visible. -/
def App.renderProjectSettingsView (s : App) : List Request :=
  if s.projectSettings then [.settingsLabels (s.selectedProjectId.getD 1)] else []

def App.call : Call → App → App × List Request
  | .refreshApp, s => s.refreshApp
  | .selectProject id, s => { s with selectedProjectId := some id }.refreshApp
  | .showProjectSettings visible, s => ({ s with projectSettings := visible }, [])

/-- Labels and releases of a wave are stored; without a project none were requested. -/
def App.storeWave (s : App) (project : Option Int) (labels : List Label) (releases : List Release) : App :=
  { s with
    labels := if project.isSome then labels else []
    labelsProjectId := s.selectedProjectId
    releases := if project.isSome then releases else [] }

def App.resume : Request → Response → App → Option (App × List Request)
  | .statusConfig run _, .statusConfig cfg, s =>
      some ({ s with statusConfig := some cfg, configured := run :: s.configured }, [])
  | .statusConfig run _, .failed, s =>
      some ({ s with statusConfig := none, configured := run :: s.configured }, [])
  | .wave run project, .wave labels releases projects, s =>
      -- the wave includes the status config
      if run ∈ s.configured then
        let stored := (s.storeWave project labels releases).updateProjectSelectorOptions projects
        some (stored.1, stored.2 ++ stored.1.renderProjectSettingsView)
      else none
  | .wave _ _, .failed, s => some (s, [])
  | .settingsLabels project, .labels labels, s =>
      some (if s.selectedProjectId = some project then
        { s with labels, labelsProjectId := some project } else s, [])
  | .settingsLabels _, .failed, s => some (s, [])
  | _, _, _ => none

/-- **The application on the event loop.** -/
def app : Machine App Call Request Response where
  call c s := some (s.call c)
  resume := fun t a s => s.resume t a

/-! ### Whose labels, releases and status config -/

section Owned

/-- The labels are what the server has returned for the project; without one there are none. -/
def LabelsOf (past : List (Move Call Request Response)) : Option Int → List Label → Prop
  | none, labels => labels = []
  | some id, labels =>
      (∃ run releases projects, .resume (.wave run (some id)) (.wave labels releases projects) ∈ past) ∨
        .resume (.settingsLabels id) (.labels labels) ∈ past

def ReleasesOf (past : List (Move Call Request Response)) : Option Int → List Release → Prop
  | none, releases => releases = []
  | some id, releases =>
      ∃ run labels projects, .resume (.wave run (some id)) (.wave labels releases projects) ∈ past

def ConfigOf (past : List (Move Call Request Response)) : Option Int → Option StatusConfig → Prop
  | none, cfg => cfg = none
  | some id, cfg => ∃ run returned, cfg = some returned ∧
      .resume (.statusConfig run id) (.statusConfig returned) ∈ past

variable {past : List (Move Call Request Response)} {move : Move Call Request Response}
  {project : Option Int}

theorem LabelsOf.mono {labels : List Label} (of : LabelsOf past project labels) :
    LabelsOf (move :: past) project labels := by
  cases project with
  | none => exact of
  | some id =>
      rcases of with ⟨run, releases, projects, member⟩ | member
      · exact .inl ⟨run, releases, projects, List.mem_cons_of_mem _ member⟩
      · exact .inr (List.mem_cons_of_mem _ member)

theorem ReleasesOf.mono {releases : List Release} (of : ReleasesOf past project releases) :
    ReleasesOf (move :: past) project releases := by
  cases project with
  | none => exact of
  | some id =>
      obtain ⟨run, labels, projects, member⟩ := of
      exact ⟨run, labels, projects, List.mem_cons_of_mem _ member⟩

theorem ConfigOf.mono {cfg : Option StatusConfig} (of : ConfigOf past project cfg) :
    ConfigOf (move :: past) project cfg := by
  cases project with
  | none => exact of
  | some id =>
      obtain ⟨run, returned, same, member⟩ := of
      exact ⟨run, returned, same, List.mem_cons_of_mem _ member⟩

/-- What a wave stores is what was returned for its project. -/
theorem storeWave_of {s : App} {run : Nat} {labels : List Label} {releases : List Release}
    {projects : List Project} (project : Option Int)
    (answered : .resume (.wave run project) (.wave labels releases projects) ∈ past) :
    LabelsOf past project (s.storeWave project labels releases).labels ∧
      ReleasesOf past project (s.storeWave project labels releases).releases := by
  cases project with
  | none => exact ⟨rfl, rfl⟩
  | some id => exact ⟨.inl ⟨run, releases, projects, answered⟩, run, labels, projects, answered⟩

end Owned

/-- **The stored labels, releases and status config are those of the selected project.** -/
structure OfSelected (past : List (Move Call Request Response)) (s : App) : Prop where
  labels : LabelsOf past s.selectedProjectId s.labels
  releases : ReleasesOf past s.selectedProjectId s.releases
  statusConfig : ConfigOf past s.selectedProjectId s.statusConfig

/-- Each response is stored while the project it was requested for is selected. -/
def Timely : App → List Request → Move Call Request Response → Prop
  | s, _, .resume (.statusConfig _ project) (.statusConfig _) => s.selectedProjectId = some project
  | s, _, .resume (.wave _ project) (.wave _ _ _) => s.selectedProjectId = project
  | _, _, _ => True

/-- No status config fails to arrive, and no wave fails while the project it was requested for is selected. -/
def Succeeds : App → List Request → Move Call Request Response → Prop
  | _, _, .resume (.statusConfig _ _) .failed => False
  | s, _, .resume (.wave _ project) .failed => s.selectedProjectId ≠ project
  | _, _, _ => True

/-! ### A refresh -/

section Steps

variable {s : App}

/-- A refresh changes neither the labels nor the releases. -/
structure Kept (s s' : App) : Prop where
  labels : s'.labels = s.labels
  labelsProjectId : s'.labelsProjectId = s.labelsProjectId
  releases : s'.releases = s.releases

theorem refreshApp_kept (s : App) : Kept s s.refreshApp.1 := by
  unfold App.refreshApp
  split
  · exact ⟨rfl, rfl, rfl⟩
  · exact ⟨rfl, rfl, rfl⟩

/-- The selector leaves everything as it is, or starts a refresh of another project. -/
theorem selector_cases (s : App) (projects : List Project) :
    s.updateProjectSelectorOptions projects = (s, []) ∨
      ∃ selectedProjectId, s.updateProjectSelectorOptions projects =
        { s with selectedProjectId }.refreshApp := by
  unfold App.updateProjectSelectorOptions
  split
  · split
    · exact .inl rfl
    · exact .inr ⟨_, rfl⟩
  · split
    · exact .inl rfl
    · exact .inr ⟨_, rfl⟩

theorem selector_kept (s : App) (projects : List Project) :
    Kept s (s.updateProjectSelectorOptions projects).1 := by
  rcases selector_cases s projects with same | ⟨selectedProjectId, same⟩
  · rw [same]
    exact ⟨rfl, rfl, rfl⟩
  · rw [same]
    have kept := refreshApp_kept { s with selectedProjectId }
    exact ⟨kept.labels, kept.labelsProjectId, kept.releases⟩

theorem call_kept (c : Call) (s : App) : Kept s (s.call c).1 := by
  cases c with
  | refreshApp => exact refreshApp_kept s
  | selectProject id =>
      have kept := refreshApp_kept { s with selectedProjectId := some id }
      exact ⟨kept.labels, kept.labelsProjectId, kept.releases⟩
  | showProjectSettings visible => exact ⟨rfl, rfl, rfl⟩

end Steps

/-! ### The labels are those of their project -/

theorem LabelsOf.kept {past : List (Move Call Request Response)} {s s' : App} (kept : Kept s s')
    (of : LabelsOf past s.labelsProjectId s.labels) : LabelsOf past s'.labelsProjectId s'.labels := by
  rw [kept.labels, kept.labelsProjectId]
  exact of

/-- What a timely response leaves stored. -/
theorem resume_labels {past : List (Move Call Request Response)} {s s' : App} {pending new : List Request}
    {t : Request} {a : Response} (acts : s.resume t a = some (s', new))
    (timely : Timely s pending (.resume t a)) (of : LabelsOf past s.labelsProjectId s.labels) :
    LabelsOf (.resume t a :: past) s'.labelsProjectId s'.labels := by
  cases t with
  | statusConfig run project =>
      cases a <;> cases acts
      · exact of.mono
      · exact of.mono
  | wave run project =>
      cases a with
      | wave labels releases projects =>
          simp only [App.resume, Option.ite_none_right_eq_some, Option.some.injEq,
            Prod.mk.injEq] at acts
          obtain ⟨_, rfl, _⟩ := acts
          refine LabelsOf.kept (selector_kept _ _) ?_
          show LabelsOf _ s.selectedProjectId _
          rw [show s.selectedProjectId = project from timely]
          exact (storeWave_of project List.mem_cons_self).1
      | failed =>
          cases acts
          exact of.mono
      | statusConfig cfg => exact nomatch acts
      | labels labels => exact nomatch acts
  | settingsLabels project =>
      cases a with
      | labels labels =>
          obtain ⟨rfl, _⟩ := Prod.mk.inj (Option.some.inj acts)
          split
          · exact .inr List.mem_cons_self
          · exact of.mono
      | failed =>
          cases acts
          exact of.mono
      | statusConfig cfg => exact nomatch acts
      | wave labels releases projects => exact nomatch acts

/-- **The labels are those of the project they are recorded under**, where responses are stored in
time. -/
theorem timely_labels {past : List (Move Call Request Response)} {s : App} {pending : List Request}
    (run : Run app Timely {} past s pending) : LabelsOf past s.labelsProjectId s.labels := by
  refine run.invariant (fun past s _ => LabelsOf past s.labelsProjectId s.labels) rfl
    fun past s pending move s' pending' _ timely here of => ?_
  cases here with
  | @call pending new c s' acts =>
      obtain ⟨rfl, _⟩ := Prod.mk.inj (Option.some.inj acts)
      exact (of.kept (call_kept c s)).mono
  | resume acts => exact resume_labels acts timely of

/-! ### Once every refresh has settled -/

/-- What is stored is of the selected project, or will be when the responses are there. -/
structure Covered (past : List (Move Call Request Response)) (s : App) (pending : List Request) :
    Prop where
  wave : (∃ run, .wave run s.selectedProjectId ∈ pending) ∨
    (LabelsOf past s.selectedProjectId s.labels ∧ ReleasesOf past s.selectedProjectId s.releases)
  statusConfig : (∃ run id, s.selectedProjectId = some id ∧ .statusConfig run id ∈ pending) ∨
    ConfigOf past s.selectedProjectId s.statusConfig

section Covered

variable {past : List (Move Call Request Response)} {s : App} {pending : List Request}

/-- A refresh requests everything again. -/
theorem refreshApp_covered (past : List (Move Call Request Response)) (s : App)
    (pending : List Request) : Covered past s.refreshApp.1 (pending ++ s.refreshApp.2) := by
  obtain ⟨selectedProjectId⟩ := s
  cases selectedProjectId with
  | some id =>
      exact ⟨.inl ⟨_, List.mem_append_right _ (List.mem_cons_of_mem _ List.mem_cons_self)⟩,
        .inl ⟨_, id, rfl, List.mem_append_right _ List.mem_cons_self⟩⟩
  | none => exact ⟨.inl ⟨_, List.mem_append_right _ List.mem_cons_self⟩, .inr rfl⟩

/-- More requests and more moves do no harm. -/
theorem Covered.mono (covered : Covered past s pending) {move : Move Call Request Response}
    {more : List Request} (kept : ∀ t ∈ pending, t ∈ more) : Covered (move :: past) s more := by
  refine ⟨?_, ?_⟩
  · rcases covered.wave with ⟨run, member⟩ | ⟨labels, releases⟩
    · exact .inl ⟨run, kept _ member⟩
    · exact .inr ⟨labels.mono, releases.mono⟩
  · rcases covered.statusConfig with ⟨run, id, selected, member⟩ | cfg
    · exact .inl ⟨run, id, selected, kept _ member⟩
    · exact .inr cfg.mono

theorem Covered.append (covered : Covered past s pending) (new : List Request) :
    Covered past s (pending ++ new) := by
  refine ⟨?_, ?_⟩
  · exact covered.wave.imp_left fun ⟨run, member⟩ => ⟨run, List.mem_append_left _ member⟩
  · exact covered.statusConfig.imp_left
      fun ⟨run, id, selected, member⟩ => ⟨run, id, selected, List.mem_append_left _ member⟩

/-- A response that stores nothing, of a request that nothing has waited for. -/
theorem Covered.without {before after : List Request} {t : Request}
    (covered : Covered past s (before ++ t :: after)) (wave : ∀ run, t ≠ .wave run s.selectedProjectId)
    (statusConfig : ∀ run id, t ≠ .statusConfig run id) {move : Move Call Request Response} :
    Covered (move :: past) s (before ++ after) := by
  refine ⟨?_, ?_⟩
  · rcases covered.wave with ⟨run, member⟩ | ⟨labels, releases⟩
    · exact .inl ⟨run, (mem_pending.mp member).resolve_left fun same => wave run same.symm⟩
    · exact .inr ⟨labels.mono, releases.mono⟩
  · rcases covered.statusConfig with ⟨run, id, selected, member⟩ | cfg
    · exact .inl ⟨run, id, selected, (mem_pending.mp member).resolve_left fun same => statusConfig run id same.symm⟩
    · exact .inr cfg.mono

/-- What is selected after a wave is covered by what it has stored, or requested again. -/
theorem selector_covered (covered : Covered past s pending) (projects : List Project) :
    Covered past (s.updateProjectSelectorOptions projects).1
      (pending ++ (s.updateProjectSelectorOptions projects).2) := by
  rcases selector_cases s projects with same | ⟨selectedProjectId, same⟩
  · rw [same, List.append_nil]
    exact covered
  · rw [same]
    exact refreshApp_covered past { s with selectedProjectId } pending

theorem call_covered (c : Call) (covered : Covered past s pending) :
    Covered (.call c :: past) (s.call c).1 (pending ++ (s.call c).2) := by
  cases c with
  | refreshApp => exact refreshApp_covered _ s pending
  | selectProject id => exact refreshApp_covered _ { s with selectedProjectId := some id } pending
  | showProjectSettings visible =>
      have same : Covered (.call (.showProjectSettings visible) :: past) s (pending ++ []) :=
        covered.mono fun t member => List.mem_append_left [] member
      exact ⟨same.wave, same.statusConfig⟩

/-- A response that is stored in time covers what it brings; everything else stays covered. -/
theorem resume_covered {before after new : List Request} {t : Request} {a : Response} {s' : App}
    (acts : s.resume t a = some (s', new)) (timely : Timely s (before ++ t :: after) (.resume t a))
    (success : Succeeds s (before ++ t :: after) (.resume t a))
    (covered : Covered past s (before ++ t :: after)) :
    Covered (.resume t a :: past) s' (before ++ after ++ new) := by
  have rest : ∀ {u : Request}, u ∈ before ++ t :: after → u ≠ t → u ∈ before ++ after :=
    fun member differs => (mem_pending.mp member).resolve_left differs
  cases t with
  | statusConfig run project =>
      cases a with
      | statusConfig cfg =>
          cases acts
          have selected : s.selectedProjectId = some project := timely
          refine ⟨?_, .inr ?_⟩
          · rcases covered.wave with ⟨run, member⟩ | ⟨labels, releases⟩
            · exact .inl ⟨run, List.mem_append_left _ (rest member nofun)⟩
            · exact .inr ⟨labels.mono, releases.mono⟩
          · show ConfigOf _ s.selectedProjectId _
            rw [selected]
            exact ⟨run, cfg, rfl, List.mem_cons_self⟩
      | failed => exact success.elim
      | wave labels releases projects => exact nomatch acts
      | labels labels => exact nomatch acts
  | wave run project =>
      cases a with
      | wave labels releases projects =>
          simp only [App.resume, Option.ite_none_right_eq_some, Option.some.injEq,
            Prod.mk.injEq] at acts
          obtain ⟨_, rfl, rfl⟩ := acts
          have selected : s.selectedProjectId = project := timely
          rw [← List.append_assoc]
          refine Covered.append (selector_covered ⟨.inr ?_, ?_⟩ projects) _
          · show LabelsOf _ s.selectedProjectId _ ∧ ReleasesOf _ s.selectedProjectId _
            rw [selected]
            exact storeWave_of project List.mem_cons_self
          · rcases covered.statusConfig with ⟨run, id, here, member⟩ | cfg
            · exact .inl ⟨run, id, here, rest member nofun⟩
            · exact .inr cfg.mono
      | failed =>
          cases acts
          have other : s.selectedProjectId ≠ project := success
          exact (covered.without (fun _ same => other (Request.wave.inj same).2.symm) fun _ _ => nofun).append []
      | statusConfig cfg => exact nomatch acts
      | labels labels => exact nomatch acts
  | settingsLabels project =>
      cases a with
      | labels labels =>
          obtain ⟨rfl, rfl⟩ := Prod.mk.inj (Option.some.inj acts)
          have statusConfig : (∃ run id, s.selectedProjectId = some id ∧
              .statusConfig run id ∈ before ++ after ++ []) ∨
              ConfigOf (.resume (.settingsLabels project) (.labels labels) :: past)
                s.selectedProjectId s.statusConfig := by
            rcases covered.statusConfig with ⟨run, id, here, member⟩ | cfg
            · exact .inl ⟨run, id, here, List.mem_append_left _ (rest member nofun)⟩
            · exact .inr cfg.mono
          have wave : (∃ run, .wave run s.selectedProjectId ∈ before ++ after ++ []) ∨
              (LabelsOf past s.selectedProjectId s.labels ∧
                ReleasesOf past s.selectedProjectId s.releases) :=
            covered.wave.imp_left fun ⟨run, member⟩ => ⟨run, List.mem_append_left _ (rest member nofun)⟩
          split
          · rename_i selected
            refine ⟨wave.imp_right fun stored => ?_, statusConfig⟩
            show LabelsOf _ s.selectedProjectId _ ∧ ReleasesOf _ s.selectedProjectId _
            refine ⟨?_, stored.2.mono⟩
            rw [selected]
            exact .inr List.mem_cons_self
          · exact ⟨wave.imp_right fun stored => ⟨stored.1.mono, stored.2.mono⟩, statusConfig⟩
      | failed =>
          cases acts
          exact (covered.without (fun _ => nofun) fun _ _ => nofun).append []
      | statusConfig cfg => exact nomatch acts
      | wave labels releases projects => exact nomatch acts

end Covered

/-- **Once every refresh has settled, everything is of the selected project**, where responses are stored in
time, every status config arrives and no wave fails for the selected project. -/
theorem timely_settled {past : List (Move Call Request Response)} {s : App}
    (run : Run app (fun s pending move => Timely s pending move ∧ Succeeds s pending move) {} past s []) :
    OfSelected past s := by
  have covered : Covered past s [] := by
    refine run.invariant Covered ⟨.inr ⟨rfl, rfl⟩, .inr rfl⟩
      fun past s pending move s' pending' _ ok here covered => ?_
    cases here with
    | @call pending new c s' acts =>
        obtain ⟨rfl, rfl⟩ := Prod.mk.inj (Option.some.inj acts)
        exact call_covered c covered
    | resume acts => exact resume_covered acts ok.1 ok.2 covered
  rcases covered.wave with ⟨_, member⟩ | ⟨labels, releases⟩
  · exact absurd member List.not_mem_nil
  · rcases covered.statusConfig with ⟨_, _, _, member⟩ | cfg
    · exact absurd member List.not_mem_nil
    · exact ⟨labels, releases, cfg⟩

instance (s : App) (pending : List Request) (move : Move Call Request Response) :
    Decidable (Timely s pending move) := by
  unfold Timely
  split <;> infer_instance

instance (s : App) (pending : List Request) (move : Move Call Request Response) :
    Decidable (Succeeds s pending move) := by
  unfold Succeeds
  split <;> infer_instance

def firstLabel : Label := { id := 1, name := "first", projectID := 1 }

def secondLabel : Label := { id := 2, name := "second", projectID := 2 }

def bothProjects : List Project := [{ id := 1, name := "default" }, { id := 2, name := "other" }]

/-- The project is switched once the refresh of the first one has settled. -/
def switchedAfter : EventLoop.Config App Call Request Response :=
  app.play (fun s pending move => decide (Timely s pending move ∧ Succeeds s pending move)) {}
    [.call (.selectProject 1), .resume 0 (.statusConfig { projectID := 1 }),
      .resume 0 (.wave [firstLabel] [] bothProjects), .call (.selectProject 2),
      .resume 0 (.statusConfig { projectID := 2 }), .resume 0 (.wave [secondLabel] [] bothProjects)]

/-- The project is switched before, and the wave of the first project arrives last. -/
def switchedDuring : EventLoop.Config App Call Request Response :=
  app.play (fun s pending move => decide (Succeeds s pending move)) {}
    [.call (.selectProject 1), .call (.selectProject 2), .resume 0 (.statusConfig { projectID := 1 }),
      .resume 1 (.statusConfig { projectID := 2 }), .resume 1 (.wave [secondLabel] [] bothProjects),
      .resume 0 (.wave [firstLabel] [] bothProjects)]

end Wuflow.Refresh

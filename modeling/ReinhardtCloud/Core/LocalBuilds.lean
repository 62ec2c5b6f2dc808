import Mathlib.Logic.Function.Basic
import ReinhardtCloud.Base.Run

/-!
# Local builds

Library `Core`. The in-process build service
(`crates/reinhardt-cloud-core/src/services/build/local.rs`): its map of builds, the pipeline task
of each and the calls on it. What lies between two awaits or two uses of the map is one step of a
pipeline; a call holds its entry of the map and is one step. The channel of a build holds 64 events,
so no send waits.
-/

namespace ReinhardtCloud.Core

open ReinhardtCloud.Base

/-! ## Builds -/

/-- `BuildPhase`, `crates/reinhardt-cloud-types/src/build.rs:65–71`. -/
inductive BuildPhase where
  | queued
  | pulling
  | building
  | pushing
  | finalizing
  deriving DecidableEq

/-- `BuildEvent`, `build.rs:34–62`. -/
inductive BuildEvent where
  | log (message : String) (timestamp : Int)
  | phaseChange (phase : BuildPhase) (timestamp : Int)
  | artifactReady (artifactUrl digest : String) (timestamp : Int)
  | error (message : String) (timestamp : Int)
  | complete (success : Bool) (timestamp : Int)
  deriving DecidableEq

/-- `BuildStatus`, `build.rs:86–101`. The id is the key of the build. -/
structure BuildStatus where
  projectName : String
  phase : BuildPhase
  completed : Bool
  success : Option Bool
  startedAt : Int
  completedAt : Option Int
  deriving DecidableEq

/-- The phases that are left, each with the line it logs. -/
abbrev Phases := List (BuildPhase × String)

/-- Where the pipeline task is. -/
inductive PipelineTask where
  | nextPhase (rest : Phases)
  | sendPhaseChange (phase : BuildPhase) (message : String) (rest : Phases)
  | setPhase (phase : BuildPhase) (message : String) (rest : Phases)
  | sendLog (message : String) (rest : Phases)
  | work (rest : Phases)
  | sendError
  | sendArtifact
  | sendComplete
  | updateCompleted (success : Bool)
  | returned
  deriving DecidableEq

/-- A `BuildState` of the map, with its token, its task and the events sent so far. -/
structure Build where
  status : BuildStatus
  cancelled : Bool
  image : String
  task : PipelineTask
  events : List BuildEvent
  deriving DecidableEq

/-- The phases of `run_build_pipeline`, `local.rs:128–133`. -/
def phases : Phases :=
  [(.pulling, "Pulling base image..."), (.building, "Building application..."),
    (.pushing, "Pushing image to registry..."), (.finalizing, "Finalizing build...")]

/-- The build that `start_build` inserts and whose pipeline it spawns, `local.rs:52–90`. -/
def Build.start (projectName image : String) (now : Int) : Build where
  status := ⟨projectName, .queued, false, none, now, none⟩
  cancelled := false
  image := image
  task := .nextPhase phases
  events := []

/-- `tx.send`. -/
def Build.send (b : Build) (event : BuildEvent) (next : PipelineTask) : Build :=
  { b with events := b.events ++ [event], task := next }

/-- `update_build_completed`, `local.rs:205–211`. -/
def Build.updateCompleted (b : Build) (success : Bool) (now : Int) : Build :=
  { b with
    status := { b.status with completed := true, success := some success, completedAt := some now }
    task := .returned }

/-- A step of `run_build_pipeline` at a time, except its select, `local.rs:119–202`. -/
def Build.advance (b : Build) (now : Int) (uuid : String) : Option Build :=
  match b.task with
  | .nextPhase [] => some { b with task := .sendArtifact }
  | .nextPhase ((phase, message) :: rest) =>
    some { b with task := if b.cancelled then .sendError else .sendPhaseChange phase message rest }
  | .sendPhaseChange phase message rest =>
    some (b.send (.phaseChange phase now) (.setPhase phase message rest))
  | .setPhase phase message rest =>
    some { b with status := { b.status with phase := phase }, task := .sendLog message rest }
  | .sendLog message rest => some (b.send (.log message now) (.work rest))
  | .work _ => none
  | .sendError => some (b.send (.error "Build cancelled by user" now) (.updateCompleted false))
  | .sendArtifact =>
    some (b.send (.artifactReady (b.image ++ "@sha256:" ++ uuid) ("sha256:" ++ uuid) now)
      .sendComplete)
  | .sendComplete => some (b.send (.complete true now) (.updateCompleted true))
  | .updateCompleted success => some (b.updateCompleted success now)
  | .returned => none

/-- The branches of the select, `local.rs:168–177`. -/
inductive SelectBranch where
  | slept
  | cancelled
  deriving DecidableEq

/-- The select takes a branch that is ready: once the token is cancelled, either. -/
def Build.select (b : Build) (branch : SelectBranch) : Option Build :=
  match b.task with
  | .work rest =>
    match branch with
    | .slept => some { b with task := .nextPhase rest }
    | .cancelled => if b.cancelled then some { b with task := .sendError } else none
  | _ => none

/-! ## The service -/

/-- The text of a build id. -/
abbrev Uuid := String

/-- `builds`. -/
abbrev Builds := Uuid → Option Build

/-- An `ApiError` of the service. -/
inductive BuildError where
  | notFound (message : String)
  | badRequest (message : String)
  deriving DecidableEq

/-- `cancel_build`, `local.rs:93–108`: its answer. -/
def cancelBuild (builds : Builds) (id : Uuid) : Except BuildError Unit :=
  match builds id with
  | none => .error (.notFound ("Build " ++ id ++ " not found"))
  | some b =>
    if b.status.completed then .error (.badRequest ("Build " ++ id ++ " already completed"))
    else .ok ()

/-- `get_build_status`, `local.rs:110–115`. -/
def getBuildStatus (builds : Builds) (id : Uuid) : Except BuildError BuildStatus :=
  match builds id with
  | none => .error (.notFound ("Build " ++ id ++ " not found"))
  | some b => .ok b.status

/-- What happens next: a call, or a step of a pipeline. -/
inductive BuildAction where
  | startBuild (id : Uuid) (projectName image : String) (now : Int)
  | cancelBuild (id : Uuid)
  | getBuildStatus (id : Uuid)
  | advance (id : Uuid) (now : Int) (uuid : String)
  | select (id : Uuid) (branch : SelectBranch)
  deriving DecidableEq

/-- One step of the service. The id of a new build is new. -/
def buildStep (builds : Builds) : BuildAction → Option Builds
  | .startBuild id projectName image now =>
    match builds id with
    | none => some (Function.update builds id (some (.start projectName image now)))
    | some _ => none
  | .cancelBuild id =>
    match cancelBuild builds id with
    | .ok _ => some (Function.update builds id ((builds id).map ({ · with cancelled := true })))
    | .error _ => some builds
  | .getBuildStatus _ => some builds
  | .advance id now uuid =>
    ((builds id).bind (·.advance now uuid)).map fun b ↦ Function.update builds id (some b)
  | .select id branch =>
    ((builds id).bind (·.select branch)).map fun b ↦ Function.update builds id (some b)

/-- The service before its first build. -/
def noBuilds : Builds := fun _ ↦ none

/-! ## What a step does to a build -/

/-- What a step of the service does to the build of an id. -/
inductive BuildChange (id : Uuid) (s : Builds) (a : BuildAction) (t : Builds) : Prop
  | none (same : t id = s id) (notCancelled : a = .cancelBuild id → cancelBuild s id ≠ .ok ())
      (notSelected : ∀ branch, a ≠ .select id branch)
  | started (projectName image : String) (now : Int) (action : a ≠ .cancelBuild id)
      (new : s id = .none) (after : t id = some (.start projectName image now))
  | cancelled (b : Build) (action : a = .cancelBuild id) (accepted : cancelBuild s id = .ok ())
      (before : s id = some b) (running : b.status.completed = false)
      (after : t id = some { b with cancelled := true })
  | advanced (b b' : Build) (now : Int) (uuid : String) (action : a = .advance id now uuid)
      (before : s id = some b) (step : b.advance now uuid = some b') (after : t id = some b')
  | selected (b b' : Build) (branch : SelectBranch) (action : a = .select id branch)
      (before : s id = some b) (step : b.select branch = some b') (after : t id = some b')

variable {id : Uuid} {s t : Builds} {a : BuildAction}

theorem cancelBuild_ok_iff : cancelBuild s id = .ok () ↔
    ∃ b, s id = some b ∧ b.status.completed = false := by
  rw [cancelBuild]
  cases hid : s id with
  | none => simp
  | some b =>
    by_cases hdone : b.status.completed = true
    · simp [hdone]
    · simp [Bool.eq_false_iff.mpr hdone]

/-- A step that writes the entry of another id leaves the build alone. -/
private theorem update_other {other : Uuid} {entry : Option Build} (h : id ≠ other) :
    Function.update s other entry id = s id :=
  Function.update_of_ne h entry s

theorem buildStep_change (h : buildStep s a = some t) (id : Uuid) : BuildChange id s a t := by
  cases a with
  | startBuild other projectName image now =>
    rw [buildStep] at h
    cases hother : s other with
    | some b =>
      rw [hother] at h
      cases h
    | none =>
      rw [hother] at h
      obtain rfl := Option.some.inj h
      by_cases hid : id = other
      · subst hid
        exact .started projectName image now (by simp) hother (Function.update_self _ _ _)
      · exact .none (update_other hid) (by simp) (by simp)
  | cancelBuild other =>
    rw [buildStep] at h
    cases hanswer : cancelBuild s other with
    | error e =>
      rw [hanswer] at h
      obtain rfl := Option.some.inj h
      refine .none rfl ?_ (by simp)
      intro haction hok
      injection haction with haction
      subst haction
      rw [hanswer] at hok
      cases hok
    | ok u =>
      rw [hanswer] at h
      obtain rfl := Option.some.inj h
      by_cases hid : id = other
      · subst hid
        obtain ⟨b, hb, hrunning⟩ := cancelBuild_ok_iff.mp hanswer
        refine .cancelled b rfl hanswer hb hrunning ?_
        rw [Function.update_self, hb, Option.map_some]
      · refine .none (update_other hid) ?_ (by simp)
        intro haction
        injection haction with haction
        exact absurd haction.symm hid
  | getBuildStatus other =>
    rw [buildStep] at h
    obtain rfl := Option.some.inj h
    exact .none rfl (by simp) (by simp)
  | advance other now uuid =>
    rw [buildStep] at h
    obtain ⟨b', hb', rfl⟩ := Option.map_eq_some_iff.mp h
    obtain ⟨b, hb, hstep⟩ := Option.bind_eq_some_iff.mp hb'
    by_cases hid : id = other
    · subst hid
      exact .advanced b b' now uuid rfl hb hstep (Function.update_self _ _ _)
    · exact .none (update_other hid) (by simp) (by simp)
  | select other branch =>
    rw [buildStep] at h
    obtain ⟨b', hb', rfl⟩ := Option.map_eq_some_iff.mp h
    obtain ⟨b, hb, hstep⟩ := Option.bind_eq_some_iff.mp hb'
    by_cases hid : id = other
    · subst hid
      exact .selected b b' branch rfl hb hstep (Function.update_self _ _ _)
    · refine .none (update_other hid) (by simp) ?_
      intro branch' haction
      injection haction with haction _
      exact hid haction.symm

/-! ## Events and status -/

/-- The outcome that a terminal event reports. -/
def BuildEvent.outcome : BuildEvent → Option Bool
  | .error _ _ => some false
  | .complete success _ => some success
  | _ => none

/-- No terminal event has been sent. -/
def Unended (events : List BuildEvent) : Prop := ∀ event ∈ events, event.outcome = none

/-- One terminal event has been sent, as the last one, and it reports the outcome. -/
def EndsWith (events : List BuildEvent) (success : Bool) : Prop :=
  ∃ init last, events = init ++ [last] ∧ Unended init ∧ last.outcome = some success

theorem Unended.send {events : List BuildEvent} (h : Unended events) {event : BuildEvent}
    (hevent : event.outcome = none) : Unended (events ++ [event]) := by
  intro e he
  rcases List.mem_append.mp he with he | he
  · exact h e he
  · rw [List.mem_singleton.mp he]
    exact hevent

/-- The status and the events of a build, by the place of its task. -/
def Build.Consistent (b : Build) : Prop :=
  match b.task with
  | .returned => b.status.completed = true ∧
      ∃ success, b.status.success = some success ∧ EndsWith b.events success
  | .updateCompleted success =>
    b.status.completed = false ∧ b.status.success = none ∧ EndsWith b.events success
  | _ => b.status.completed = false ∧ b.status.success = none ∧ Unended b.events

theorem Build.start_consistent (projectName image : String) (now : Int) :
    (Build.start projectName image now).Consistent :=
  ⟨rfl, rfl, fun _ h ↦ absurd h List.not_mem_nil⟩

theorem Build.Consistent.cancel {b : Build} (h : b.Consistent) :
    ({ b with cancelled := true } : Build).Consistent := h

theorem Build.Consistent.advance {b b' : Build} {now : Int} {uuid : String} (h : b.Consistent)
    (hstep : b.advance now uuid = some b') : b'.Consistent := by
  obtain ⟨status, cancelled, image, task, events⟩ := b
  cases task with
  | nextPhase rest =>
    cases rest with
    | nil =>
      obtain rfl := Option.some.inj hstep
      exact h
    | cons p rest =>
      obtain rfl := Option.some.inj hstep
      cases cancelled with
      | false => exact h
      | true => exact h
  | sendPhaseChange phase message rest =>
    obtain rfl := Option.some.inj hstep
    exact ⟨h.1, h.2.1, h.2.2.send rfl⟩
  | setPhase phase message rest =>
    obtain rfl := Option.some.inj hstep
    exact h
  | sendLog message rest =>
    obtain rfl := Option.some.inj hstep
    exact ⟨h.1, h.2.1, h.2.2.send rfl⟩
  | work rest => cases hstep
  | sendError =>
    obtain rfl := Option.some.inj hstep
    exact ⟨h.1, h.2.1, events, _, rfl, h.2.2, rfl⟩
  | sendArtifact =>
    obtain rfl := Option.some.inj hstep
    exact ⟨h.1, h.2.1, h.2.2.send rfl⟩
  | sendComplete =>
    obtain rfl := Option.some.inj hstep
    exact ⟨h.1, h.2.1, events, _, rfl, h.2.2, rfl⟩
  | updateCompleted success =>
    obtain rfl := Option.some.inj hstep
    exact ⟨rfl, success, rfl, h.2.2⟩
  | returned => cases hstep

theorem Build.Consistent.select {b b' : Build} {branch : SelectBranch} (h : b.Consistent)
    (hstep : b.select branch = some b') : b'.Consistent := by
  obtain ⟨status, cancelled, image, task, events⟩ := b
  cases task with
  | work rest =>
    cases branch with
    | slept =>
      obtain rfl := Option.some.inj hstep
      exact h
    | cancelled =>
      rw [Build.select] at hstep
      cases cancelled with
      | false => cases hstep
      | true =>
        obtain rfl := Option.some.inj hstep
        exact h
  | _ => cases hstep

/-- A completed build has returned. -/
theorem Build.Consistent.returned {b : Build} (h : b.Consistent)
    (hdone : b.status.completed = true) : b.task = .returned := by
  obtain ⟨status, cancelled, image, task, events⟩ := b
  cases task with
  | returned => rfl
  | _ =>
    have hopen := h.1
    rw [hdone] at hopen
    cases hopen

/-! ## The channel -/

/-- How many events the task may still send. -/
def PipelineTask.sends : PipelineTask → Nat
  | .nextPhase rest => 2 * rest.length + 2
  | .sendPhaseChange _ _ rest => 2 * rest.length + 4
  | .setPhase _ _ rest => 2 * rest.length + 3
  | .sendLog _ rest => 2 * rest.length + 3
  | .work rest => 2 * rest.length + 2
  | .sendError => 1
  | .sendArtifact => 2
  | .sendComplete => 1
  | .updateCompleted _ => 0
  | .returned => 0

/-- What the build has sent and may still send. -/
def Build.budget (b : Build) : Nat := b.events.length + b.task.sends

theorem Build.budget_advance {b b' : Build} {now : Int} {uuid : String}
    (hstep : b.advance now uuid = some b') : b'.budget ≤ b.budget := by
  obtain ⟨status, cancelled, image, task, events⟩ := b
  cases task with
  | nextPhase rest =>
    cases rest with
    | nil =>
      obtain rfl := Option.some.inj hstep
      simp [Build.budget, PipelineTask.sends]
    | cons p rest =>
      obtain rfl := Option.some.inj hstep
      cases cancelled with
      | false =>
        simp [Build.budget, PipelineTask.sends]
        omega
      | true => simp [Build.budget, PipelineTask.sends]
  | work rest => cases hstep
  | returned => cases hstep
  | _ =>
    obtain rfl := Option.some.inj hstep
    simp [Build.budget, PipelineTask.sends, Build.send, Build.updateCompleted]
    try omega

theorem Build.budget_select {b b' : Build} {branch : SelectBranch}
    (hstep : b.select branch = some b') : b'.budget ≤ b.budget := by
  obtain ⟨status, cancelled, image, task, events⟩ := b
  cases task with
  | work rest =>
    cases branch with
    | slept =>
      obtain rfl := Option.some.inj hstep
      exact Nat.le_refl _
    | cancelled =>
      rw [Build.select] at hstep
      cases cancelled with
      | false => cases hstep
      | true =>
        obtain rfl := Option.some.inj hstep
        simp [Build.budget, PipelineTask.sends]
  | _ => cases hstep

/-- The channel of a build is never full. -/
theorem events_fit {tr : List (Transition Builds BuildAction)}
    (h : Run buildStep noBuilds tr s) {b : Build} (hb : s id = some b) : b.events.length < 64 := by
  have hbudget : ∀ b, s id = some b → b.budget ≤ 10 := by
    refine h.invariant (I := fun s ↦ ∀ b, s id = some b → b.budget ≤ 10) ?_ ?_
    · intro b hb
      cases hb
    · intro u a v hu hstep b hv
      cases buildStep_change hstep id with
      | none same notCancelled notSelected => exact hu b (same ▸ hv)
      | started projectName image now action new after =>
        obtain rfl := Option.some.inj (hv.symm.trans after)
        exact Nat.le_refl _
      | cancelled b' action accepted before running after =>
        obtain rfl := Option.some.inj (hv.symm.trans after)
        exact hu b' before
      | advanced b₀ b' now uuid action before step after =>
        obtain rfl := Option.some.inj (hv.symm.trans after)
        exact Nat.le_trans (Build.budget_advance step) (hu b₀ before)
      | selected b₀ b' branch action before step after =>
        obtain rfl := Option.some.inj (hv.symm.trans after)
        exact Nat.le_trans (Build.budget_select step) (hu b₀ before)
  have hle := hbudget b hb
  rw [Build.budget] at hle
  omega

/-! ## Cancellations -/

/-- The task has left its last select without a cancellation, and only success is ahead of it. -/
def Build.PastLastSelect (b : Build) : Prop :=
  match b.task with
  | .nextPhase [] => True
  | .sendArtifact => True
  | .sendComplete => True
  | .updateCompleted success => success = true
  | .returned => b.status.success = some true
  | _ => False

theorem Build.start_before (projectName image : String) (now : Int) :
    ¬ (Build.start projectName image now).PastLastSelect := id

/-- Only the last select takes a task past itself. -/
theorem Build.pastLastSelect_advance {b b' : Build} {now : Int} {uuid : String}
    (hstep : b.advance now uuid = some b') : b'.PastLastSelect ↔ b.PastLastSelect := by
  obtain ⟨status, cancelled, image, task, events⟩ := b
  cases task with
  | nextPhase rest =>
    cases rest with
    | nil =>
      obtain rfl := Option.some.inj hstep
      exact .rfl
    | cons p rest =>
      obtain rfl := Option.some.inj hstep
      cases cancelled with
      | false => exact .rfl
      | true => exact .rfl
  | sendError =>
    obtain rfl := Option.some.inj hstep
    exact ⟨fun h ↦ absurd h (by simp [Build.send, Build.PastLastSelect]), False.elim⟩
  | sendComplete =>
    obtain rfl := Option.some.inj hstep
    exact ⟨fun _ ↦ trivial, fun _ ↦ rfl⟩
  | updateCompleted success =>
    obtain rfl := Option.some.inj hstep
    exact Option.some_inj
  | work rest => cases hstep
  | returned => cases hstep
  | _ =>
    obtain rfl := Option.some.inj hstep
    exact .rfl

theorem Build.cancelled_advance {b b' : Build} {now : Int} {uuid : String}
    (hstep : b.advance now uuid = some b') : b'.cancelled = b.cancelled := by
  obtain ⟨status, cancelled, image, task, events⟩ := b
  cases task with
  | nextPhase rest =>
    cases rest with
    | nil =>
      obtain rfl := Option.some.inj hstep
      rfl
    | cons p rest =>
      obtain rfl := Option.some.inj hstep
      rfl
  | work rest => cases hstep
  | returned => cases hstep
  | _ =>
    obtain rfl := Option.some.inj hstep
    rfl

theorem Build.select_cases {b b' : Build} {branch : SelectBranch}
    (hstep : b.select branch = some b') : b'.cancelled = b.cancelled ∧ ¬ b.PastLastSelect ∧
      (b'.PastLastSelect ↔ branch = .slept ∧ b.task = .work []) := by
  obtain ⟨status, cancelled, image, task, events⟩ := b
  cases task with
  | work rest =>
    cases branch with
    | slept =>
      obtain rfl := Option.some.inj hstep
      refine ⟨rfl, id, ?_⟩
      cases rest with
      | nil => exact ⟨fun _ ↦ ⟨rfl, rfl⟩, fun _ ↦ trivial⟩
      | cons p rest => exact ⟨False.elim, fun h ↦ by simp at h⟩
    | cancelled =>
      rw [Build.select] at hstep
      cases cancelled with
      | false => cases hstep
      | true =>
        obtain rfl := Option.some.inj hstep
        exact ⟨rfl, id, False.elim, fun h ↦ by simp at h⟩
  | _ => cases hstep

/-- A transition of the service. -/
abbrev BuildTransition := Transition Builds BuildAction

/-- A `cancel_build` of the build is answered with `Ok`. -/
def Accepts (id : Uuid) (x : BuildTransition) : Prop :=
  x.action = .cancelBuild id ∧ cancelBuild x.before id = .ok ()

/-- The pipeline can still see the cancellation: no cancellation is accepted after the last select
of the build, and that select does not choose to have slept when the token is cancelled. -/
structure InTime (id : Uuid) (x : BuildTransition) : Prop where
  accepted : Accepts id x → ∀ b, x.before id = some b → ¬ b.PastLastSelect
  selected : x.action = .select id .slept → ∀ b, x.before id = some b → b.task = .work [] →
    b.cancelled = false

/-- What is known of a build after a run: its token is cancelled exactly if a cancellation was
accepted, and one that came too late is the one that a task past its last select has missed. -/
def Tracked (id : Uuid) (tr : List BuildTransition) (s : Builds) : Prop :=
  match s id with
  | none => (∀ x ∈ tr, ¬ Accepts id x) ∧ ∀ x ∈ tr, InTime id x
  | some b => b.Consistent ∧ (b.cancelled = true ↔ ∃ x ∈ tr, Accepts id x) ∧
    ((∀ x ∈ tr, InTime id x) ↔ ¬ (b.PastLastSelect ∧ b.cancelled = true))

theorem exists_mem_concat {P : BuildTransition → Prop} {tr : List BuildTransition}
    {x : BuildTransition} : (∃ y ∈ tr ++ [x], P y) ↔ (∃ y ∈ tr, P y) ∨ P x := by
  simp only [List.mem_append, List.mem_singleton, or_and_right, exists_or, exists_eq_left]

theorem forall_mem_concat {P : BuildTransition → Prop} {tr : List BuildTransition}
    {x : BuildTransition} : (∀ y ∈ tr ++ [x], P y) ↔ (∀ y ∈ tr, P y) ∧ P x := by
  simp only [List.mem_append, List.mem_singleton, or_imp, forall_and, forall_eq]

/-- A transition that is no accepted cancellation and no select of the build is in time. -/
theorem InTime.of_other {x : BuildTransition} (haccepts : ¬ Accepts id x)
    (hselect : x.action ≠ .select id .slept) : InTime id x :=
  ⟨fun h ↦ absurd h haccepts, fun h ↦ absurd h hselect⟩

theorem Tracked.step {tr : List BuildTransition} (h : Tracked id tr s)
    (hstep : buildStep s a = some t) : Tracked id (tr ++ [⟨s, a, t⟩]) t := by
  cases buildStep_change hstep id with
  | none same notCancelled notSelected =>
    have haccepts : ¬ Accepts id ⟨s, a, t⟩ := fun h ↦ notCancelled h.1 h.2
    have htime : InTime id ⟨s, a, t⟩ := .of_other haccepts (notSelected .slept)
    rw [Tracked] at h ⊢
    rw [same]
    cases hid : s id with
    | none =>
      rw [hid] at h
      exact ⟨forall_mem_concat.mpr ⟨h.1, haccepts⟩, forall_mem_concat.mpr ⟨h.2, htime⟩⟩
    | some b =>
      rw [hid] at h
      obtain ⟨hconsistent, hcancelled, hall⟩ := h
      refine ⟨hconsistent, ?_, ?_⟩
      · rw [exists_mem_concat, hcancelled]
        exact ⟨.inl, fun h ↦ h.resolve_right haccepts⟩
      · rw [forall_mem_concat, hall]
        exact ⟨fun h ↦ h.1, fun h ↦ ⟨h, htime⟩⟩
  | started projectName image now action new after =>
    have haccepts : ¬ Accepts id ⟨s, a, t⟩ := fun h ↦ action h.1
    have htime : InTime id ⟨s, a, t⟩ := by
      refine ⟨fun h ↦ absurd h haccepts, ?_⟩
      intro _ b hb
      cases new.symm.trans hb
    rw [Tracked, new] at h
    rw [Tracked, after]
    refine ⟨Build.start_consistent _ _ _, ?_, ?_⟩
    · rw [exists_mem_concat]
      constructor
      · intro h
        cases h
      · rintro (⟨x, hx, hacc⟩ | hacc)
        · exact absurd hacc (h.1 x hx)
        · exact absurd hacc haccepts
    · rw [forall_mem_concat]
      exact ⟨fun _ hpast ↦ Build.start_before _ _ _ hpast.1, fun _ ↦ ⟨h.2, htime⟩⟩
  | cancelled b action accepted before running after =>
    have haccepts : Accepts id ⟨s, a, t⟩ := ⟨action, accepted⟩
    have htime : InTime id ⟨s, a, t⟩ ↔ ¬ b.PastLastSelect := by
      constructor
      · intro h
        exact h.accepted haccepts b before
      · intro hpast
        refine ⟨?_, ?_⟩
        · intro _ b' hb'
          obtain rfl := Option.some.inj (before.symm.trans hb')
          exact hpast
        · intro haction
          cases action.symm.trans haction
    have hpast : ({ b with cancelled := true } : Build).PastLastSelect ↔ b.PastLastSelect := .rfl
    rw [Tracked, before] at h
    rw [Tracked, after]
    obtain ⟨hconsistent, hcancelled, hall⟩ := h
    refine ⟨hconsistent.cancel, ?_, ?_⟩
    · rw [exists_mem_concat]
      exact ⟨fun _ ↦ .inr haccepts, fun _ ↦ rfl⟩
    · rw [forall_mem_concat, hall, htime, hpast]
      constructor
      · rintro ⟨-, hbefore⟩ hboth
        exact hbefore hboth.1
      · intro h
        have hbefore : ¬ b.PastLastSelect := fun hpast ↦ h ⟨hpast, rfl⟩
        exact ⟨fun hboth ↦ hbefore hboth.1, hbefore⟩
  | advanced b b' now uuid action before step after =>
    have haccepts : ¬ Accepts id ⟨s, a, t⟩ := by
      rintro ⟨haction, -⟩
      cases action.symm.trans haction
    have htime : InTime id ⟨s, a, t⟩ := by
      refine .of_other haccepts ?_
      intro haction
      cases action.symm.trans haction
    rw [Tracked, before] at h
    rw [Tracked, after]
    obtain ⟨hconsistent, hcancelled, hall⟩ := h
    refine ⟨hconsistent.advance step, ?_, ?_⟩
    · rw [exists_mem_concat, Build.cancelled_advance step, hcancelled]
      exact ⟨.inl, fun h ↦ h.resolve_right haccepts⟩
    · rw [forall_mem_concat, hall, Build.pastLastSelect_advance step,
        Build.cancelled_advance step]
      exact ⟨fun h ↦ h.1, fun h ↦ ⟨h, htime⟩⟩
  | selected b b' branch action before step after =>
    have haccepts : ¬ Accepts id ⟨s, a, t⟩ := by
      rintro ⟨haction, -⟩
      cases action.symm.trans haction
    obtain ⟨hsame, hbefore, hpast⟩ := Build.select_cases step
    have htime : InTime id ⟨s, a, t⟩ ↔ ¬ (b'.PastLastSelect ∧ b'.cancelled = true) := by
      rw [hpast, hsame]
      constructor
      · rintro h ⟨⟨rfl, htask⟩, hcancelled⟩
        rw [h.selected action b before htask] at hcancelled
        cases hcancelled
      · intro h
        refine ⟨fun hacc ↦ absurd hacc haccepts, ?_⟩
        intro haction b₀ hb₀ htask
        obtain rfl := Option.some.inj (before.symm.trans hb₀)
        injection action.symm.trans haction with _ hbranch
        by_contra hcancelled
        exact h ⟨⟨hbranch, htask⟩, (Bool.not_eq_false _).mp hcancelled⟩
    rw [Tracked, before] at h
    rw [Tracked, after]
    obtain ⟨hconsistent, hcancelled, hall⟩ := h
    refine ⟨hconsistent.select step, ?_, ?_⟩
    · rw [exists_mem_concat, hsame, hcancelled]
      exact ⟨.inl, fun h ↦ h.resolve_right haccepts⟩
    · rw [forall_mem_concat, hall, htime]
      exact ⟨fun h ↦ h.2, fun h ↦ ⟨fun hboth ↦ hbefore hboth.1, h⟩⟩

theorem tracked_of_run {tr : List BuildTransition} (h : Run buildStep noBuilds tr s) (id : Uuid) :
    Tracked id tr s := by
  induction h with
  | nil => exact ⟨by simp, by simp⟩
  | snoc _ hstep ih => exact ih.step hstep

/-! ## Runs of the service -/

/-- A completed build stays as it is. -/
theorem completed_stays {b : Build} (hconsistent : b.Consistent)
    (hdone : b.status.completed = true) (hb : s id = some b) {tr : List BuildTransition}
    (h : Run buildStep s tr t) : t id = some b := by
  refine h.invariant (I := fun t ↦ t id = some b) hb ?_
  intro u a v hu hstep
  have htask := hconsistent.returned hdone
  cases buildStep_change hstep id with
  | none same notCancelled notSelected => rw [same, hu]
  | started projectName image now action new after => cases new.symm.trans hu
  | cancelled b' action accepted before running after =>
    obtain rfl := Option.some.inj (hu.symm.trans before)
    rw [hdone] at running
    cases running
  | advanced b₀ b' now uuid action before step after =>
    obtain rfl := Option.some.inj (hu.symm.trans before)
    rw [Build.advance, htask] at step
    cases step
  | selected b₀ b' branch action before step after =>
    obtain rfl := Option.some.inj (hu.symm.trans before)
    rw [Build.select, htask] at step
    cases step

/-- A completed build does not change any more, its events end with one terminal event that reports
its success, and no accepted cancellation of it ended in success, exactly if every one came in
time. -/
theorem cancel_decisive_iff {tr : List BuildTransition} {b : Build}
    (h : Run buildStep noBuilds tr s) (hb : s id = some b) (hdone : b.status.completed = true) :
    (∀ tr' t, Run buildStep s tr' t → (t id).map Build.status = some b.status) ∧
    (∃ success, b.status.success = some success ∧ EndsWith b.events success) ∧
    (((∃ x ∈ tr, Accepts id x) → b.status.success ≠ some true) ↔ ∀ x ∈ tr, InTime id x) := by
  have htracked := tracked_of_run h id
  rw [Tracked, hb] at htracked
  obtain ⟨hconsistent, hcancelled, hall⟩ := htracked
  have htask := hconsistent.returned hdone
  refine ⟨?_, ?_, ?_⟩
  · intro tr' t hrun
    rw [completed_stays hconsistent hdone hb hrun, Option.map_some]
  · rw [Build.Consistent, htask] at hconsistent
    exact hconsistent.2
  · have hpast : b.PastLastSelect ↔ b.status.success = some true := by
      rw [Build.PastLastSelect, htask]
    rw [hall, hpast, ← hcancelled]
    exact ⟨fun h hboth ↦ h hboth.2 hboth.1, fun h hc hs ↦ h ⟨hs, hc⟩⟩

/-- A build that is cancelled at once: three steps of its pipeline are left. -/
def earlyCancellation : List BuildAction :=
  [.startBuild "b" "shop" "registry/shop:1" 0, .cancelBuild "b", .advance "b" 0 "",
    .advance "b" 0 "", .advance "b" 0 ""]

theorem cancel_decisive_iff_early : ∃ tr s b, (Run buildStep noBuilds tr s ∧ s "b" = some b ∧
    b.status.completed = true) ∧ b.status.success = some false ∧ ∀ x ∈ tr, InTime "b" x := by
  have hends : ((execute buildStep noBuilds earlyCancellation).bind fun s ↦
      (s "b").map fun b ↦ (b.status.completed, b.status.success)) =
        some (true, some false) := by decide
  obtain ⟨s, hexecute, hbuild⟩ := Option.bind_eq_some_iff.mp hends
  obtain ⟨b, hb, hstatus⟩ := Option.map_eq_some_iff.mp hbuild
  injection hstatus with hdone hsuccess
  have hrun := Run.of_execute earlyCancellation hexecute
  refine ⟨_, s, b, ⟨hrun, hb, hdone⟩, hsuccess, ?_⟩
  refine (cancel_decisive_iff hrun hb hdone).2.2.mp fun _ ↦ ?_
  rw [hsuccess]
  decide

/-! ## A late cancellation -/

/-- The steps of a pipeline up to its last select. -/
def untilLastSelect : List BuildAction :=
  let phase := [.advance "b" 0 "", .advance "b" 0 "", .advance "b" 0 "", .advance "b" 0 "",
    .select "b" .slept]
  .startBuild "b" "shop" "registry/shop:1" 0 :: (phase ++ phase ++ phase ++ phase)

/-- The steps after it. -/
def afterLastSelect : List BuildAction :=
  [.advance "b" 0 "", .advance "b" 0 "", .advance "b" 0 "", .advance "b" 0 ""]

/-- A cancellation that is accepted after the last select: the build ends in success. -/
theorem cancel_not_decisive : ∃ tr s b, Run buildStep noBuilds tr s ∧ s "b" = some b ∧
    (∃ x ∈ tr, Accepts "b" x) ∧ b.status.completed = true ∧ b.status.success = some true := by
  have hends : ((execute buildStep noBuilds untilLastSelect).bind fun s ↦
      (execute buildStep s (.cancelBuild "b" :: afterLastSelect)).bind fun t ↦
        (t "b").map fun b ↦ ((cancelBuild s "b").toBool, b.status.completed, b.status.success)) =
          some (true, true, some true) := by decide
  obtain ⟨s, hbefore, hrest⟩ := Option.bind_eq_some_iff.mp hends
  obtain ⟨t, hafter, hbuild⟩ := Option.bind_eq_some_iff.mp hrest
  obtain ⟨b, hb, hstatus⟩ := Option.map_eq_some_iff.mp hbuild
  injection hstatus with hanswer hstatus
  injection hstatus with hdone hsuccess
  have hrun := (Run.of_execute untilLastSelect hbefore).append_execute _ t hafter
  have haccepted : cancelBuild s "b" = .ok () := by
    cases hok : cancelBuild s "b" with
    | error e =>
      rw [hok] at hanswer
      cases hanswer
    | ok u => rfl
  obtain ⟨u, hstep, -⟩ := Option.bind_eq_some_iff.mp hafter
  refine ⟨_, t, b, hrun, hb, ⟨⟨s, .cancelBuild "b", u⟩, ?_, rfl, haccepted⟩, hdone, hsuccess⟩
  rw [transitions, hstep]
  exact List.mem_append_right _ List.mem_cons_self

end ReinhardtCloud.Core

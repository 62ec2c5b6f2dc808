import ReinhardtCloud.Operator.Migration

/-!
# The API server behind the source build flow

Library `Operator`. The Project, its Kaniko and migration Jobs, its previews and what the rest of
`apply` last deployed; what the API server does with each request; and what requesters and the Job
controller do between two requests. Of the rest of `apply` the plugin check, the migration gate and
the Project's own workloads are modelled, and what its other steps refuse is a parameter. A Kaniko
and a migration Job of one name are taken apart; Redis credentials are left out.
-/

namespace ReinhardtCloud.Operator

open ReinhardtCloud.Base

/-- The Project's own Deployment, Service, Ingress, HorizontalPodAutoscaler and worker Deployment,
each as the spec it was last applied for. -/
structure Workloads where
  deployment : Option ProjectSpec
  service : Option ProjectSpec
  ingress : Option ProjectSpec
  autoscaler : Option ProjectSpec
  worker : Option ProjectSpec
  deriving DecidableEq

/-- Nothing deployed. -/
def Workloads.empty : Workloads := ⟨none, none, none, none, none⟩

/-- What else `apply` asks of a spec, the same throughout a run: that the steps between the plugin
check and the migration gate go through (service account, isolation, database,
`reconciler.rs:645–700`), and that its Ingress may have its host, by the suffixes of the operator's
environment and the other Ingresses (`reconciler.rs:1611–1615`). -/
structure ApplyChecks where
  prepare : ProjectSpec → Except Error Unit
  normalizeHost : String → Except Error (Option String)

/-- Nothing else is asked. -/
def ApplyChecks.none : ApplyChecks := ⟨fun _ ↦ .ok (), fun host ↦ .ok (some host)⟩

/-- What the rest of `apply` does to the workloads, `reconciler.rs:735–845`: a builder that refuses
the Project ends it; the optional ones are applied when the spec asks for them and left in place
when it does not. -/
def ApplyChecks.deploy (checks : ApplyChecks) (w : Workloads) (app : Project) : Workloads :=
  let pagesConfig := resolvePagesConfig app
  match buildDeployment pluginChecks app pagesConfig, buildService app pagesConfig.isSome,
    ingressStep checks.normalizeHost app pagesConfig with
  | .error _, _, _ => w
  | .ok _, .error _, _ => { w with deployment := some app.spec }
  | .ok _, .ok _, .error _ => { w with deployment := some app.spec, service := some app.spec }
  | .ok _, .ok _, .ok _ =>
    { deployment := some app.spec
      service := some app.spec
      ingress := if reconcilesIngress app then some app.spec else w.ingress
      autoscaler := if plansAutoscaler app then some app.spec else w.autoscaler
      worker := if shouldProvisionWorker app then some app.spec else w.worker }

/-- No builder refuses the Project. -/
def ApplyChecks.deploys (checks : ApplyChecks) (app : Project) : Bool :=
  let pagesConfig := resolvePagesConfig app
  (buildDeployment pluginChecks app pagesConfig).toOption.isSome &&
    (buildService app pagesConfig.isSome).toOption.isSome &&
    (ingressStep checks.normalizeHost app pagesConfig).toOption.isSome

/-- Two Projects that differ in annotations, status and version only. -/
structure SameObject (a b : Project) : Prop where
  name : b.name = a.name
  ns : b.ns = a.ns
  uid : b.uid = a.uid
  spec : b.spec = a.spec
  labels : b.labels = a.labels

/-- The workloads depend on the object alone. -/
theorem ApplyChecks.deploy_congr {checks : ApplyChecks} {w : Workloads} {a b : Project}
    (h : SameObject a b) : checks.deploy w b = checks.deploy w a := by
  obtain ⟨_, _, _, _, _, _, _, _⟩ := a
  obtain ⟨_, _, _, _, _, _, _, _⟩ := b
  obtain ⟨rfl, rfl, rfl, rfl, rfl⟩ := h
  rfl

/-- The stored objects, and what else `apply` asks of a spec. -/
structure BuildStore where
  project : Project
  jobs : String → Option Job
  previews : String → Option String
  migrations : NamespaceJobs
  workloads : Workloads
  checks : ApplyChecks

/-- No build or preview request. -/
def Annotations.cleared : Annotations := ⟨none, none, none, none⟩

/-- `status.build` of a Project. -/
def Project.build (app : Project) : Option BuildStatus := app.status.bind fun s ↦ s.build

/-- A status patch of `status.build`. -/
def Project.withBuild (app : Project) (build : Option BuildStatus) : Project :=
  { app with status := some { app.status.getD ⟨none, none, none⟩ with build := build } }

@[simp] theorem Project.build_withBuild (app : Project) (build : Option BuildStatus) :
    (app.withBuild build).build = build := rfl

@[simp] theorem Project.spec_withBuild (app : Project) (build : Option BuildStatus) :
    (app.withBuild build).spec = app.spec := rfl

@[simp] theorem Project.annotations_withBuild (app : Project) (build : Option BuildStatus) :
    (app.withBuild build).annotations = app.annotations := rfl

namespace BuildStore

/-- The migration gate of a Project among the Jobs of the namespace, behind the plugin check that
`build_plugin_configmap` makes (`reconciler.rs:625`) and the steps after it. -/
def migrationGate (s : BuildStore) (app : Project) :
    Except Error (MigrationGateState × NamespaceJobs) := do
  pluginChecks.plugins app
  s.checks.prepare app.spec
  Operator.migrationGate pluginChecks s.migrations app none

/-- A Project that gets to the gate is taken through it. -/
theorem migrationGate_ok {s : BuildStore} {app : Project} {r : MigrationGateState × NamespaceJobs}
    (h : s.migrationGate app = .ok r) :
    Operator.migrationGate pluginChecks s.migrations app none = .ok r := by
  obtain ⟨-, -, hprepare⟩ := bind_eq_ok.mp h
  obtain ⟨-, -, hgate⟩ := bind_eq_ok.mp hprepare
  exact hgate

/-- What the API server does with an accepted request. -/
def perform (s : BuildStore) : (c : BuildCall) → BuildStore × Except ApiError c.Result
  | .getJob name => (s, .ok (s.jobs name))
  | .createJob job =>
    if (s.jobs job.name).isSome then (s, .error .alreadyExists)
    else ({ s with jobs := Function.update s.jobs job.name (some job) }, .ok job)
  | .deleteJob name =>
    if (s.jobs name).isNone then (s, .error .notFound)
    else ({ s with jobs := Function.update s.jobs name none }, .ok ())
  | .patchBuildStatus build =>
    ({ s with project := s.project.withBuild (some (mergeBuildStatus s.project.build build)) },
      .ok ())
  | .clearBuildStatus => ({ s with project := s.project.withBuild none }, .ok ())
  | .clearBuildAnnotations =>
    ({ s with project := { s.project with annotations := .cleared } }, .ok ())
  | .patchProjectImage image =>
    ({ s with project := { s.project with spec := { s.project.spec with image := image } } },
      .ok ())
  | .deletePreviewProject name =>
    if (s.previews name).isNone then (s, .error .notFound)
    else ({ s with previews := Function.update s.previews name none }, .ok ())
  | .applyPreviewProject name image =>
    ({ s with previews := Function.update s.previews name (some image) }, .ok ())
  | .applyWorkloads app =>
    match s.migrationGate app with
    | .error _ => (s, .error .other)
    | .ok (state, migrations) =>
      let t := { s with
        migrations := migrations
        workloads := if state.opens then s.checks.deploy s.workloads app else s.workloads }
      if state.opens && !s.checks.deploys app then (t, .error .other)
      else
        -- `update_status` writes the observed `status.build` back, `reconciler.rs:3553,3636–3651`
        ({ t with
            project := s.project.withBuild
              ((app.build.map (mergeBuildStatus s.project.build)).or s.project.build) }, .ok ())

/-- The rest of `apply` ends at a migration gate that fails, or goes through the gate and then
writes the status back or meets a builder that refuses the Project. -/
theorem perform_applyWorkloads (s : BuildStore) (app : Project) :
    ((∃ e, s.migrationGate app = .error e) ∧ (s.perform (.applyWorkloads app)).1 = s) ∨
    ∃ state migrations project, s.migrationGate app = .ok (state, migrations) ∧
      (project = s.project ∨ project = s.project.withBuild
        ((app.build.map (mergeBuildStatus s.project.build)).or s.project.build)) ∧
      (s.perform (.applyWorkloads app)).1 = { s with
        project := project
        migrations := migrations
        workloads := if state.opens then s.checks.deploy s.workloads app else s.workloads } := by
  simp only [perform]
  cases s.migrationGate app with
  | error e => exact .inl ⟨⟨e, rfl⟩, rfl⟩
  | ok r =>
    obtain ⟨state, migrations⟩ := r
    refine .inr ⟨state, migrations, ?_⟩
    dsimp only
    by_cases hrefused : (state.opens && !s.checks.deploys app) = true
    · exact ⟨s.project, rfl, .inl rfl, by rw [if_pos hrefused]⟩
    · exact ⟨_, rfl, .inr rfl, by rw [if_neg hrefused]⟩

/-- It touches at most the status, the migrations and the workloads. -/
theorem frame_applyWorkloads (s : BuildStore) (app : Project) :
    SameObject s.project (s.perform (.applyWorkloads app)).1.project ∧
      (s.perform (.applyWorkloads app)).1.project.annotations = s.project.annotations ∧
      (s.perform (.applyWorkloads app)).1.jobs = s.jobs ∧
      (s.perform (.applyWorkloads app)).1.checks = s.checks := by
  rcases s.perform_applyWorkloads app with ⟨-, heq⟩ | ⟨_, _, _, -, rfl | rfl, heq⟩ <;> rw [heq] <;>
    exact ⟨⟨rfl, rfl, rfl, rfl, rfl⟩, rfl, rfl, rfl⟩

/-- The answer to one request and its effect. `fault` is any failure without effect. -/
def serve (s : BuildStore) (fault : Bool) (c : BuildCall) :
    BuildStore × Except ApiError c.Result :=
  if fault then (s, .error .other) else s.perform c

end BuildStore

/-- What happens to the Project and its Jobs outside the operator: a requester writes the four
annotations, or the Job controller reports on a Job. -/
inductive BuildEvent where
  | annotate (annotations : Annotations)
  | reportJob (name : String) (status : JobStatus)
  | reportMigration (name : String) (status : JobStatus)
  deriving DecidableEq

/-- One event, absent when its object is. -/
def buildEvent (s : BuildStore) : BuildEvent → Option BuildStore
  | .annotate annotations =>
    some { s with project := { s.project with annotations := annotations } }
  | .reportJob name status =>
    (s.jobs name).map fun job ↦
      { s with jobs := Function.update s.jobs name (some { job with status := some status }) }
  | .reportMigration name status =>
    (s.migrations name).map fun job ↦
      { s with migrations := Function.update s.migrations name (some (job.withStatus status)) }

/-- Requesters, the Job controller and the operator's reconciles of the Project, of which one runs
at a time; starting one reads the Project. -/
def buildStep := Solo.step BuildStore.serve buildEvent BuildStore.project applyProject

/-- A state of the machine, its actions and its transitions. -/
abbrev BuildState := Solo BuildStore Project (BuildProgram Unit)
abbrev BuildTurn := Turn BuildEvent Bool
abbrev BuildTransition := Transition BuildState BuildTurn

/-! ## A Project to try -/

/-- A Project built from source with previews. -/
def previewedProject : Project :=
  ⟨"shop", some "team", some 7, none, .cleared,
    { image := "registry.example/shop:1"
      source := some ⟨"https://git.example/shop", some "main", none,
        some ⟨none, none, some "registry.example/shop", []⟩, some ⟨true, none, none⟩⟩ }, none, none⟩

/-- Nothing stored but the Project. -/
def previewedStore : BuildStore :=
  ⟨previewedProject, fun _ ↦ none, fun _ ↦ none, fun _ ↦ none, .empty, .none⟩

end ReinhardtCloud.Operator

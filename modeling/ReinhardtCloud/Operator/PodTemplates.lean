import ReinhardtCloud.Operator.EgressPolicy
import ReinhardtCloud.Operator.Ports
import ReinhardtCloud.Operator.Rollout

/-!
# The Pod templates of an isolated Project

Library `Operator`. The containers that `build_deployment`, `build_worker_deployment`,
`build_migration_job` and `build_cache_deployment` put into their Pod templates, with the security
contexts of `resources/security/context.rs`. Environment, volumes, probes, resources and the
runtime class are left out.
-/

namespace ReinhardtCloud.Operator

/-! ## Security contexts, `context.rs` -/

/-- The fields of a container's `SecurityContext` that are set. -/
structure SecurityContext where
  allowPrivilegeEscalation : Option Bool := none
  readOnlyRootFilesystem : Option Bool := none
  dropCapabilities : Option (List String) := none
  deriving DecidableEq

/-- The fields of a `PodSecurityContext` that are set. -/
structure PodSecurityContext where
  runAsNonRoot : Option Bool := none
  runAsUser : Option Int := none
  runAsGroup : Option Int := none
  fsGroup : Option Int := none
  seccompProfile : Option String := none
  deriving DecidableEq

/-- `build_pod_security_context`, `context.rs:10–22`. -/
def buildPodSecurityContext : PodSecurityContext where
  runAsNonRoot := some true
  runAsUser := some 1000
  runAsGroup := some 1000
  fsGroup := some 1000
  seccompProfile := some "RuntimeDefault"

/-- `build_container_security_context`, `context.rs:28–38`. -/
def buildContainerSecurityContext : SecurityContext where
  allowPrivilegeEscalation := some false
  readOnlyRootFilesystem := some true
  dropCapabilities := some ["ALL"]

/-! ## Templates -/

/-- A container of a template: what it runs and its security context. -/
structure PodContainer extends Container where
  command : Option (List String) := none
  args : Option (List String) := none
  securityContext : Option SecurityContext := none
  deriving DecidableEq

/-- A `PodTemplateSpec`. -/
structure PodTemplate where
  securityContext : Option PodSecurityContext := none
  initContainers : List PodContainer := []
  containers : List PodContainer
  deriving DecidableEq

/-- The context of a container that is hardened in an isolated Project. -/
def containerSecurityContext (app : Project) : Option SecurityContext :=
  if app.spec.isolation then some buildContainerSecurityContext else none

/-- The context of a Pod that is hardened in an isolated Project. -/
def podSecurityContext (app : Project) : Option PodSecurityContext :=
  if app.spec.isolation then some buildPodSecurityContext else none

/-- The init container of `build_deployment`, `deployment.rs:168–213`. -/
def staticFilesInitContainer (app : Project) (config : ResolvedPagesConfig) : PodContainer :=
  let root := String.ofList (trimEndSlashes config.staticRoot)
  { staticFilesInit app config with
    command := some (if config.prebuilt then ["cp"] else ["manage", "collectstatic", "--no-input"])
    args := if config.prebuilt then
        some ["-RP", "--", s!"{root}/.", s!"{root}-cloud-volume/"]
      else none }

/-- The sidecar of `build_deployment`, `deployment.rs:239–295`. -/
def staticServerContainer (config : ResolvedPagesConfig) : PodContainer :=
  { staticServer config with }

/-- The template of `build_deployment`, `deployment.rs:60–372`. -/
def buildDeploymentTemplate (checks : PodChecks) (app : Project)
    (pagesConfig : Option ResolvedPagesConfig) : Except Error PodTemplate := do
  let _ ← buildDeployment checks app pagesConfig
  return {
    securityContext := podSecurityContext app
    initContainers := (pagesConfig.map (staticFilesInitContainer app)).toList
    containers :=
      { name := app.name
        image := app.spec.image
        ports := [app.spec.serviceTargetPort.getD 8000]
        securityContext := containerSecurityContext app } ::
      (pagesConfig.map staticServerContainer).toList }

/-- The template of `build_worker_deployment`, `worker.rs:25–107`. -/
def buildWorkerTemplate (app : Project) (customCommand : Option (List String)) :
    Except Error PodTemplate := do
  let _ ← requireNamespace app
  let _ ← ownerReference app
  let _ ← app.validatedImagePullSecrets
  return {
    securityContext := podSecurityContext app
    containers :=
      [{ name := "worker"
         image := app.spec.image
         ports := []
         command := some (customCommand.getD ["manage", "run_worker"])
         securityContext := containerSecurityContext app }] }

/-- The template of `build_migration_job`, `migration.rs:73–163`. -/
def buildMigrationTemplate (checks : PodChecks) (app : Project) (revisionKey : String) :
    Except Error PodTemplate := do
  let job ← buildMigrationJob checks app revisionKey
  return {
    securityContext := podSecurityContext app
    containers :=
      [{ name := "migrate"
         image := job.image
         ports := []
         command := some job.command
         securityContext := containerSecurityContext app }] }

/-- The template of `build_cache_deployment`, `cache.rs:23–89`. -/
def buildCacheTemplate (app : Project) : Except Error PodTemplate := do
  let _ ← requireNamespace app
  let _ ← ownerReference app
  return {
    containers :=
      [{ name := "redis"
         image := "redis:7-alpine"
         ports := [6379]
         args := some ["redis-server", "--requirepass", "$(REINHARDT_CLOUD_REDIS_PASSWORD)"] }] }

/-! ## What `apply` builds -/

/-- The workloads of a Project. -/
inductive Workload where
  | web
  | worker
  | migration
  | cache
  deriving DecidableEq

/-- The template that `apply` builds for a workload, `reconciler.rs:702–884`. -/
inductive Builds (checks : PodChecks) (app : Project) : Workload → PodTemplate → Prop
  | migration {template : PodTemplate} (needed : shouldProvisionPostgresql app = true)
      (built : buildMigrationTemplate checks app (migrationRevisionKey app) = .ok template) :
      Builds checks app .migration template
  | web {template : PodTemplate}
      (built : buildDeploymentTemplate checks app (resolvePagesConfig app) = .ok template) :
      Builds checks app .web template
  | cache {template : PodTemplate} (needed : needsRedis app = true)
      (built : buildCacheTemplate app = .ok template) : Builds checks app .cache template
  | worker {template : PodTemplate} {customCommand : Option (List String)}
      (needed : shouldProvisionWorker app = true)
      (built : buildWorkerTemplate app customCommand = .ok template) :
      Builds checks app .worker template

variable {checks : PodChecks} {app : Project} {template : PodTemplate} {workload : Workload}

/-- What the template of the main Deployment is. -/
theorem buildDeploymentTemplate_ok {pagesConfig : Option ResolvedPagesConfig}
    (h : buildDeploymentTemplate checks app pagesConfig = .ok template) :
    template.initContainers = (pagesConfig.map (staticFilesInitContainer app)).toList ∧
      template.containers =
        { name := app.name
          image := app.spec.image
          ports := [app.spec.serviceTargetPort.getD 8000]
          securityContext := containerSecurityContext app } ::
        (pagesConfig.map staticServerContainer).toList := by
  simp only [buildDeploymentTemplate, bind_eq_ok] at h
  obtain ⟨d, -, h⟩ := h
  obtain rfl := Except.ok.inj h
  exact ⟨rfl, rfl⟩

/-! ## Hardened templates -/

/-- Every container and init container has the hardened context. -/
def PodTemplate.Hardened (template : PodTemplate) : Prop :=
  ∀ c ∈ template.initContainers ++ template.containers,
    c.securityContext = some buildContainerSecurityContext

private theorem hardened_of_single {c : PodContainer} (hinit : template.initContainers = [])
    (hcontainers : template.containers = [c]) :
    template.Hardened ↔ c.securityContext = some buildContainerSecurityContext := by
  unfold PodTemplate.Hardened
  rw [hinit, hcontainers, List.nil_append, List.forall_mem_singleton]

private theorem containerSecurityContext_of_isolation (h : app.spec.isolation = true) :
    containerSecurityContext app = some buildContainerSecurityContext := by
  rw [containerSecurityContext, if_pos h]

/-- The main Deployment is hardened unless it serves pages: then its init container and its sidecar
are not. -/
theorem hardened_web_iff (hisolation : app.spec.isolation = true)
    (h : buildDeploymentTemplate checks app (resolvePagesConfig app) = .ok template) :
    template.Hardened ↔ shouldEnablePages app = false := by
  obtain ⟨hinit, hcontainers⟩ := buildDeploymentTemplate_ok h
  have hpages := @isSome_resolvePagesConfig app
  cases hconfig : resolvePagesConfig app with
  | none =>
    rw [hconfig] at hinit hcontainers hpages
    rw [hardened_of_single hinit hcontainers, ← hpages]
    exact iff_of_true (containerSecurityContext_of_isolation hisolation) rfl
  | some config =>
    rw [hconfig] at hinit hcontainers hpages
    rw [← hpages]
    apply iff_of_false
    · intro hhardened
      have hserver := hhardened (staticServerContainer config) (by
        rw [hcontainers]
        simp)
      cases hserver
    · exact Bool.noConfusion

/-- The template of every other workload is hardened, but for Redis. -/
theorem hardened_iff (hisolation : app.spec.isolation = true)
    (h : Builds checks app workload template) :
    template.Hardened ↔ workload ≠ .cache ∧ (workload = .web → shouldEnablePages app = false) := by
  have hcontext := containerSecurityContext_of_isolation hisolation
  cases h with
  | web built =>
    rw [hardened_web_iff hisolation built]
    constructor
    · intro hpages
      exact ⟨by decide, fun _ ↦ hpages⟩
    · rintro ⟨-, hpages⟩
      exact hpages rfl
  | migration needed built =>
    simp only [buildMigrationTemplate, bind_eq_ok] at built
    obtain ⟨job, -, built⟩ := built
    obtain rfl := Except.ok.inj built
    rw [hardened_of_single rfl rfl]
    apply iff_of_true hcontext
    exact ⟨by decide, fun hweb ↦ by cases hweb⟩
  | worker needed built =>
    simp only [buildWorkerTemplate, bind_eq_ok] at built
    obtain ⟨_, -, _, -, _, -, built⟩ := built
    obtain rfl := Except.ok.inj built
    rw [hardened_of_single rfl rfl]
    apply iff_of_true hcontext
    exact ⟨by decide, fun hweb ↦ by cases hweb⟩
  | cache needed built =>
    simp only [buildCacheTemplate, bind_eq_ok] at built
    obtain ⟨_, -, _, -, built⟩ := built
    obtain rfl := Except.ok.inj built
    rw [hardened_of_single rfl rfl]
    apply iff_of_false
    · decide
    · exact fun hcache ↦ hcache.1 rfl

/-- A Project whose main Deployment can be built has a namespace and an identity, and so a Redis
Deployment that can be. -/
theorem buildCacheTemplate_of_buildDeployment {pagesConfig : Option ResolvedPagesConfig}
    {d : Deployment} (hd : buildDeployment checks app pagesConfig = .ok d) :
    ∃ template, buildCacheTemplate app = .ok template := by
  simp only [buildDeployment, bind_eq_ok] at hd
  obtain ⟨ns, hns, _, -, owner, howner, -⟩ := hd
  refine ⟨_, bind_eq_ok.mpr ⟨ns, hns, bind_eq_ok.mpr ⟨owner, howner, rfl⟩⟩⟩

theorem buildDeploymentTemplate_of_buildDeployment {pagesConfig : Option ResolvedPagesConfig}
    {d : Deployment} (hd : buildDeployment checks app pagesConfig = .ok d) :
    ∃ template, buildDeploymentTemplate checks app pagesConfig = .ok template :=
  ⟨_, bind_eq_ok.mpr ⟨d, hd, rfl⟩⟩

/-- In an isolated Project a template is hardened unless it is that of Redis or that of a main
Deployment with pages. Where the main Deployment can be built, all of them are exactly when the
Project needs neither. -/
theorem apply_hardened_iff (hisolation : app.spec.isolation = true) :
    (∀ workload template, Builds checks app workload template →
      (template.Hardened ↔
        workload ≠ .cache ∧ (workload = .web → shouldEnablePages app = false))) ∧
      ∀ d, buildDeployment checks app (resolvePagesConfig app) = .ok d →
        ((∀ workload template, Builds checks app workload template → template.Hardened) ↔
          shouldEnablePages app = false ∧ needsRedis app = false) := by
  refine ⟨fun workload template h ↦ hardened_iff hisolation h, ?_⟩
  intro d hd
  constructor
  · intro hall
    constructor
    · obtain ⟨template, built⟩ := buildDeploymentTemplate_of_buildDeployment hd
      exact (hardened_web_iff hisolation built).mp (hall _ _ (.web built))
    · by_contra hneeded
      obtain ⟨template, built⟩ := buildCacheTemplate_of_buildDeployment hd
      have hcache : Builds checks app .cache template :=
        .cache (Bool.eq_true_of_not_eq_false hneeded) built
      exact ((hardened_iff hisolation hcache).mp (hall _ _ hcache)).1 rfl
  · rintro ⟨hpages, hredis⟩ workload template h
    rw [hardened_iff hisolation h]
    refine ⟨?_, fun _ ↦ hpages⟩
    rintro rfl
    cases h with
    | cache needed built =>
      rw [hredis] at needed
      cases needed

/-- An isolated Project with a worker and nothing else. -/
theorem apply_hardened_worker :
    ∃ app template, app.spec.isolation = true ∧
      Builds passingChecks app .worker template ∧ template.Hardened := by
  let app := isolatedProject {}
  let worker : Project := { app with spec := { app.spec with worker := true } }
  have h := (@apply_hardened_iff passingChecks worker rfl).1
  have hbuilds : Builds passingChecks worker .worker _ := @Builds.worker _ _ _ none rfl rfl
  exact ⟨worker, _, rfl, hbuilds, (h _ _ hbuilds).mpr ⟨by decide, fun hweb ↦ by cases hweb⟩⟩

/-- The init container of an isolated Project with pages is not hardened. -/
theorem apply_not_hardened :
    ¬ ∀ checks (app : Project), app.spec.isolation = true →
      ∀ workload template, Builds checks app workload template → template.Hardened := by
  intro h
  let app := isolatedProject {}
  let shop : Project :=
    { app with spec := { app.spec with pages := some ⟨none, none, none, none⟩ } }
  have hbuilt : buildDeploymentTemplate passingChecks shop (resolvePagesConfig shop) = .ok _ := rfl
  have hinit := h passingChecks shop rfl _ _ (.web hbuilt)
  exact absurd (hinit _ (List.mem_append_left _ List.mem_cons_self)) (by decide)

end ReinhardtCloud.Operator

import ReinhardtCloud.Operator.MigrationRuns

/-!
# Security resources and tenant code

Library `Operator`. One pass of `apply` as a client of the API server, in source order
(`crates/reinhardt-cloud-operator/src/reconciler.rs:429–927`), and the passes of an isolated
Project one after the other. The API server's answers are arbitrary. Left out are the reads
behind the status conditions, the replica gauges and the warning about Git credentials.
-/

namespace ReinhardtCloud.Operator

open ReinhardtCloud.Base

/-- Requests of a pass. -/
inductive ApplyCall where
  /-- One write of `applyOperations` with the reads it depends on. -/
  | perform (op : Operation)
  /-- `reconcile_redis_credentials_secret`. -/
  | reconcileRedisSecret
  | reconcilePreviewNamespace
  | reconcilePreviewTtlCleanup
  | build (call : BuildCall)
  /-- `reconcile_pss_labels`. -/
  | labelPodSecurity
  | getMigrationJob (name : String)
  | createMigrationJob (job : MigrationJob)
  | deleteMigrationJob (name : String)
  | updateStatus

/-- What each request returns when it succeeds. -/
@[reducible] def ApplyCall.Result : ApplyCall → Type
  | .reconcileRedisSecret => Uid
  | .build call => call.Result
  | .getMigrationJob _ => Option NamespaceJob
  | _ => Unit

/-- A client of the API server in one pass. -/
abbrev ApplyProgram := Program ApplyCall (fun c ↦ Except ApiError c.Result) Error

/-- Send a request; `?` on the answer. -/
def applyApi (c : ApplyCall) : ApplyProgram c.Result :=
  .call c fun
    | .ok r => pure r
    | .error e => .fail (.kube e)

/-- Writes one after the other. -/
def performAll : List Operation → ApplyProgram Unit
  | [] => pure ()
  | op :: rest => do
    applyApi (.perform op)
    performAll rest

/-- A part of the source build flow as a part of the pass. -/
def buildPart {α : Type} (p : BuildProgram α) : ApplyProgram α :=
  p.handle fun c ↦ .call (.build c) fun r ↦ pure r

/-! ## The parts of `apply` -/

/-- The Redis Secret and its running consumers, `reconciler.rs:472–493`. -/
def reconcileRedis (app : Project) : ApplyProgram (Option Uid) :=
  if shouldProvisionCache app || needsRedisSessions app then do
    let uid ← applyApi .reconcileRedisSecret
    performAll [named .deployment "" .rollIfControlled,
      named .deployment "-worker" .rollIfControlled, named .deployment "-redis" .rollIfControlled]
    pure (some uid)
  else pure none

/-- The generated Secrets, `reconciler.rs:495–543`. -/
def generatedSecrets (app : Project) : List Operation :=
  [named .secret "-core-secret-key" .createIfAbsent] ++
    onlyIf app.spec.authJwt [named .secret "-jwt-secret" .createIfAbsent]

/-- The plugin ConfigMap and the workload's ServiceAccount, `reconciler.rs:619–641`. -/
def workloadPrerequisites (app : Project) : List Operation :=
  onlyIf (app.spec.plugins.any fun plugins ↦ !plugins.isEmpty)
    [named .configMap "-dentdelion-plugins" .forceApply] ++
  onlyIf (app.spec.serviceAccount.any fun sa ↦ sa.create)
    [⟨.serviceAccount, ((app.spec.serviceAccount.bind fun sa ↦ sa.name).map .fixed).getD
      (.suffixed "-app"), .applyServiceAccount⟩]

/-- `reconcile_network_policies` and `reconcile_resource_limits`. -/
def isolationOperations : List Operation :=
  [named .networkPolicy "-deny-all" .forceApply, named .networkPolicy "-allow-ingress" .forceApply,
    named .networkPolicy "-allow-egress" .forceApply, named .limitRange "-limits" .forceApply]

/-- The security resources, `reconciler.rs:643–655`. -/
def reconcileSecurity (app : Project) : ApplyProgram Unit :=
  if app.spec.isolation then do
    performAll isolationOperations
    applyApi .labelPodSecurity
  else pure ()

/-- `reconcile_migration_job_resource` behind its condition, `reconciler.rs:702–713,1368–1422`. -/
def reconcileMigration (checks : PodChecks) (app : Project) (redisProvenance : Option Uid) :
    ApplyProgram MigrationGateState :=
  if shouldProvisionPostgresql app then do
    let revisionKey := migrationRevisionKey app
    let jobName := migrationJobName app revisionKey
    match ← applyApi (.getMigrationJob jobName) with
    | some existing =>
      if jobCompleted existing.status then pure .succeeded
      else if jobConditionIsTrue existing.status "Failed" then
        if hasStaleRedisCredentials existing redisProvenance then do
          applyApi (.deleteMigrationJob jobName)
          pure .running
        else pure .failed
      else pure .running
    | none =>
      let desired ← .done (buildMigrationJob checks app revisionKey)
      applyApi (.createMigrationJob { desired with redisCredentialsUid := redisProvenance })
      pure .running
  else pure .notRequired

/-- The objects applied once the migration gate is open, `reconciler.rs:735–893`. -/
def workloadOperations (app : Project) : List Operation :=
  [named .deployment "" .applyIfControlled, named .service "" .applyIfControlled] ++
  onlyIf (reconcilesIngress app) [named .ingress "" .forceApply] ++
  onlyIf (plansAutoscaler app) [named .horizontalPodAutoscaler "" .forceApply] ++
  onlyIf (shouldProvisionCache app) cacheOperations ++
  onlyIf (shouldProvisionWorker app) [named .deployment "-worker" .forceApply] ++
  onlyIf (app.spec.introspect.any fun i ↦ i.signals.grpc) [named .service "-grpc" .forceApply] ++
  onlyIf (shouldProvisionMail app) [named .secret "-smtp-credentials" .createIfAbsent] ++
  onlyIf (needsRedisSessions app && !shouldProvisionCache app) cacheOperations ++
  onlyIf (app.spec.introspect.any fun i ↦ i.signals.i18n)
    [named .configMap "-locales" .forceApply]

/-- From the database on, `reconciler.rs:657–927`. -/
def reconcileWorkloads (checks : PodChecks) (platform : Platform) (app : Project)
    (redisProvenance : Option Uid) : ApplyProgram Unit := do
  performAll (databaseOperations platform app)
  let migrationState ← reconcileMigration checks app redisProvenance
  if migrationState.opens then do
    performAll (workloadOperations app)
    applyApi .updateStatus
  else applyApi .updateStatus

/-- What follows the source build gate, `reconciler.rs:596–927`. -/
def passGate (checks : PodChecks) (platform : Platform) (app : Project)
    (redisProvenance : Option Uid) : BuildDecision → ApplyProgram Unit
  | .noBuild => do
    performAll (workloadPrerequisites app)
    reconcileSecurity app
    reconcileWorkloads checks platform app redisProvenance
  | decision => buildPart (sourceBuildGate app decision)

/-- A part of the pass that a condition guards. -/
def onCondition (c : Bool) (part : ApplyProgram Unit) : ApplyProgram Unit :=
  if c then part else pure ()

/-- `apply`. A tenant that is not accepted ends it with an error. -/
def applyPass (checks : PodChecks) (platform : Platform) (ns : String) (app : Project) :
    ApplyProgram Unit :=
  if tenantAccepted app ns then do
    performAll (onlyIf app.spec.tenant.isSome tenantOperations)
    let redisProvenance ← reconcileRedis app
    performAll (generatedSecrets app)
    onCondition (previewsEnabled app) (applyApi .reconcilePreviewNamespace)
    if ← buildPart (reconcilePreviewDeleteAction app) then pure ()
    else do
      onCondition (previewsEnabled app) (applyApi .reconcilePreviewTtlCleanup)
      let decision ← buildPart (reconcileSourceBuild app)
      passGate checks platform app redisProvenance decision
  else pure ()

/-- The parts write the objects of `applyOperations`, in its order. -/
theorem applyOperations_eq_parts (platform : Platform) (app : Project) (ns : String) :
    applyOperations platform app ns =
      onlyIf (tenantAccepted app ns) (onlyIf app.spec.tenant.isSome tenantOperations ++
        (onlyIf (shouldProvisionCache app || needsRedisSessions app) redisOperations ++
          generatedSecrets app ++ workloadPrerequisites app ++
          onlyIf app.spec.isolation isolationOperations ++ databaseOperations platform app ++
          workloadOperations app)) := by
  simp only [applyOperations, projectOperations, generatedSecrets, workloadPrerequisites,
    isolationOperations, workloadOperations, List.append_assoc]

/-! ## Passes over an isolated Project -/

/-- A Project whose spec asks for isolation. -/
abbrev IsolatedProject := { app : Project // app.spec.isolation = true }

/-- The Project, the writes applied so far, whether the namespace has been labelled, and the
Deployments the Project controls. -/
structure IsolationStore where
  project : IsolatedProject
  performed : List Operation
  podSecurityLabelled : Bool
  deployments : List ObjectName

namespace IsolationStore

/-- The network policies, the LimitRange and the Pod Security labels have been applied. -/
def Secured (s : IsolationStore) : Prop :=
  (∀ op ∈ isolationOperations, op ∈ s.performed) ∧ s.podSecurityLabelled = true

instance (s : IsolationStore) : Decidable s.Secured :=
  inferInstanceAs (Decidable ((∀ op ∈ isolationOperations, _) ∧ _))

/-- The Deployments that run the tenant's image: the Project's own and its worker. -/
def tenantDeployments : List ObjectName := [.suffixed "", .suffixed "-worker"]

/-- The operation addresses a Deployment that runs the tenant's image. -/
def runsTenantImage (op : Operation) : Bool :=
  op.kind = .deployment && tenantDeployments.contains op.name

/-- The request creates or updates a Job or Deployment that runs the tenant's image or builds the
tenant's source. Rolling updates only a Deployment that the Project controls. -/
def launches (s : IsolationStore) : ApplyCall → Bool
  | .perform op => runsTenantImage op && (op.access.creates || s.deployments.contains op.name)
  | .build (.createJob _) => true
  | .createMigrationJob _ => true
  | _ => false

/-- The effect of an accepted request on what is tracked. -/
def perform (s : IsolationStore) : ApplyCall → IsolationStore
  | .perform op => { s with
      performed := op :: s.performed
      deployments := if op.kind = .deployment && op.access.creates then op.name :: s.deployments
        else s.deployments }
  | .labelPodSecurity => { s with podSecurityLabelled := true }
  | _ => s

/-- The API server answers as it likes; a refused request has no effect. -/
def serve (s : IsolationStore) (answers : (c : ApplyCall) → Except ApiError c.Result)
    (c : ApplyCall) : IsolationStore × Except ApiError c.Result :=
  match answers c with
  | .ok r => (s.perform c, .ok r)
  | .error e => (s, .error e)

end IsolationStore

/-- Outside the operator: the Project is edited and stays isolated, or a Deployment is deleted. -/
inductive IsolationEvent where
  | edit (app : IsolatedProject)
  | deleteDeployment (name : ObjectName)

/-- One event. -/
def isolationEvent (s : IsolationStore) : IsolationEvent → Option IsolationStore
  | .edit app => some { s with project := app }
  | .deleteDeployment name =>
    some { s with deployments := s.deployments.filter fun other ↦ other ≠ name }

/-- Edits and the passes over the Project, one at a time; a pass may stop at any request. -/
def isolationStep (checks : PodChecks) (platform : Platform) (ns : String) :=
  Solo.step IsolationStore.serve isolationEvent id fun s ↦
    applyPass checks platform ns s.project.1

/-- A Project that has just been created. -/
def createdProject (app : IsolatedProject) : IsolationStore := ⟨app, [], false, []⟩

/-- The machine's states and actions. -/
abbrev IsolationState := Solo IsolationStore IsolationStore (ApplyProgram Unit)
abbrev IsolationTurn :=
  Turn IsolationEvent ((c : ApplyCall) → Except ApiError c.Result)
abbrev IsolationTransition := Transition IsolationState IsolationTurn

/-- The next request of the running pass. -/
def pending (s : IsolationState) : Option ApplyCall :=
  match s.current with
  | some (_, .call c _) => some c
  | _ => none

/-- The transition serves a request of the running pass. -/
def Issues (x : IsolationTransition) (c : ApplyCall) : Prop :=
  (∃ answers, x.action = .serve answers) ∧ pending x.before = some c

/-! ## What a pass does before and after its security step -/

namespace IsolationStore

/-- A Deployment of the tenant's image that the Project controls was applied after the security
resources. -/
def Ordered (s : IsolationStore) : Prop :=
  ∀ name ∈ tenantDeployments, name ∈ s.deployments → s.Secured

/-- What has been applied stays in the record. -/
def Grows (s t : IsolationStore) : Prop :=
  (∀ op ∈ s.performed, op ∈ t.performed) ∧
    (s.podSecurityLabelled = true → t.podSecurityLabelled = true)

theorem Secured.grows {s t : IsolationStore} (h : s.Secured) (hst : s.Grows t) : t.Secured :=
  ⟨fun op hop ↦ hst.1 op (h.1 op hop), hst.2 h.2⟩

theorem grows_perform (s : IsolationStore) (c : ApplyCall) : s.Grows (s.perform c) := by
  cases c with
  | perform op => exact ⟨fun q hq ↦ List.mem_cons_of_mem op hq, id⟩
  | labelPodSecurity => exact ⟨fun _ h ↦ h, fun _ ↦ rfl⟩
  | _ => exact ⟨fun _ h ↦ h, id⟩

/-- What every step keeps: the order and the record. -/
def Keeps (s t : IsolationStore) : Prop := (s.Ordered → t.Ordered) ∧ s.Grows t

/-- A pass assumes of the others that they keep the order, keeps it itself, and launches tenant
code only after the security resources. -/
def contract : Contract IsolationStore ApplyCall Error Unit where
  rely := Keeps
  pre _ _ := True
  guar s c t := Keeps s t ∧ (s.Ordered → s.launches c = true → s.Secured)
  post _ _ := True

/-- Requests that launch nothing but a restart of Deployments that are there. -/
def Harmless : ApplyCall → Prop
  | .perform op => (runsTenantImage op && op.access.creates) = false
  | .build (.createJob _) => False
  | .createMigrationJob _ => False
  | _ => True

instance (op : Operation) : Decidable (Harmless (.perform op)) :=
  inferInstanceAs (Decidable (_ = false))

theorem Ordered.of_secured {s : IsolationStore} (h : s.Secured) : s.Ordered :=
  fun _ _ _ ↦ h

private theorem serve_cases (s : IsolationStore)
    (answers : (c : ApplyCall) → Except ApiError c.Result) (c : ApplyCall) :
    (serve s answers c).1 = s ∨ (serve s answers c).1 = s.perform c := by
  unfold serve
  cases answers c with
  | ok r => exact .inr rfl
  | error e => exact .inl rfl

private theorem serve_grows (s : IsolationStore)
    (answers : (c : ApplyCall) → Except ApiError c.Result) (c : ApplyCall) :
    s.Grows (serve s answers c).1 := by
  rcases serve_cases s answers c with h | h
  · rw [h]
    exact ⟨fun _ h ↦ h, id⟩
  · rw [h]
    exact s.grows_perform c

private theorem Ordered.perform {s : IsolationStore} (h : s.Ordered) {c : ApplyCall}
    (hc : Harmless c) : (s.perform c).Ordered := by
  intro name hname hdeployed
  refine Secured.grows ?_ (s.grows_perform c)
  cases c with
  | perform op =>
    simp only [IsolationStore.perform] at hdeployed
    split at hdeployed
    · next hcreates =>
      simp only [Bool.and_eq_true, decide_eq_true_eq] at hcreates
      rcases List.mem_cons.mp hdeployed with rfl | hdeployed
      · have hruns : runsTenantImage op = true := by simp [runsTenantImage, hcreates.1, hname]
        simp [Harmless, hruns, hcreates.2] at hc
      · exact h name hname hdeployed
    · exact h name hname hdeployed
  | _ => exact h name hname hdeployed

/-- A harmless request keeps the order and restarts only what was applied in order. -/
theorem guar_of_harmless {s : IsolationStore} {c : ApplyCall} (hc : Harmless c)
    (answers : (c : ApplyCall) → Except ApiError c.Result) :
    contract.guar s c (serve s answers c).1 := by
  refine ⟨⟨fun hs ↦ ?_, serve_grows s answers c⟩, ?_⟩
  · rcases serve_cases s answers c with h | h
    · rwa [h]
    · rw [h]
      exact hs.perform hc
  · intro hs hlaunches
    cases c with
    | perform op =>
      simp only [launches, Bool.and_eq_true, Bool.or_eq_true, List.contains_iff_mem] at hlaunches
      obtain ⟨hruns, hcreates | hdeployed⟩ := hlaunches
      · simp [Harmless, hruns, hcreates] at hc
      · simp only [runsTenantImage, Bool.and_eq_true, List.contains_iff_mem] at hruns
        exact hs op.name hruns.2 hdeployed
    | build call =>
      cases call with
      | createJob job => exact hc.elim
      | _ => simp [launches] at hlaunches
    | createMigrationJob job => exact hc.elim
    | _ => simp [launches] at hlaunches

/-- Once the security resources are applied, any request is in order. -/
theorem guar_of_secured {s : IsolationStore} {c : ApplyCall} (hs : s.Secured)
    (answers : (c : ApplyCall) → Except ApiError c.Result) :
    contract.guar s c (serve s answers c).1 ∧ (serve s answers c).1.Secured := by
  have hgrows := serve_grows s answers c
  have ht := hs.grows hgrows
  exact ⟨⟨⟨fun _ ↦ .of_secured ht, hgrows⟩, fun _ _ ↦ hs⟩, ht⟩

/-- Any program meets the contract from a secured store. -/
theorem meets_of_secured {p : ApplyProgram Unit} {s : IsolationStore} (hs : s.Secured) :
    p.Meets serve contract s := by
  induction p generalizing s with
  | done r => trivial
  | call c next ih =>
    intro t ht _ answers
    obtain ⟨hguar, hsecured⟩ := guar_of_secured (hs.grows ht.2) answers
    exact ⟨hguar, ih _ hsecured⟩

/-- Harmless requests may precede anything that meets the contract wherever they end. -/
theorem meets_bind_of_harmless {α : Type} {p : ApplyProgram α} {f : α → ApplyProgram Unit}
    (hp : p.Only Harmless) (hf : ∀ a s, (f a).Meets serve contract s) (s : IsolationStore) :
    (p.bind f).Meets serve contract s := by
  induction p generalizing s with
  | done r =>
    cases r with
    | ok a => exact hf a s
    | error e => trivial
  | call c next ih =>
    intro t _ _ answers
    exact ⟨guar_of_harmless hp.1 answers, ih _ (hp.2 _) _⟩

/-- What follows a list of writes may use that they, and earlier ones, have been applied. -/
theorem meets_performAll_bind {f : Unit → ApplyProgram Unit} {ops : List Operation}
    (earlier : List Operation) (hops : ∀ op ∈ ops, Harmless (.perform op))
    (hf : ∀ s : IsolationStore, (∀ op ∈ earlier ++ ops, op ∈ s.performed) →
      (f ()).Meets serve contract s)
    {s : IsolationStore} (hs : ∀ op ∈ earlier, op ∈ s.performed) :
    ((performAll ops).bind f).Meets serve contract s := by
  induction ops generalizing earlier s with
  | nil => exact hf s (by simpa using hs)
  | cons op rest ih =>
    intro t ht _ answers
    refine ⟨guar_of_harmless (hops op List.mem_cons_self) answers, ?_⟩
    cases hanswer : answers (.perform op) with
    | error e => simp [serve, hanswer, Program.fail, contract]
    | ok r =>
      have hserved : serve t answers (.perform op) = (t.perform (.perform op), .ok r) := by
        simp [serve, hanswer]
      rw [hserved]
      refine ih (earlier ++ [op]) (fun q hq ↦ hops q (List.mem_cons_of_mem op hq))
        (fun u hu ↦ hf u (by simpa using hu)) ?_
      intro q hq
      rcases List.mem_append.mp hq with hq | hq
      · exact List.mem_cons_of_mem op (ht.2.1 q (hs q hq))
      · rw [List.mem_singleton.mp hq]
        exact List.mem_cons_self

/-- What follows the security step of an isolated Project starts from a secured store. -/
theorem meets_reconcileSecurity_bind {app : Project} (happ : app.spec.isolation = true)
    {f : Unit → ApplyProgram Unit}
    (hf : ∀ s : IsolationStore, s.Secured → (f ()).Meets serve contract s) (s : IsolationStore) :
    ((reconcileSecurity app).bind f).Meets serve contract s := by
  rw [reconcileSecurity, if_pos happ, Program.bind_eq, Program.bind_assoc]
  refine meets_performAll_bind [] (by decide) ?_ (by simp)
  intro t ht u hu _ answers
  refine ⟨guar_of_harmless (c := .labelPodSecurity) trivial answers, ?_⟩
  cases hanswer : answers .labelPodSecurity with
  | error e => simp [serve, hanswer, Program.fail, contract]
  | ok r =>
    have hserved : serve u answers .labelPodSecurity = (u.perform .labelPodSecurity, .ok r) := by
      simp [serve, hanswer]
    rw [hserved]
    exact hf _ ⟨fun op hop ↦ hu.2.1 op (ht op hop), rfl⟩

/-! ### The requests before the security step -/

private theorem only_api {c : ApplyCall} (hc : Harmless c) : (applyApi c).Only Harmless := by
  refine ⟨hc, fun r ↦ ?_⟩
  cases r <;> trivial

private theorem only_performAll {ops : List Operation}
    (hops : ∀ op ∈ ops, Harmless (.perform op)) : (performAll ops).Only Harmless := by
  induction ops with
  | nil => trivial
  | cons op rest ih =>
    exact Program.only_bind (only_api (hops op List.mem_cons_self))
      fun _ ↦ ih fun q hq ↦ hops q (List.mem_cons_of_mem op hq)

private theorem harmless_onlyIf {c : Bool} {ops : List Operation}
    (hops : ∀ op ∈ ops, Harmless (.perform op)) : ∀ op ∈ onlyIf c ops, Harmless (.perform op) := by
  cases c
  · simp [onlyIf]
  · simpa [onlyIf] using hops

private theorem only_onCondition (c : Bool) {p : ApplyProgram Unit} (hp : p.Only Harmless) :
    (onCondition c p).Only Harmless := by
  cases c
  · trivial
  · exact hp

private theorem only_reconcileRedis (app : Project) : (reconcileRedis app).Only Harmless := by
  unfold reconcileRedis
  split
  · exact Program.only_bind (only_api trivial) fun _ ↦
      Program.only_bind (only_performAll (by decide)) fun _ ↦ trivial
  · trivial

private theorem harmless_generatedSecrets (app : Project) :
    ∀ op ∈ generatedSecrets app, Harmless (.perform op) := by
  rw [generatedSecrets, List.forall_mem_append]
  exact ⟨by decide, harmless_onlyIf (by decide)⟩

private theorem harmless_workloadPrerequisites (app : Project) :
    ∀ op ∈ workloadPrerequisites app, Harmless (.perform op) := by
  rw [workloadPrerequisites, List.forall_mem_append]
  exact ⟨harmless_onlyIf (by decide), harmless_onlyIf (by simp [Harmless, runsTenantImage])⟩

/-- Requests of the build flow that create no Job. -/
def CreatesNoJob (c : BuildCall) : Prop := ∀ job, c ≠ .createJob job

private theorem only_buildPart {α : Type} {p : BuildProgram α} (hp : p.Only CreatesNoJob) :
    (buildPart p).Only Harmless := by
  refine Program.only_handle (A := CreatesNoJob) (fun c hc ↦ ?_) hp
  refine ⟨?_, fun _ ↦ trivial⟩
  cases c with
  | createJob job => exact absurd rfl (hc job)
  | _ => trivial

private theorem only_buildApi {c : BuildCall} (hc : CreatesNoJob c) :
    (buildApi c).Only CreatesNoJob := by
  refine ⟨hc, fun r ↦ ?_⟩
  cases r <;> trivial

private theorem only_decideFromJobState (build : BuildStatus) (state : JobBuildState) :
    (decideFromJobState build state).Only CreatesNoJob := by
  cases state with
  | running => exact Program.only_bind (only_buildApi (by rintro _ ⟨⟩)) fun _ ↦ trivial
  | succeeded => trivial
  | failed reason message =>
    exact Program.only_bind (only_buildApi (by rintro _ ⟨⟩)) fun _ ↦ trivial

private theorem only_reconcileRecordedBuild (app : Project) :
    (reconcileRecordedBuild app).Only CreatesNoJob := by
  unfold reconcileRecordedBuild
  split
  · trivial
  · split
    · refine Program.only_bind (only_buildApi (by rintro _ ⟨⟩)) fun job ↦ ?_
      cases job with
      | none => exact Program.only_bind (only_buildApi (by rintro _ ⟨⟩)) fun _ ↦ trivial
      | some job => exact only_decideFromJobState _ _
    · trivial

private theorem only_acceptNewBuild (build : BuildStatus) (job : Job) :
    (acceptNewBuild build job).Only CreatesNoJob :=
  Program.only_bind (only_buildApi (by rintro _ ⟨⟩)) fun _ ↦
    Program.only_bind (only_buildApi (by rintro _ ⟨⟩)) fun _ ↦ only_decideFromJobState _ _

/-- Without a requested build whose Job can be built the build flow creates no Job. -/
theorem only_reconcileSourceBuild {app : Project} (hbuild : requestedBuildJob app = none) :
    (reconcileSourceBuild app).Only CreatesNoJob := by
  unfold reconcileSourceBuild
  split
  · exact Program.only_bind (only_buildApi (by rintro _ ⟨⟩))
      fun _ ↦ only_reconcileRecordedBuild app
  · rw [deriveNewBuildStatus_eq]
    cases hrequested : requestedBuild app with
    | none => exact only_reconcileRecordedBuild app
    | some build =>
      show (reconcileNewBuild app build).Only CreatesNoJob
      refine Program.only_bind (only_buildApi (by rintro _ ⟨⟩)) fun job ↦ ?_
      cases job with
      | some job => exact only_acceptNewBuild build job
      | none =>
        -- the Job cannot be built, so the flow ends before it is created
        cases hjob : buildJobForStatus app build with
        | ok job => simp [requestedBuildJob, hrequested, hjob, Except.toOption] at hbuild
        | error e => simp [ofExcept, Program.Only]

private theorem only_reconcilePreviewDeleteAction (app : Project) :
    (reconcilePreviewDeleteAction app).Only CreatesNoJob := by
  unfold reconcilePreviewDeleteAction clearPreviewBuildForDelete
  split
  · refine Program.only_bind ?_ fun _ ↦ ⟨by rintro _ ⟨⟩, fun r ↦ ?_⟩
    · split
      · trivial
      · split
        · exact only_buildApi (by rintro _ ⟨⟩)
        · exact ⟨by rintro _ ⟨⟩, fun _ ↦ only_buildApi (by rintro _ ⟨⟩)⟩
    · have hcleared : (clearBuildAnnotations.bind fun _ ↦ .done (.ok true)).Only CreatesNoJob :=
        Program.only_bind (only_buildApi (by rintro _ ⟨⟩)) fun _ ↦ trivial
      match r with
      | .ok _ => exact hcleared
      | .error .notFound => exact hcleared
      | .error .alreadyExists => trivial
      | .error .conflict => trivial
      | .error .other => trivial
  · trivial

private theorem only_reconcilePreviewFromBuild (app : Project) (build : BuildStatus) :
    (reconcilePreviewFromBuild app build).Only CreatesNoJob := by
  unfold reconcilePreviewFromBuild
  split <;> first | trivial | exact only_buildApi (by rintro _ ⟨⟩)

private theorem only_sourceBuildGate (app : Project) (decision : BuildDecision) :
    (sourceBuildGate app decision).Only CreatesNoJob := by
  cases decision with
  | noBuild => exact only_buildApi (by rintro _ ⟨⟩)
  | waiting => trivial
  | failed build => trivial
  | succeeded build =>
    simp only [sourceBuildGate]
    split
    · exact Program.only_bind (only_buildApi (by rintro _ ⟨⟩))
        fun _ ↦ only_buildApi (by rintro _ ⟨⟩)
    · exact Program.only_bind (only_reconcilePreviewFromBuild app build)
        fun _ ↦ only_buildApi (by rintro _ ⟨⟩)

/-! ### A pass -/

private theorem meets_of_harmless {p : ApplyProgram Unit} (hp : p.Only Harmless)
    (s : IsolationStore) : p.Meets serve contract s := by
  induction p generalizing s with
  | done r => trivial
  | call c next ih =>
    intro t _ _ answers
    exact ⟨guar_of_harmless hp.1 answers, ih _ (hp.2 _) _⟩

/-- What follows the gate applies the security resources before it launches anything. -/
theorem meets_passGate (checks : PodChecks) (platform : Platform) {app : Project}
    (happ : app.spec.isolation = true) (redisProvenance : Option Uid) (decision : BuildDecision)
    (s : IsolationStore) :
    (passGate checks platform app redisProvenance decision).Meets serve contract s := by
  cases decision with
  | noBuild =>
    refine meets_bind_of_harmless (only_performAll (harmless_workloadPrerequisites app)) ?_ s
    intro _ t
    exact meets_reconcileSecurity_bind happ (fun u hu ↦ meets_of_secured hu) t
  | _ => exact meets_of_harmless (only_buildPart (only_sourceBuildGate app _)) s

/-- A pass over an isolated Project that asks for no build is in order from any store. -/
theorem meets_applyPass (checks : PodChecks) (platform : Platform) (ns : String) {app : Project}
    (happ : app.spec.isolation = true) (hbuild : requestedBuildJob app = none)
    (s : IsolationStore) : (applyPass checks platform ns app).Meets serve contract s := by
  unfold applyPass
  split
  · refine meets_bind_of_harmless (only_performAll (harmless_onlyIf (by decide))) ?_ s
    intro _ s
    refine meets_bind_of_harmless (only_reconcileRedis app) (fun redisProvenance s ↦ ?_) s
    refine meets_bind_of_harmless (only_performAll (harmless_generatedSecrets app)) ?_ s
    intro _ s
    refine meets_bind_of_harmless
      (only_onCondition (previewsEnabled app) (only_api (c := .reconcilePreviewNamespace) trivial))
        (fun _ s ↦ ?_) s
    refine meets_bind_of_harmless (only_buildPart (only_reconcilePreviewDeleteAction app)) ?_ s
    intro deleted s
    split
    · trivial
    · refine meets_bind_of_harmless
        (only_onCondition (previewsEnabled app)
          (only_api (c := .reconcilePreviewTtlCleanup) trivial))
        (fun _ s ↦ ?_) s
      refine meets_bind_of_harmless (only_buildPart (only_reconcileSourceBuild hbuild)) ?_ s
      intro decision s
      exact meets_passGate checks platform happ redisProvenance decision s
  · trivial

end IsolationStore

open IsolationStore

/-- A pass is in order when the security resources were there at its start, or the Project it
reads asks for no build. -/
def Prepared (s : IsolationStore) : Prop :=
  s.Secured ∨ requestedBuildJob s.project.1 = none

instance (s : IsolationStore) : Decidable (Prepared s) :=
  inferInstanceAs (Decidable (_ ∨ _))

private theorem isolationEvent_keeps {s t : IsolationStore} {e : IsolationEvent}
    (ht : isolationEvent s e = some t) : s.Keeps t := by
  cases e with
  | edit app =>
    obtain rfl := Option.some.inj ht
    exact ⟨id, fun _ h ↦ h, id⟩
  | deleteDeployment name =>
    obtain rfl := Option.some.inj ht
    exact ⟨fun h other hother hmem ↦ h other hother (List.mem_filter.mp hmem).1,
      fun _ h ↦ h, id⟩

private theorem isolation_disciplined (checks : PodChecks) (platform : Platform) (ns : String) :
    Solo.Disciplined serve isolationEvent id
      (fun s : IsolationStore ↦ applyPass checks platform ns s.project.1) (fun _ ↦ contract)
      Prepared where
  refl _ _ := ⟨id, fun _ h ↦ h, id⟩
  trans _ _ _ _ hst htu :=
    ⟨fun h ↦ htu.1 (hst.1 h), fun op hop ↦ htu.2.1 op (hst.2.1 op hop),
      fun h ↦ htu.2.2 (hst.2.2 h)⟩
  pre _ _ _ := trivial
  interfere _ _ _ _ ht := isolationEvent_keeps ht
  start s hs := by
    rcases hs with hs | hs
    · exact meets_of_secured hs
    · exact meets_applyPass checks platform ns s.project.2 hs s

/-- In every run of an isolated Project since its creation in which no pass that starts before the
security resources are there reads a request for a build, whatever a pass launches comes after
the network policies, the LimitRange and the Pod Security labels. -/
theorem launches_after_security (checks : PodChecks) (platform : Platform) (ns : String)
    {app : IsolatedProject} {tr : List IsolationTransition} {s : IsolationState}
    (h : Run (isolationStep checks platform ns) ⟨createdProject app, none⟩ tr s)
    (hprepared : ∀ x ∈ tr, x.action = .start → Prepared x.before.store) :
    ∀ x ∈ tr, ∀ c, Issues x c → x.before.store.launches c = true → x.before.store.Secured := by
  have haccounted := (isolation_disciplined checks platform ns).run h hprepared
  have hordered : Ordered (createdProject app) := by
    intro name _ hdeployed
    cases hdeployed
  have hstep (s : IsolationState) (a : IsolationTurn) (t : IsolationState) (hs : s.store.Ordered)
      (hx : Solo.Accounted serve isolationEvent (fun _ ↦ contract) Prepared ⟨s, a, t⟩) :
      t.store.Ordered ∧
        ∀ c, Issues ⟨s, a, t⟩ c → s.store.launches c = true → s.store.Secured := by
    cases a with
    | interfere e =>
      refine ⟨(isolationEvent_keeps hx).1 hs, ?_⟩
      rintro c ⟨⟨answers, ha⟩, -⟩
      cases ha
    | start =>
      refine ⟨?_, ?_⟩
      · rw [show t.store = s.store from hx]
        exact hs
      · rintro c ⟨⟨answers, ha⟩, -⟩
        cases ha
    | serve answers =>
      obtain ⟨started, c, next, -, hcurrent, -, hguar⟩ := hx
      refine ⟨hguar.1.1 hs, ?_⟩
      rintro d ⟨-, hpending⟩ hlaunches
      rw [pending, hcurrent] at hpending
      cases hpending
      exact hguar.2 hs hlaunches
  intro x hx
  exact ((h.safe_of_condition (I := fun s ↦ s.store.Ordered)
    (P := fun x ↦ ∀ c, Issues x c → x.before.store.launches c = true → x.before.store.Secured)
    hordered (fun s a t hs _ hx ↦ hstep s a t hs hx) haccounted).2 x hx).2

/-! ## A Project with a build requested from the start -/

/-- Answers of an API server that finds nothing and accepts everything. -/
def acceptAll : (c : ApplyCall) → Except ApiError c.Result
  | .perform _ => .ok ()
  | .reconcileRedisSecret => .ok 1
  | .reconcilePreviewNamespace => .ok ()
  | .reconcilePreviewTtlCleanup => .ok ()
  | .build (.getJob _) => .ok none
  | .build (.createJob job) => .ok job
  | .build (.deleteJob _) => .ok ()
  | .build (.patchBuildStatus _) => .ok ()
  | .build .clearBuildStatus => .ok ()
  | .build .clearBuildAnnotations => .ok ()
  | .build (.patchProjectImage _) => .ok ()
  | .build (.deletePreviewProject _) => .ok ()
  | .build (.applyPreviewProject _ _) => .ok ()
  | .build (.applyWorkloads _) => .ok ()
  | .labelPodSecurity => .ok ()
  | .getMigrationJob _ => .ok none
  | .createMigrationJob _ => .ok ()
  | .deleteMigrationJob _ => .ok ()
  | .updateStatus => .ok ()

/-- An isolated Project built from source. -/
def isolatedShop (trigger : Option String) : IsolatedProject :=
  ⟨⟨"shop", some "team", some 7, none, ⟨trigger, none, none, none⟩,
    { image := "registry.example/shop:1"
      isolation := true
      source := some ⟨"https://git.example/shop", some "main", none, none, none⟩ }, none, none⟩,
    rfl⟩

/-- One pass from the creation of a Project that stops after `n` accepted requests. -/
def firstPass (n : Nat) : List IsolationTurn := .start :: List.replicate n (.serve acceptAll)

/-- The state it stops in. -/
def afterFirstPass (app : IsolatedProject) (n : Nat) : Option IsolationState :=
  execute (isolationStep passingChecks .onpremise "team") ⟨createdProject app, none⟩ (firstPass n)

/-- The request that comes next is issued in the run that goes on with it. -/
private theorem issues_next {app : IsolatedProject} {n : Nat} {c : ApplyCall}
    {s : IsolationState} (hs : afterFirstPass app n = some s) (hc : pending s = some c) :
    ∃ t, Run (isolationStep passingChecks .onpremise "team") ⟨createdProject app, none⟩
        (transitions (isolationStep passingChecks .onpremise "team")
          ⟨createdProject app, none⟩ (firstPass n) ++ [⟨s, .serve acceptAll, t⟩]) t ∧
      Issues ⟨s, .serve acceptAll, t⟩ c := by
  have hstep : ∃ t,
      isolationStep passingChecks .onpremise "team" s (.serve acceptAll) = some t := by
    unfold pending at hc
    split at hc
    · next hcurrent =>
      simp only [isolationStep, Solo.step, hcurrent]
      exact ⟨_, rfl⟩
    · cases hc
  obtain ⟨t, ht⟩ := hstep
  exact ⟨t, (Run.of_execute (firstPass n) hs).snoc ht, ⟨acceptAll, rfl⟩, hc⟩

/-- The only pass of such a run starts from the creation. -/
private theorem prepared_firstPass {app : IsolatedProject} {n : Nat} {s t : IsolationState}
    (happ : Prepared (createdProject app)) :
    ∀ x ∈ transitions (isolationStep passingChecks .onpremise "team")
        ⟨createdProject app, none⟩ (firstPass n) ++ [⟨s, .serve acceptAll, t⟩],
      x.action = .start → Prepared x.before.store := by
  intro x hx haction
  rcases List.mem_append.mp hx with hx | hx
  · rcases List.mem_cons.mp hx with rfl | hx
    · exact happ
    · have hmem := action_mem_of_mem_transitions hx
      rw [haction] at hmem
      cases List.eq_of_mem_replicate hmem
  · rw [List.mem_singleton.mp hx] at haction
    cases haction

/-- A Project created with a build trigger has its Kaniko Job created before any of them. -/
theorem kaniko_precedes_security :
    ∃ tr s, Run (isolationStep passingChecks .onpremise "team")
        ⟨createdProject (isolatedShop (some "0123456789abcdef")), none⟩ tr s ∧
      ∃ x ∈ tr, ∃ job, Issues x (.build (.createJob job)) ∧
        x.before.store.launches (.build (.createJob job)) = true ∧ ¬ x.before.store.Secured := by
  obtain ⟨s, hs, job, hjob, hstore⟩ :
      ∃ s, afterFirstPass (isolatedShop (some "0123456789abcdef")) 2 = some s ∧
        ∃ job, pending s = some (.build (.createJob job)) ∧ ¬ s.store.Secured :=
    ⟨_, rfl, _, rfl, by decide⟩
  obtain ⟨t, hrun, hissues⟩ := issues_next hs hjob
  exact ⟨_, t, hrun, _, List.mem_append_right _ List.mem_cons_self, job, hissues, rfl, hstore⟩

/-- Without the trigger the first pass applies the security resources and then the Deployment. -/
theorem deployment_follows_security :
    ∃ tr s, Run (isolationStep passingChecks .onpremise "team")
        ⟨createdProject (isolatedShop none), none⟩ tr s ∧
      (∀ x ∈ tr, x.action = .start → Prepared x.before.store) ∧
      ∃ x ∈ tr, Issues x (.perform (named .deployment "" .applyIfControlled)) ∧
        x.before.store.launches (.perform (named .deployment "" .applyIfControlled)) = true ∧
        x.before.store.Secured := by
  obtain ⟨s, hs, hdeploy⟩ : ∃ s, afterFirstPass (isolatedShop none) 6 = some s ∧
      pending s = some (.perform (named .deployment "" .applyIfControlled)) := ⟨_, rfl, rfl⟩
  obtain ⟨t, hrun, hissues⟩ := issues_next hs hdeploy
  have hprepared := prepared_firstPass (n := 6) (s := s) (t := t)
    (show Prepared (createdProject (isolatedShop none)) from .inr rfl)
  have hmem := List.mem_append_right
    (transitions (isolationStep passingChecks .onpremise "team")
      ⟨createdProject (isolatedShop none), none⟩ (firstPass 6))
    (List.mem_cons_self (a := (⟨s, .serve acceptAll, t⟩ : IsolationTransition)) (l := []))
  exact ⟨_, t, hrun, hprepared, _, hmem, hissues, rfl,
    launches_after_security passingChecks .onpremise "team" hrun hprepared _ hmem _ hissues rfl⟩

end ReinhardtCloud.Operator

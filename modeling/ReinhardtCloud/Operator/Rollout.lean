import ReinhardtCloud.Base.ServerSideApply
import ReinhardtCloud.Operator.Migration
import ReinhardtCloud.Operator.RedisStore

/-!
# Rolling regenerated Redis credentials out

Library `Operator`. `apply` (`crates/reinhardt-cloud-operator/src/reconciler.rs:429–927`) as a
client of the API server, call by call, with what bears on the credentials: the Secret flow,
`roll_redis_credential_consumers`, the migration Job and the server-side applies of the three
Deployments. The other calls are steps that may fail and, at the gates, end `apply` early. Of a
Deployment its owners and the credentials revision of its Pod template are kept. The controller runs
one `apply` of a Project at a time, on the version of the Project it has observed.
-/

namespace ReinhardtCloud.Operator

open ReinhardtCloud.Base

/-! ## The namespace -/

/-- The operator's two ways to write the revision: server-side apply and merge patch. -/
inductive RevisionWriter where
  | apply
  | mergePatch
  deriving DecidableEq

instance : Fintype RevisionWriter :=
  ⟨{.apply, .mergePatch}, fun w ↦ by cases w <;> decide⟩

/-- A Deployment: its owners, and the credentials revision annotation of its Pod template. -/
structure RolloutDeployment where
  ownerReferences : List OwnerReference
  revision : Managed Unit RevisionWriter Uid

/-- `stamped_redis_credentials_uid` of the Pod template. -/
def RolloutDeployment.stamp (d : RolloutDeployment) : Option Uid := d.revision.value ()

/-- `existing_resource_is_controlled_by_project`. -/
def RolloutDeployment.controlledBy (d : RolloutDeployment) (app : Project) : Bool :=
  existingResourceIsControlledByProject (.resource d.ownerReferences d.stamp) app

/-- The Secret and the Project versions, the version the controller has observed, the Deployments
and the migration Jobs by name. -/
structure RolloutStore where
  redis : RedisStore
  observed : Project
  deployments : String → Option RolloutDeployment
  jobs : String → Option (Uid × MigrationJob)
  nextJobUid : Uid

/-- The other steps of `apply`, in source order. -/
inductive ApplyStep where
  | tenant
  /-- Core and JWT Secrets, the preview namespace and the deletion of previews, `:508–584`. -/
  | secretsAndPreviews
  | sourceBuild
  /-- Plugins, ServiceAccount, isolation and database, `:610–700`. -/
  | prerequisites
  /-- The checks of a builder. -/
  | build
  | serviceIngressAndAutoscaler
  | cacheService
  | grpcStorageAndMail
  | i18n
  /-- Ready replicas and the conditions of children. -/
  | observe
  | previewStatus
  deriving DecidableEq

/-- Requests of `apply`. -/
inductive RolloutCall where
  | redis (c : RedisCall)
  | getDeployment (name : String)
  /-- Merge patch of the credentials revision. -/
  | patchRevision (name : String) (uid : Uid)
  /-- Forced server-side apply with the operator's owner reference. -/
  | applyDeployment (name : String) (owner : Uid) (revision : Option Uid)
  | getJob (name : String)
  /-- Delete with a UID precondition. -/
  | deleteJob (name : String) (uid : Uid)
  | createJob (job : MigrationJob)
  | step (s : ApplyStep)

/-- What each request answers; a step that succeeds tells whether `apply` goes on. -/
@[reducible] def RolloutCall.Answer : RolloutCall → Type
  | .redis c => Except ApiError c.Result
  | .getDeployment _ => Except ApiError (Option RolloutDeployment)
  | .getJob _ => Except ApiError (Option (Uid × MigrationJob))
  | .patchRevision _ _ | .applyDeployment _ _ _ | .deleteJob _ _ | .createJob _ =>
    Except ApiError Unit
  | .step _ => Except Error Bool

/-- How a request ends: any other failure, and the outcome of a step. -/
structure RolloutOutcome where
  fault : Bool
  step : Except Error Bool

/-- A request that succeeds; a step goes on. -/
def RolloutOutcome.success : RolloutOutcome := ⟨false, .ok true⟩

/-- The Deployment that another controller owns. -/
def RolloutDeployment.ownedByOther (d : RolloutDeployment) (owner : Uid) : Bool :=
  d.ownerReferences.any fun r ↦ r.controller = some true && r.uid ≠ owner

/-- A Deployment after a server-side apply. -/
def RolloutDeployment.applied (d : RolloutDeployment) (owner : Uid) (revision : Option Uid) :
    RolloutDeployment where
  ownerReferences :=
    ⟨"Project", owner, some true⟩ :: d.ownerReferences.filter fun r ↦ r.uid ≠ owner
  revision := d.revision.apply .apply fun _ ↦ revision

/-- A Deployment before anything is set. -/
def RolloutDeployment.blank : RolloutDeployment := ⟨[], ⟨fun _ ↦ none, fun _ _ ↦ false⟩⟩

namespace RolloutStore

/-- Replace the Deployment of a name. -/
def setDeployment (s : RolloutStore) (name : String) (d : Option RolloutDeployment) :
    RolloutStore :=
  { s with deployments := Function.update s.deployments name d }

/-- Replace the Job of a name. -/
def setJob (s : RolloutStore) (name : String) (job : Option (Uid × MigrationJob)) : RolloutStore :=
  { s with jobs := Function.update s.jobs name job }

/-- The API server's answer to one request and its effect. -/
def serve (s : RolloutStore) (o : RolloutOutcome) : (c : RolloutCall) → RolloutStore × c.Answer
  | .redis c =>
    let r := s.redis.serve o.fault c
    ({ s with redis := r.1 }, r.2)
  | .step _ => (s, o.step)
  | .getDeployment name => if o.fault then (s, .error .other) else (s, .ok (s.deployments name))
  | .patchRevision name uid =>
    if o.fault then (s, .error .other)
    else match s.deployments name with
      | none => (s, .error .notFound)
      | some d => (s.setDeployment name
          (some { d with revision := d.revision.patch .mergePatch fun _ ↦ some (some uid) }),
        .ok ())
  | .applyDeployment name owner revision =>
    if o.fault then (s, .error .other)
    else
      let existing := (s.deployments name).getD .blank
      if existing.ownedByOther owner then (s, .error .other)
      else (s.setDeployment name (some (existing.applied owner revision)), .ok ())
  | .getJob name => if o.fault then (s, .error .other) else (s, .ok (s.jobs name))
  | .deleteJob name uid =>
    if o.fault then (s, .error .other)
    else match s.jobs name with
      | none => (s, .error .notFound)
      | some (u, _) => if u = uid then (s.setJob name none, .ok ()) else (s, .error .conflict)
  | .createJob job =>
    if o.fault then (s, .error .other)
    else match s.jobs job.name with
      | some _ => (s, .error .alreadyExists)
      | none =>
        -- no Job is created under a name that is not admitted
        if isJobName job.name then
          ({ s.setJob job.name (some (s.nextJobUid, job)) with
              nextJobUid := s.nextJobUid + 1 }, .ok ())
        else (s, .error .other)

end RolloutStore

/-- The Job has completed or failed. -/
def MigrationJob.finished (job : MigrationJob) : Bool :=
  jobCompleted job.status || jobConditionIsTrue job.status "Failed"

/-- The Job has failed. -/
def MigrationJob.failed (job : MigrationJob) : Bool :=
  !jobCompleted job.status && jobConditionIsTrue job.status "Failed"

/-- What happens beside `apply`: a tenant acts, the controller observes a version of the Project,
the Job controller reports on a Job that has not finished, a Job or a Deployment is removed. -/
inductive RolloutEvent where
  | tenant (action : TenantAction)
  | observe (version : Nat)
  | report (jobName : String) (status : JobStatus)
  | removeJob (jobName : String)
  | removeDeployment (name : String)

/-- One such event. -/
def rolloutEvent (s : RolloutStore) : RolloutEvent → Option RolloutStore
  | .tenant action => (tenantStep s.redis action).map fun redis ↦ { s with redis := redis }
  | .observe version => s.redis.projects[version]?.map fun app ↦ { s with observed := app }
  | .report jobName status =>
    match s.jobs jobName with
    | some (uid, job) =>
      if job.finished then none
      else some (s.setJob jobName (some (uid, { job with status := some status })))
    | none => none
  | .removeJob jobName => some (s.setJob jobName none)
  | .removeDeployment name => some (s.setDeployment name none)

/-! ## `apply` -/

/-- A client of the namespace. -/
abbrev RolloutProgram := Program RolloutCall RolloutCall.Answer Error

/-- `map_err(Error::Kube)?`. -/
def kube {α : Type} : Except ApiError α → RolloutProgram α
  | .ok a => .done (.ok a)
  | .error e => .fail (.kube e)

/-- The Redis credentials flow as a part of `apply`. -/
def liftRedis {α : Type} (p : RedisProgram α) : RolloutProgram α :=
  p.handle fun c ↦ .call (.redis c) fun r ↦ .done (.ok r)

/-- Another step; whether `apply` goes on after it. -/
def applyStep (s : ApplyStep) : RolloutProgram Bool := .call (.step s) .done

/-- The Deployments that hold the credentials, `reconciler.rs:2078–2082`. -/
def consumers (app : Project) : List String :=
  [app.name, app.name ++ "-worker", app.name ++ "-redis"]

/-- One round of the loop, `reconciler.rs:2083–2112`. -/
def rollRedisCredentialConsumer (app : Project) (provenance : RedisCredentialsProvenance)
    (name : String) : RolloutProgram Unit :=
  .bind (.call (.getDeployment name) kube) fun
    | none => pure ()
    | some existing =>
      if existing.controlledBy app = false then pure ()
      else if existing.stamp = some provenance.uid then pure ()
      else .call (.patchRevision name provenance.uid) kube

/-- `roll_redis_credential_consumers`, `reconciler.rs:2071–2115`, over some of the names. -/
def rollRedisCredentialConsumers (app : Project) (provenance : RedisCredentialsProvenance) :
    List String → RolloutProgram Unit
  | [] => pure ()
  | name :: rest =>
    .bind (rollRedisCredentialConsumer app provenance name) fun _ ↦
      rollRedisCredentialConsumers app provenance rest

/-- Whether the Project needs Redis, `reconciler.rs:478–488`. -/
def needsRedis (app : Project) : Bool := shouldProvisionCache app || needsRedisSessions app

/-- The Redis provenance of `apply`, `reconciler.rs:488–498`. -/
def redisProvenance (sha256 : List UInt8 → List UInt8) (app : Project) (ns : String) :
    RolloutProgram (Option RedisCredentialsProvenance) :=
  if needsRedis app then
    .bind (liftRedis (reconcileRedisCredentialsSecret sha256 app ns)) fun provenance ↦
      .bind (rollRedisCredentialConsumers app provenance (consumers app)) fun _ ↦
        pure (some provenance)
  else pure none

/-- `reconcile_migration_job_resource`, `reconciler.rs:1368–1422`, call by call. -/
def reconcileMigrationJob (checks : PodChecks) (app : Project)
    (provenance : Option RedisCredentialsProvenance) : RolloutProgram MigrationGateState :=
  let revisionKey := migrationRevisionKey app
  let jobName := migrationJobName app revisionKey
  .bind (.call (.getJob jobName) kube) fun
    | some (uid, existing) =>
      if jobCompleted existing.status then pure .succeeded
      else if jobConditionIsTrue existing.status "Failed" then
        if hasStaleRedisCredentials (.migration existing) (provenance.map (·.uid)) then
          .bind (.call (.deleteJob jobName uid) kube) fun _ ↦ pure .running
        else pure .failed
      else pure .running
    | none =>
      .bind (.done (buildMigrationJob checks app revisionKey)) fun desired ↦
        .bind (.call (.createJob
          { desired with redisCredentialsUid := provenance.map (·.uid) }) kube) fun _ ↦
          pure .running

/-- `ensure_deployment_apply_target_is_owned`, `reconciler.rs:397–411`. -/
def ensureDeploymentApplyTargetIsOwned (app : Project) (ns name : String) : RolloutProgram Unit :=
  .bind (.call (.getDeployment name) kube) fun
    | some existing =>
      if existing.controlledBy app then pure ()
      else .fail (ownershipConflictError "Deployment" ns name app)
    | none => pure ()

/-- Build a Deployment, stamp it and apply it, `reconciler.rs:738–751,2150–2211`. -/
def applyConsumer (app : Project) (provenance : Option RedisCredentialsProvenance) (name : String) :
    RolloutProgram Unit :=
  .bind (applyStep .build) fun _ ↦
    .bind (.done (ownerReference app)) fun owner ↦
      .call (.applyDeployment name owner (provenance.map (·.uid))) kube

/-- A step that a condition of the spec asks for. -/
def runIf (c : Bool) (p : RolloutProgram Unit) : RolloutProgram Unit := if c then p else pure ()

/-- The Redis Deployment and its Service. -/
def applyCache (app : Project) (provenance : Option RedisCredentialsProvenance) :
    RolloutProgram Unit :=
  .bind (applyConsumer app provenance (app.name ++ "-redis")) fun _ ↦
    .bind (applyStep .cacheService) fun _ ↦ pure ()

/-- `apply` behind its gates, `reconciler.rs:735–926`. -/
def applyWorkloads (app : Project) (ns : String)
    (provenance : Option RedisCredentialsProvenance) : RolloutProgram Unit :=
  .bind (ensureDeploymentApplyTargetIsOwned app ns app.name) fun _ ↦
  .bind (applyConsumer app provenance app.name) fun _ ↦
  .bind (applyStep .serviceIngressAndAutoscaler) fun _ ↦
  .bind (runIf (shouldProvisionCache app) (applyCache app provenance)) fun _ ↦
  .bind (runIf (shouldProvisionWorker app)
    (applyConsumer app provenance (app.name ++ "-worker"))) fun _ ↦
  .bind (applyStep .grpcStorageAndMail) fun _ ↦
  .bind (runIf (needsRedisSessions app && !shouldProvisionCache app)
    (applyCache app provenance)) fun _ ↦
  .bind (applyStep .i18n) fun _ ↦
  .bind (applyStep .observe) fun _ ↦
  .bind (liftRedis (updateRedisStatus app provenance)) fun _ ↦
  .bind (applyStep .previewStatus) fun _ ↦ pure ()

/-- The migration gate of `apply` and what is behind it, `reconciler.rs:702–926`. -/
def applyGated (checks : PodChecks) (app : Project) (ns : String)
    (provenance : Option RedisCredentialsProvenance) : RolloutProgram MigrationGateState :=
  .bind (if shouldProvisionPostgresql app then reconcileMigrationJob checks app provenance
    else pure .notRequired) fun migration ↦
    if migration.opens then .bind (applyWorkloads app ns provenance) fun _ ↦ pure migration
    else
      .bind (applyStep .observe) fun _ ↦
        .bind (liftRedis (updateRedisStatus app provenance)) fun _ ↦ pure migration

/-- What an `apply` that returns `Ok` has seen: the credentials it worked with, and the state of the
migration gate if it came that far. -/
structure ApplyResult where
  provenance : Option RedisCredentialsProvenance
  migration : Option MigrationGateState
  deriving DecidableEq

/-- `apply` after the Redis provenance, `reconciler.rs:500–927`; the preview and source-build gates
may end it. -/
def applyRest (checks : PodChecks) (app : Project) (ns : String)
    (provenance : Option RedisCredentialsProvenance) : RolloutProgram ApplyResult :=
  .bind (applyStep .secretsAndPreviews) fun goesOn ↦
    if goesOn then
      .bind (applyStep .sourceBuild) fun goesOn ↦
        if goesOn then
          .bind (applyStep .prerequisites) fun _ ↦
            .bind (applyGated checks app ns provenance) fun migration ↦
              pure ⟨provenance, some migration⟩
        else pure ⟨provenance, none⟩
    else pure ⟨provenance, none⟩

/-- `apply`. -/
def reconcileApply (checks : PodChecks) (sha256 : List UInt8 → List UInt8) (app : Project)
    (ns : String) : RolloutProgram ApplyResult :=
  .bind (applyStep .tenant) fun _ ↦
    .bind (redisProvenance sha256 app ns) fun provenance ↦ applyRest checks app ns provenance

/-- One `apply` of the Project at a time; it starts on the observed version, with the namespace as
it is then. -/
def rolloutStep (checks : PodChecks) (sha256 : List UInt8 → List UInt8) (ns : String) :
    Solo RolloutStore (Project × RolloutStore) (RolloutProgram ApplyResult) →
      Turn RolloutEvent RolloutOutcome →
        Option (Solo RolloutStore (Project × RolloutStore) (RolloutProgram ApplyResult)) :=
  Solo.step RolloutStore.serve rolloutEvent (fun s ↦ (s.observed, s))
    fun read ↦ reconcileApply checks sha256 read.1 ns

/-! ## The migration gate without others -/

/-- The Jobs as the migration gate knows them. -/
def RolloutStore.namespaceJobs (s : RolloutStore) : NamespaceJobs :=
  fun name ↦ (s.jobs name).map fun job ↦ .migration job.2

theorem RolloutStore.namespaceJobs_setJob {s : RolloutStore} {name : String}
    {job : Option (Uid × MigrationJob)} :
    (s.setJob name job).namespaceJobs =
      Function.update s.namespaceJobs name (job.map fun job ↦ .migration job.2) := by
  funext other
  by_cases hname : other = name
  · subst hname
    simp only [namespaceJobs, setJob, Function.update_self]
  · simp only [namespaceJobs, setJob, Function.update_of_ne hname]

theorem RolloutStore.namespaceJobs_nextJobUid {s : RolloutStore} {uid : Uid} :
    { s with nextJobUid := uid }.namespaceJobs = s.namespaceJobs := rfl

/-- When no request fails and nobody else acts, the calls do what the gate is to do. -/
theorem run_reconcileMigrationJob {checks : PodChecks} {app : Project}
    {provenance : Option RedisCredentialsProvenance} {s t : RolloutStore}
    {r : Except Error MigrationGateState}
    (h : Program.run RolloutStore.serve (fun _ ↦ .success)
      (reconcileMigrationJob checks app provenance) s = (t, r)) :
    reconcileMigrationJobResource checks s.namespaceJobs app (provenance.map (·.uid)) =
      r.map fun m ↦ (m, t.namespaceJobs) := by
  cases hjob : s.jobs (migrationJobName app (migrationRevisionKey app)) with
  | none =>
    have hpure : s.namespaceJobs (migrationJobName app (migrationRevisionKey app)) = none := by
      rw [RolloutStore.namespaceJobs, hjob, Option.map_none]
    cases hdesired : buildMigrationJob checks app (migrationRevisionKey app) with
    | error e =>
      simp only [reconcileMigrationJob, Program.bind_call, Program.run, RolloutStore.serve,
        RolloutOutcome.success, hjob, kube, Program.bind_ok, hdesired, Program.bind_error,
        Bool.false_eq_true, if_false] at h
      obtain ⟨rfl, rfl⟩ := Prod.mk.inj h
      simp only [reconcileMigrationJobResource, hpure, hdesired]
      rfl
    | ok desired =>
      have hname := (buildMigrationJob_ok hdesired).1
      simp only [reconcileMigrationJob, Program.bind_call, Program.run, RolloutStore.serve,
        RolloutOutcome.success, hjob, kube, Program.bind_ok, hdesired, Bool.false_eq_true,
        if_false] at h
      simp only [hname, hjob] at h
      simp only [reconcileMigrationJobResource, hpure, hdesired]
      by_cases hadmitted : isJobName (migrationJobName app (migrationRevisionKey app)) = true
      · simp only [hadmitted, if_true] at h
        obtain ⟨rfl, rfl⟩ := Prod.mk.inj h
        simp only [← hname] at hadmitted ⊢
        simp only [Except.map, RolloutStore.namespaceJobs_nextJobUid,
          RolloutStore.namespaceJobs_setJob, Option.map_some, hadmitted]
        rfl
      · simp only [hadmitted] at h
        obtain ⟨rfl, rfl⟩ := Prod.mk.inj h
        simp only [hadmitted]
        rfl
  | some found =>
    obtain ⟨uid, existing⟩ := found
    have hpure : s.namespaceJobs (migrationJobName app (migrationRevisionKey app)) =
        some (.migration existing) := by
      rw [RolloutStore.namespaceJobs, hjob, Option.map_some]
    simp only [reconcileMigrationJobResource, hpure, NamespaceJob.status]
    simp only [reconcileMigrationJob, Program.bind_call, Program.run, RolloutStore.serve,
      RolloutOutcome.success, hjob, kube, Program.bind_ok, Bool.false_eq_true, if_false] at h
    by_cases hcompleted : jobCompleted existing.status = true
    · simp only [hcompleted, if_true] at h ⊢
      obtain ⟨rfl, rfl⟩ := Prod.mk.inj h
      rfl
    · simp only [hcompleted] at h ⊢
      by_cases hfailed : jobConditionIsTrue existing.status "Failed" = true
      · simp only [hfailed, if_true] at h ⊢
        by_cases hstale : hasStaleRedisCredentials (.migration existing)
            (provenance.map (·.uid)) = true
        · simp only [hstale, if_true, Program.run, RolloutStore.serve, hjob,
            Bool.false_eq_true, if_false, Program.bind_ok] at h ⊢
          obtain ⟨rfl, rfl⟩ := Prod.mk.inj h
          simp only [Except.map, RolloutStore.namespaceJobs_setJob, Option.map_none]
        · simp only [hstale] at h ⊢
          obtain ⟨rfl, rfl⟩ := Prod.mk.inj h
          rfl
      · simp only [hfailed] at h ⊢
        obtain ⟨rfl, rfl⟩ := Prod.mk.inj h
        rfl

end ReinhardtCloud.Operator

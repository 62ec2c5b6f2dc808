import ReinhardtCloud.Base.Characters
import ReinhardtCloud.Base.Encoding
import ReinhardtCloud.Operator.Conditions
import ReinhardtCloud.Operator.Environment
import ReinhardtCloud.Operator.Workloads

/-!
# Migration Jobs

Library `Operator`. The revision key and the Job of `resources/migration.rs`, and the gate that
keeps a workload back until its migration has completed
(`crates/reinhardt-cloud-operator/src/reconciler.rs:702–752,1354–1452`). Volumes, resources and
security contexts of the Job are left out; a Kaniko Job stands beside it, since both live in the
Project's namespace.
-/

namespace ReinhardtCloud.Operator

open ReinhardtCloud.Base

/-! ## Names, `migration.rs:29–70` -/

/-- `migration_revision_key`. -/
def migrationRevisionKey (app : Project) : String :=
  let appVersion := ((app.spec.introspect.map fun i ↦ trim i.appVersion).filter
    fun version ↦ version ≠ "").getD "unknown"
  s!"image={app.spec.image};version={appVersion}"

/-- The FNV-1a hash of `migration_revision_id`, over the key's UTF-8 bytes. -/
def revisionHash (revisionKey : String) : UInt64 :=
  revisionKey.toUTF8.data.toList.foldl (fun hash byte ↦ (hash ^^^ byte.toUInt64) * 0x100000001b3)
    0xcbf29ce484222325

/-- `migration_revision_id`: the hash in sixteen hexadecimal digits. -/
def migrationRevisionId (revisionKey : String) : String :=
  hexEncode (beBytes 8 (revisionHash revisionKey).toNat)

/-- What of a Project's name begins its Jobs' names when only `maxLength` characters fit. -/
def truncatedName (name : String) (maxLength : Nat) : String :=
  let start := trimDashes (name.toList.take maxLength)
  if start.isEmpty then "project" else String.ofList start

/-- `migration_job_name`, `migration.rs:57–67`. -/
def migrationJobName (app : Project) (revisionKey : String) : String :=
  let suffix := s!"-migrate-{migrationRevisionId revisionKey}"
  truncatedName app.name (63 - suffix.toList.length) ++ suffix

/-! ## Jobs -/

/-- A migration `Job`: its name, the key its annotation carries, its owner, its container and the
Redis Secret its Pod template is stamped with. -/
structure MigrationJob where
  name : String
  ns : String
  revisionKey : String
  owner : Uid
  image : String
  command : List String
  env : List EnvVar
  backoffLimit : Int
  redisCredentialsUid : Option Uid
  status : Option JobStatus
  deriving DecidableEq

/-- `build_migration_job`, `migration.rs:74–163`. -/
def buildMigrationJob (checks : PodChecks) (app : Project) (revisionKey : String) :
    Except Error MigrationJob := do
  let ns ← requireNamespace app
  let owner ← ownerReference app
  checks.plugins app
  let _ ← app.validatedImagePullSecrets
  return {
    name := migrationJobName app revisionKey
    ns := ns
    revisionKey := revisionKey
    owner := owner
    image := app.spec.image
    command := ["manage", "migrate"]
    env := buildApplicationEnvVars app
    backoffLimit := 3
    redisCredentialsUid := none
    status := none }

/-- What the built Job is. -/
theorem buildMigrationJob_ok {checks : PodChecks} {app : Project} {revisionKey : String}
    {job : MigrationJob} (h : buildMigrationJob checks app revisionKey = .ok job) :
    job.name = migrationJobName app revisionKey ∧ app.uid = some job.owner ∧
      checks.plugins app = .ok () ∧ (∃ secrets, app.validatedImagePullSecrets = .ok secrets) ∧
        job.revisionKey = revisionKey ∧ job.status = none := by
  simp only [buildMigrationJob, bind_eq_ok] at h
  obtain ⟨ns, -, owner, howner, _, hplugins, secrets, hsecrets, hjob⟩ := h
  obtain rfl := Except.ok.inj hjob
  refine ⟨rfl, ?_, hplugins, ⟨secrets, hsecrets⟩, rfl, rfl⟩
  unfold ownerReference at howner
  split at howner
  · next uid huid =>
    obtain rfl := Except.ok.inj howner
    exact huid
  · cases howner

/-- A Job in the namespace: a migration, or a Kaniko build of the Project with the given UID. -/
inductive NamespaceJob where
  | migration (job : MigrationJob)
  | build (owner : Uid) (job : Job)
  deriving DecidableEq

namespace NamespaceJob

/-- The UID of the Project that owns the Job. -/
def owner : NamespaceJob → Uid
  | .migration job => job.owner
  | .build owner _ => owner

/-- The status the Job controller reports. -/
def status : NamespaceJob → Option JobStatus
  | .migration job => job.status
  | .build _ job => job.status

/-- The Job with a new status. -/
def withStatus (status : JobStatus) : NamespaceJob → NamespaceJob
  | .migration job => .migration { job with status := some status }
  | .build owner job => .build owner { job with status := some status }

/-- `stamped_redis_credentials_uid` of the Pod template; a Kaniko Job is not stamped. -/
def redisCredentialsUid : NamespaceJob → Option Uid
  | .migration job => job.redisCredentialsUid
  | .build _ _ => none

@[simp] theorem status_withStatus (job : NamespaceJob) (status : JobStatus) :
    (job.withStatus status).status = some status := by
  cases job <;> rfl

end NamespaceJob

/-- The Jobs of one namespace by name. -/
abbrev NamespaceJobs := String → Option NamespaceJob

/-- `job_condition_is_true`, `reconciler.rs:1440–1452`. -/
def jobConditionIsTrue (status : Option JobStatus) (conditionType : String) : Bool :=
  (status.bind fun s ↦ s.conditions).any fun conditions ↦
    conditions.any fun c ↦ c.type_ = conditionType && c.status = "True"

/-- The test for a completed Job, `reconciler.rs:1380–1383`. -/
def jobCompleted (status : Option JobStatus) : Bool :=
  0 < (status.bind fun s ↦ s.succeeded).getD 0 || jobConditionIsTrue status "Complete"

/-- `migration_job_has_stale_redis_credentials`, `reconciler.rs:1424–1438`. -/
def hasStaleRedisCredentials (job : NamespaceJob) (redisProvenance : Option Uid) : Bool :=
  match redisProvenance with
  | none => false
  | some uid => job.redisCredentialsUid.any fun stamped ↦ stamped ≠ uid

/-! ## The gate -/

/-- `reconcile_migration_job_resource`, `reconciler.rs:1368–1422`, with the UID of the Redis Secret
the reconcile has validated: the outcome and the Jobs after it. -/
def reconcileMigrationJobResource (checks : PodChecks) (jobs : NamespaceJobs) (app : Project)
    (redisProvenance : Option Uid) : Except Error (MigrationGateState × NamespaceJobs) :=
  let revisionKey := migrationRevisionKey app
  let jobName := migrationJobName app revisionKey
  match jobs jobName with
  | some existing =>
    if jobCompleted existing.status then .ok (.succeeded, jobs)
    else if jobConditionIsTrue existing.status "Failed" then
      if hasStaleRedisCredentials existing redisProvenance then
        .ok (.running, Function.update jobs jobName none)
      else .ok (.failed, jobs)
    else .ok (.running, jobs)
  | none => do
    let desired ← buildMigrationJob checks app revisionKey
    let desired := { desired with redisCredentialsUid := redisProvenance }
    -- the API server refuses a Job whose name it does not admit
    if isJobName jobName then
      return (.running, Function.update jobs jobName (some (.migration desired)))
    else .error (.kube .other)

/-- The migration step of `apply`, `reconciler.rs:702–713`. -/
def migrationGate (checks : PodChecks) (jobs : NamespaceJobs) (app : Project)
    (redisProvenance : Option Uid) : Except Error (MigrationGateState × NamespaceJobs) :=
  if shouldProvisionPostgresql app then
    reconcileMigrationJobResource checks jobs app redisProvenance
  else .ok (.notRequired, jobs)

/-- Whether `apply` goes on to the Deployments, `reconciler.rs:715–733`. -/
def MigrationGateState.opens : MigrationGateState → Bool
  | .running => false
  | .failed => false
  | .notRequired => true
  | .succeeded => true

/-! ## What the names tell -/

/-- A revision identifier has sixteen digits. -/
theorem length_migrationRevisionId (revisionKey : String) :
    (migrationRevisionId revisionKey).toList.length = 16 := by
  rw [migrationRevisionId, length_hexEncode, length_beBytes]

/-- A revision identifier has no dash. -/
theorem dash_not_mem_migrationRevisionId (revisionKey : String) :
    '-' ∉ (migrationRevisionId revisionKey).toList := by
  intro h
  exact absurd (isLowerHexDigit_of_mem_hexEncode h) (by decide)

/-- The revision identifier determines the hash. -/
theorem revisionHash_eq_of_id {key key' : String}
    (h : migrationRevisionId key = migrationRevisionId key') :
    revisionHash key = revisionHash key' := by
  apply UInt64.toNat.inj
  exact eq_of_beBytes_eq (UInt64.toNat_lt _) (UInt64.toNat_lt _) (hexEncode_injective h)

/-- Thirty-eight characters of the Project's name fit. -/
theorem toList_migrationJobName {app : Project} {key : String} :
    (migrationJobName app key).toList = (truncatedName app.name 38).toList ++
      ("-migrate-".toList ++ (migrationRevisionId key).toList) := by
  have hsuffix : s!"-migrate-{migrationRevisionId key}".toList =
      "-migrate-".toList ++ (migrationRevisionId key).toList := by
    show ("-migrate-" ++ migrationRevisionId key).toList = _
    rw [String.toList_append]
  have hlength : (63 - s!"-migrate-{migrationRevisionId key}".toList.length) = 38 := by
    rw [hsuffix, List.length_append, length_migrationRevisionId]
    rfl
  simp only [migrationJobName]
  rw [hlength, String.toList_append, hsuffix]

/-- The Job names of two revisions agree exactly when the truncated Project names and the revision
identifiers do. -/
theorem migrationJobName_eq_iff {P Q : Project} {key key' : String} :
    migrationJobName P key = migrationJobName Q key' ↔
      truncatedName P.name 38 = truncatedName Q.name 38 ∧
        migrationRevisionId key = migrationRevisionId key' := by
  rw [← String.toList_inj, toList_migrationJobName, toList_migrationJobName]
  constructor
  · intro h
    obtain ⟨hstart, hsuffix⟩ := List.append_inj' h (by
      rw [List.length_append, List.length_append, length_migrationRevisionId,
        length_migrationRevisionId])
    exact ⟨String.toList_injective hstart,
      String.toList_injective (List.append_cancel_left hsuffix)⟩
  · rintro ⟨hstart, hid⟩
    rw [hstart, hid]

end ReinhardtCloud.Operator

import ReinhardtCloud.Operator.RedisCredentials

/-!
# The objects `apply` and `cleanup` address

Library `Operator`. Every write of `apply` and every delete of `cleanup`
(`crates/reinhardt-cloud-operator/src/reconciler.rs:429–927,945–1105`) in source order: the kind
and name of the object, and what the code does with an object it finds there. Objects of
the preview namespace, Jobs and the Project itself are left out. Every gate and every failed
call ends `apply` early, so a run issues an initial part of these operations.
-/

namespace ReinhardtCloud.Operator

/-- Kinds of the objects the operations address. -/
inductive ObjectKind where
  | deployment
  | service
  | ingress
  | statefulSet
  | networkPolicy
  | limitRange
  | horizontalPodAutoscaler
  | configMap
  | secret
  | serviceAccount
  | persistentVolumeClaim
  | dynamic (kind : String)
  deriving DecidableEq

/-- Object names: the Project's name with a suffix, or a name that does not depend on it. -/
inductive ObjectName where
  | suffixed (suffix : String)
  | fixed (name : String)
  deriving DecidableEq

/-- The name an operation addresses for a Project. -/
def ObjectName.resolve (projectName : String) : ObjectName → String
  | .suffixed suffix => projectName ++ suffix
  | .fixed name => name

/-- What the code checks before it writes or deletes. -/
inductive Access where
  /-- Server-side apply with `force`, no check. -/
  | forceApply
  /-- `ensure_*_apply_target_is_owned`, then server-side apply. -/
  | applyIfControlled
  /-- `reconcile_app_service_account`. -/
  | applyServiceAccount
  /-- `roll_redis_credential_consumers`. -/
  | rollIfControlled
  | createIfAbsent
  /-- `reconcile_redis_credentials_secret` up to its immutability check. -/
  | redisProvenance
  /-- The immutability check of `reconcile_redis_credentials_secret`. -/
  | redisImmutable
  /-- `delete_if_exists`. -/
  | deleteIfExists
  /-- A delete whose result is discarded. -/
  | delete
  /-- `delete_service_account_if_owned`. -/
  | deleteServiceAccount
  /-- `delete_redis_credentials_secret_if_managed`. -/
  | deleteRedisIfManaged
  /-- `delete_git_credentials_secret_if_managed`. -/
  | deleteGitIfManaged
  deriving DecidableEq

/-- Whether an access creates its object when nothing is stored under the name. -/
def Access.creates : Access → Bool
  | .forceApply | .applyIfControlled | .applyServiceAccount | .createIfAbsent
  | .redisProvenance => true
  | _ => false

/-- One write or delete. -/
structure Operation where
  kind : ObjectKind
  name : ObjectName
  access : Access
  deriving DecidableEq

/-- A stored object: a Secret, or the owners and the Pod template's credentials revision. -/
inductive Object where
  | secret (secret : Secret)
  | resource (ownerReferences : List OwnerReference) (podTemplateRevision : Option Uid)

/-- The owner references of an object. -/
def Object.ownerReferences : Object → List OwnerReference
  | .secret s => s.ownerReferences.getD []
  | .resource owners _ => owners

/-- The stored objects of one namespace; the API server admits one controller per object. -/
structure Cluster where
  object : ObjectKind → String → Option Object
  single_controller : ∀ kind name o, object kind name = some o → ∀ r ∈ o.ownerReferences,
    ∀ r' ∈ o.ownerReferences, r.controller = some true → r'.controller = some true → r.uid = r'.uid

/-- `existing_resource_is_controlled_by_project`, `reconciler.rs:369–380`. -/
def existingResourceIsControlledByProject (o : Object) (app : Project) : Bool :=
  match app.uid with
  | none => false
  | some projectUid =>
    o.ownerReferences.any fun owner ↦ owner.uid = projectUid && owner.controller = some true

/-- `service_account_is_owned_by_uid`, for the Project's UID. -/
def serviceAccountIsOwned (o : Object) (app : Project) : Bool :=
  match app.uid with
  | none => false
  | some projectUid => o.ownerReferences.any fun owner ↦
      owner.uid = projectUid && owner.kind = "Project" && owner.controller = some true

/-- `git_credentials_secret_is_managed`, `reconciler.rs:332–343`. -/
def gitCredentialsSecretIsManaged (o : Object) (app : Project) (secretName : ObjectName) : Bool :=
  existingResourceIsControlledByProject o app ||
    (secretName = .suffixed "-github-git-credentials" &&
      match o with
      | .secret s => (s.labels.getD []).lookup "reinhardt.dev/credential-type" = some "git" &&
          (s.labels.getD []).lookup "reinhardt.dev/provider" = some "github"
      | .resource _ _ => false)

/-- Whether the code goes on to the API call, passes over it, or returns an error. -/
inductive Verdict where
  | issue
  | skip
  | refuse
  deriving DecidableEq

/-- The UID `reconcile_redis_credentials_secret` returns, unless it creates the Secret. -/
def storedRedisUid (app : Project) (s : Cluster) : Option Uid :=
  match s.object .secret (app.name ++ "-redis-credentials") with
  | some (.secret secret) => secret.uid
  | _ => none

/-- What the code does with an object it found under the operation's name. -/
def Operation.onExisting (sha256 : List UInt8 → List UInt8) (app : Project) (s : Cluster)
    (op : Operation) (o : Object) : Verdict :=
  match op.access with
  | .forceApply | .deleteIfExists | .delete => .issue
  | .createIfAbsent => .skip
  | .applyIfControlled =>
    if existingResourceIsControlledByProject o app then .issue else .refuse
  | .applyServiceAccount => if serviceAccountIsOwned o app then .issue else .refuse
  | .deleteServiceAccount => if serviceAccountIsOwned o app then .issue else .skip
  | .rollIfControlled =>
    match o with
    | .resource _ revision =>
      if existingResourceIsControlledByProject o app &&
          !(revision.isSome && revision = storedRedisUid app s) then .issue
      else .skip
    | .secret _ => .skip
  | .redisProvenance =>
    match o with
    | .secret secret =>
      if (redisCredentialsSecretProvenance sha256 secret app).isNone then .refuse
      else if (retainedOwnersPatch app secret).isNone && (secretLabelsPatch app secret).isNone then
        .skip
      else .issue
    | .resource _ _ => .refuse
  | .redisImmutable =>
    match o with
    | .secret secret => if secret.immutable = some true then .skip else .refuse
    | .resource _ _ => .refuse
  | .deleteRedisIfManaged =>
    match o with
    | .secret secret =>
      if (redisCredentialsSecretProvenance sha256 secret app).isSome then .issue else .skip
    | .resource _ _ => .skip
  | .deleteGitIfManaged => if gitCredentialsSecretIsManaged o app op.name then .issue else .skip

/-- What the code does when nothing is stored under the operation's name. -/
def Operation.onAbsent (op : Operation) : Verdict :=
  match op.access with
  | .forceApply | .applyIfControlled | .applyServiceAccount | .createIfAbsent | .redisProvenance
  | .delete => .issue
  | .rollIfControlled | .redisImmutable | .deleteIfExists | .deleteServiceAccount
  | .deleteRedisIfManaged | .deleteGitIfManaged => .skip

/-- What the code does at an operation in a cluster. -/
def Operation.verdict (sha256 : List UInt8 → List UInt8) (app : Project) (s : Cluster)
    (op : Operation) : Verdict :=
  match s.object op.kind (op.name.resolve app.name) with
  | some o => op.onExisting sha256 app s o
  | none => op.onAbsent

/-- The operations of a run that no gate and no failed call cuts short. The verdicts refer to the
cluster before the run: no operation changes what a later one of the run checks. -/
def issued (sha256 : List UInt8 → List UInt8) (app : Project) (s : Cluster) :
    List Operation → List Operation
  | [] => []
  | op :: rest =>
    match op.verdict sha256 app s with
    | .issue => op :: issued sha256 app s rest
    | .skip => issued sha256 app s rest
    | .refuse => []

/-! ## The operations of `apply` -/

/-- `should_provision_postgresql`, `reconciler.rs:1114–1128`, with `requires_postgresql`. -/
def shouldProvisionPostgresql (app : Project) : Bool :=
  app.spec.database.isSome || app.spec.introspect.any fun i ↦
    i.signals.database.any fun db ↦ db = "postgres" || db = "postgresql"

/-- `should_provision_cache`. -/
def shouldProvisionCache (app : Project) : Bool :=
  app.spec.cache || app.spec.introspect.any fun i ↦ i.signals.cache.isSome

/-- `requires_redis_sessions` of the introspected signals. -/
def needsRedisSessions (app : Project) : Bool :=
  app.spec.introspect.any fun i ↦ i.signals.sessionBackend = some "redis"

/-- `should_provision_worker`. -/
def shouldProvisionWorker (app : Project) : Bool :=
  app.spec.worker || app.spec.introspect.any fun i ↦ i.signals.backgroundWorker

/-- `should_provision_mail`. -/
def shouldProvisionMail (app : Project) : Bool :=
  app.spec.mail || app.spec.introspect.any fun i ↦ i.signals.mail.isSome

/-- Whether `apply` reconciles an Ingress: an explicit host, or introspected routes without one. -/
def reconcilesIngress (app : Project) : Bool :=
  app.spec.ingressHost.isSome || app.spec.introspect.any fun i ↦ !i.routes.isEmpty

/-- Whether `build_autoscaler` plans a HorizontalPodAutoscaler: any metric but `rps`. -/
def plansAutoscaler (app : Project) : Bool :=
  app.spec.scale.any fun metric ↦ metric ≠ some .rps

/-- `Platform`. -/
inductive Platform where
  | onpremise
  | aws
  | gcp
  deriving DecidableEq

/-- An operation on an object named after the Project. -/
def named (kind : ObjectKind) (suffix : String) (access : Access) : Operation :=
  ⟨kind, .suffixed suffix, access⟩

/-- `reconcile_tenant_resources`: policies every Project of the tenant shares. -/
def tenantOperations : List Operation :=
  [⟨.networkPolicy, .fixed "tenant-default-deny", .forceApply⟩,
    ⟨.networkPolicy, .fixed "tenant-allow-same-namespace", .forceApply⟩,
    ⟨.networkPolicy, .fixed "tenant-allow-ingress-controller", .forceApply⟩]

/-- The list when the condition holds, nothing otherwise. -/
def onlyIf (c : Bool) (ops : List Operation) : List Operation := if c then ops else []

/-- `infer_database_resources`, `inference/database.rs:144–169`. -/
def inferDatabaseResources (platform : Platform) (engine : DatabaseEngine) : List Operation :=
  match platform with
  | .onpremise =>
    [named .statefulSet "-db" .forceApply, named .persistentVolumeClaim "-db-data" .forceApply,
      named .service "-db" .forceApply, named .configMap "-db-init" .forceApply,
      named .secret "-db-credentials" .createIfAbsent]
  | .aws =>
    onlyIf (engine ≠ .sqlite) [named (.dynamic "DBInstance") "-rds" .forceApply,
      named .secret "-db-credentials" .createIfAbsent]
  | .gcp =>
    onlyIf (engine ≠ .sqlite) [named (.dynamic "SQLInstance") "-sql-instance" .forceApply,
      named (.dynamic "SQLDatabase") "-sql-database" .forceApply,
      named (.dynamic "SQLUser") "-sql-user" .forceApply,
      named .secret "-db-credentials" .createIfAbsent]

/-- The explicit database takes precedence over the introspected one, `reconciler.rs:655–700`. -/
def databaseOperations (platform : Platform) (app : Project) : List Operation :=
  match app.spec.database with
  | some engine => inferDatabaseResources platform engine
  | none => onlyIf (shouldProvisionPostgresql app)
      [named .secret "-db-credentials" .createIfAbsent,
        named .statefulSet "-postgresql" .forceApply, named .service "-postgresql" .forceApply]

/-- `reconcile_cache_deployment` and `reconcile_cache_service_resource`. -/
def cacheOperations : List Operation :=
  [named .deployment "-redis" .forceApply, named .service "-redis" .forceApply]

/-- The Redis Secret and the rolling of its consumers. -/
def redisOperations : List Operation :=
  [named .secret "-redis-credentials" .redisProvenance,
    named .secret "-redis-credentials" .redisImmutable,
    named .deployment "" .rollIfControlled, named .deployment "-worker" .rollIfControlled,
    named .deployment "-redis" .rollIfControlled]

/-- The operations of `apply` on objects created for the Project, in source order. -/
def projectOperations (platform : Platform) (app : Project) : List Operation :=
  onlyIf (shouldProvisionCache app || needsRedisSessions app) redisOperations ++
  [named .secret "-core-secret-key" .createIfAbsent] ++
  onlyIf app.spec.authJwt [named .secret "-jwt-secret" .createIfAbsent] ++
  onlyIf (app.spec.plugins.any fun plugins ↦ !plugins.isEmpty)
    [named .configMap "-dentdelion-plugins" .forceApply] ++
  onlyIf (app.spec.serviceAccount.any fun sa ↦ sa.create)
    [⟨.serviceAccount, ((app.spec.serviceAccount.bind fun sa ↦ sa.name).map .fixed).getD
      (.suffixed "-app"), .applyServiceAccount⟩] ++
  onlyIf app.spec.isolation
    [named .networkPolicy "-deny-all" .forceApply,
      named .networkPolicy "-allow-ingress" .forceApply,
      named .networkPolicy "-allow-egress" .forceApply, named .limitRange "-limits" .forceApply] ++
  databaseOperations platform app ++
  [named .deployment "" .applyIfControlled, named .service "" .applyIfControlled] ++
  onlyIf (reconcilesIngress app) [named .ingress "" .forceApply] ++
  onlyIf (plansAutoscaler app) [named .horizontalPodAutoscaler "" .forceApply] ++
  onlyIf (shouldProvisionCache app) cacheOperations ++
  onlyIf (shouldProvisionWorker app) [named .deployment "-worker" .forceApply] ++
  onlyIf (app.spec.introspect.any fun i ↦ i.signals.grpc) [named .service "-grpc" .forceApply] ++
  onlyIf (shouldProvisionMail app) [named .secret "-smtp-credentials" .createIfAbsent] ++
  onlyIf (needsRedisSessions app && !shouldProvisionCache app) cacheOperations ++
  onlyIf (app.spec.introspect.any fun i ↦ i.signals.i18n)
    [named .configMap "-locales" .forceApply]

/-- `validate_dns_1123_label`, `validation.rs:41–70`. -/
def isDns1123Label (value : String) : Bool :=
  let chars := value.toList
  !chars.isEmpty && value.utf8ByteSize ≤ 63 && chars.head?.any isDns1123Alphanumeric &&
    chars.getLast?.any isDns1123Alphanumeric && chars.all fun c ↦ isDns1123Alphanumeric c || c = '-'

/-- `TenantRef::namespace`, `crd/tenant.rs:62–67`. -/
def TenantRef.computedNamespace (tenant : TenantRef) : String :=
  match tenant.team with
  | some team => s!"tenant-{tenant.organization}-{team}"
  | none => s!"tenant-{tenant.organization}"

/-- `validate_tenant_namespace`: whether `apply` goes on in the given namespace. -/
def tenantAccepted (app : Project) (ns : String) : Bool :=
  app.spec.tenant.all fun tenant ↦
    isDns1123Label tenant.organization && tenant.team.all isDns1123Label &&
      isDns1123Label tenant.computedNamespace && tenant.computedNamespace = ns

/-- All operations of `apply`, in source order. -/
def applyOperations (platform : Platform) (app : Project) (ns : String) : List Operation :=
  onlyIf (tenantAccepted app ns)
    (onlyIf app.spec.tenant.isSome tenantOperations ++ projectOperations platform app)

/-! ## The operations of `cleanup` -/

/-- The deletes of `cleanup`, in source order; its metadata patch under `Retain` is no delete. -/
def cleanupOperations (app : Project) : List Operation :=
  [named .deployment "-redis" .deleteIfExists, named .service "-redis" .deleteIfExists,
    named .deployment "-worker" .deleteIfExists, named .networkPolicy "-deny-all" .deleteIfExists,
    named .networkPolicy "-allow-ingress" .deleteIfExists,
    named .networkPolicy "-allow-egress" .deleteIfExists,
    named .limitRange "-limits" .deleteIfExists, named .service "-grpc" .deleteIfExists,
    named .serviceAccount "-storage" .deleteServiceAccount,
    named .serviceAccount "-app" .deleteServiceAccount,
    named .configMap "-locales" .deleteIfExists, named .ingress "" .deleteIfExists,
    named .horizontalPodAutoscaler "" .deleteIfExists] ++
  onlyIf (app.spec.deletionPolicy = .delete)
    [named .secret "-jwt-secret" .delete, named .secret "-db-credentials" .delete,
      named .secret "-redis-credentials" .deleteRedisIfManaged,
      named .secret "-smtp-credentials" .delete,
      named .secret "-git-credentials" .deleteGitIfManaged,
      named .secret "-github-git-credentials" .deleteGitIfManaged,
      named .statefulSet "-postgresql" .deleteIfExists,
      named .service "-postgresql" .deleteIfExists]

end ReinhardtCloud.Operator

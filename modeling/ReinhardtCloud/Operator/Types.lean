import ReinhardtCloud.Base.Characters
import ReinhardtCloud.Base.Program

/-!
# Project resources as the operator sees them

Library `Operator`. The fields of the `Project` custom resource
(`crates/reinhardt-cloud-types/src/crd/`), of object metadata and of the operator's error
type (`crates/reinhardt-cloud-operator/src/error.rs`) that the modelled functions read.
-/

namespace ReinhardtCloud.Operator

open ReinhardtCloud.Base

/-- API-assigned object identity; opaque, never reused. -/
abbrev Uid := Nat

/-- `is_dns_1123_alphanumeric`, `validation.rs`. -/
def isDns1123Alphanumeric (c : Char) : Bool := isLowerAlphanumeric c

theorem isDns1123Alphanumeric_iff {c : Char} :
    isDns1123Alphanumeric c = true ↔
      (97 ≤ c.toNat ∧ c.toNat ≤ 122) ∨ (48 ≤ c.toNat ∧ c.toNat ≤ 57) := by
  have hlower : c.isLower = (decide (97 ≤ c.toNat) && decide (c.toNat ≤ 122)) := rfl
  have hdigit : c.isDigit = (decide (48 ≤ c.toNat) && decide (c.toNat ≤ 57)) := rfl
  simp only [isDns1123Alphanumeric, isLowerAlphanumeric, hlower, hdigit, Bool.or_eq_true,
    Bool.and_eq_true, decide_eq_true_eq]

theorem isAlphanum_iff {c : Char} :
    c.isAlphanum = true ↔ (65 ≤ c.toNat ∧ c.toNat ≤ 90) ∨ isDns1123Alphanumeric c = true := by
  have halnum : c.isAlphanum = (c.isUpper || c.isLower || c.isDigit) := rfl
  have hupper : c.isUpper = decide (65 ≤ c.toNat ∧ c.toNat ≤ 90) := rfl
  rw [halnum, Bool.or_assoc, Bool.or_eq_true, hupper, decide_eq_true_eq, isDns1123Alphanumeric,
    isLowerAlphanumeric]

/-- A DNS-1123 subdomain: what the API server admits as an object's name. -/
def isKubernetesName (name : String) : Bool :=
  let chars := name.toList
  name.utf8ByteSize ≤ 253 && chars.head?.any isDns1123Alphanumeric &&
    chars.getLast?.any isDns1123Alphanumeric &&
    (chars.all fun c ↦ isDns1123Alphanumeric c || c = '-' || c = '.') &&
    (chars.zip chars.tail).all fun cd ↦
      (cd.1 ≠ '.' || isDns1123Alphanumeric cd.2) && (cd.2 ≠ '.' || isDns1123Alphanumeric cd.1)

/-- What the API server admits as a Job's name: dot-separated DNS-1123 labels of at most 63
characters in all. -/
def isJobName (name : String) : Bool := name.length ≤ 63 && isKubernetesName name

/-- The response codes the operator tells apart: 404, 409 on create, 409 on a precondition. -/
inductive ApiError where
  | notFound
  | alreadyExists
  | conflict
  | other
  deriving DecidableEq

/-- `Error`, `error.rs:7–122`: the cases the modelled functions return. -/
inductive Error where
  | kube (error : ApiError)
  | missingField (field : String)
  | missingNamespace (name : String)
  | ownerReference (name : String)
  | resourceOwnershipConflict (kind ns name projectNamespace projectName : String)
  | secretGeneration (message : String)
  | invalidCredentialsSecret (actual expected : String)
  | invalidImagePullSecret (app secret allowedPrefixes : String)
  | invalidPort (field : String) (port : Int)
  | invalidProbePeriod (field : String) (seconds : Int)
  | invalidStaticRoot (root : String)
  | conflictingPagesEnv (keys : List String)
  | databaseProvisioning (message : String)
  | pluginConfigRender (message : String)
  | invalidPluginSpec (message : String)
  deriving DecidableEq

/-- An owner reference: the owner's kind and identity and whether it is the controller. -/
structure OwnerReference where
  kind : String
  uid : Uid
  controller : Option Bool
  deriving DecidableEq

/-- Label or annotation maps, as association lists with distinct keys. -/
abbrev StringMap := List (String × String)

/-- Merge patch of a map: the given keys are set, the others stay. -/
def StringMap.merge (current patch : StringMap) : StringMap :=
  patch ++ current.filter fun kv ↦ !(patch.any fun p ↦ p.1 == kv.1)

/-- `PreviewSpec`, `source.rs`. -/
structure PreviewSpec where
  enabled : Bool
  ttl : Option String
  urlTemplate : Option String
  deriving DecidableEq

/-- `BuildSpec`, `source.rs:38–48`. -/
structure BuildSpec where
  dockerfile : Option String
  context : Option String
  registry : Option String
  buildArgs : StringMap
  deriving DecidableEq

/-- `SourceSpec`, `source.rs`. -/
structure SourceSpec where
  repository : String
  branch : Option String
  credentialsSecret : Option String
  build : Option BuildSpec
  preview : Option PreviewSpec
  deriving DecidableEq

/-- `BuildPhase`, `status.rs`. -/
inductive BuildPhase where
  | pending
  | running
  | succeeded
  | failed
  deriving DecidableEq

/-- `BuildTargetKind`, `status.rs:54–57`. -/
inductive BuildTargetKind where
  | production
  | preview
  deriving DecidableEq

/-- `BuildStatus`, `status.rs:62–96`, without its two timestamps. -/
structure BuildStatus where
  phase : BuildPhase
  target : BuildTargetKind
  trigger : String
  jobName : String
  image : String
  imageTag : String
  previewName : Option String
  prNumber : Option String
  branch : Option String
  reason : Option String
  message : Option String
  deriving DecidableEq

/-- `ProjectStatus`, `status.rs:145–178`: the recorded build and Redis provenance. -/
structure ProjectStatus where
  build : Option BuildStatus
  redisCredentialsSecretUid : Option Uid
  redisCredentialsSecretDigest : Option String
  deriving DecidableEq

/-- The four annotations that carry build and preview requests, `source_build.rs:17–20`. -/
structure Annotations where
  buildTrigger : Option String
  previewAction : Option String
  prNumber : Option String
  prBranch : Option String
  deriving DecidableEq

/-- `InfraSignals`, `introspect.rs:169–206`: the signals the operator provisions from. -/
structure InfraSignals where
  database : Option String := none
  cache : Option String := none
  backgroundWorker : Bool := false
  grpc : Bool := false
  storage : Option String := none
  mail : Option String := none
  sessionBackend : Option String := none
  graphql : Bool := false
  adminPanel : Bool := false
  i18n : Bool := false
  pages : Bool := false
  deriving DecidableEq

/-- `IntrospectOutput`: the signals, the paths of the routes, `app.version` and
`settings.server.default_port`, a `u16`. -/
structure IntrospectOutput where
  signals : InfraSignals
  routes : List String
  appVersion : String := ""
  defaultPort : UInt16 := 8000
  deriving DecidableEq

/-- `DatabaseEngine`, `crd/database.rs`. -/
inductive DatabaseEngine where
  | postgresql
  | mysql
  | sqlite
  deriving DecidableEq

/-- `ScaleMetric`, `spec.rs`. -/
inductive ScaleMetric where
  | cpu
  | memory
  | rps
  deriving DecidableEq

/-- `ServiceAccountSpec`, `crd/service_account.rs`. -/
structure ServiceAccountSpec where
  create : Bool
  name : Option String
  deriving DecidableEq

/-- `TenantRef`, `crd/tenant.rs:30–41`. -/
structure TenantRef where
  organization : String
  team : Option String
  deriving DecidableEq

/-- `NetworkIsolationSpec`, `isolation.rs`, with the defaults of an empty one. -/
structure NetworkIsolationSpec where
  blockMetadataService : Bool := true
  allowEgress : Bool := true
  egressAllowCidrs : List String := []
  dnsAllowCidrs : List String := []
  deriving DecidableEq

/-- `HealthSpec`, `spec.rs`. -/
structure HealthSpec where
  path : Option String
  port : Option Int
  intervalSeconds : Option Int
  deriving DecidableEq

/-- `PagesSpec`, `pages.rs`, without the sidecar's resources, caching and compression. -/
structure PagesSpec where
  staticRoot : Option String
  staticUrl : Option String
  serverImage : Option String
  prebuilt : Option Bool
  deriving DecidableEq

/-- `DeletionPolicy`, `crd/policy.rs`. -/
inductive DeletionPolicy where
  | retain
  | delete
  deriving DecidableEq

/-- `PluginType`, `crd/plugins.rs:44–51`. -/
inductive PluginType where
  | httpMiddleware
  | grpcInterceptor
  | eventHandler
  deriving DecidableEq

/-- `PluginCapability`, `plugins.rs:58–67`. -/
inductive PluginCapability where
  | networkAccess
  | filesystemRead
  | filesystemWrite
  | envAccess
  deriving DecidableEq

/-- `PluginSpec`, `plugins.rs:71–89`. -/
structure PluginSpec where
  name : String
  wasmDir : String
  pluginType : PluginType
  memoryLimitMb : Option UInt64 := none
  timeoutMs : Option UInt64 := none
  capabilities : List PluginCapability := []
  deriving DecidableEq

/-- `ProjectSpec`, `spec.rs`. Of `cache`, `worker` and `mail` only the presence is read, of `auth`
the `jwt` flag. `database` holds the engine, `scale` the metric and `isolation` whether it is set;
their other fields and those of `services` stand beside them. -/
structure ProjectSpec where
  image : String
  source : Option SourceSpec := none
  database : Option DatabaseEngine := none
  cache : Bool := false
  worker : Bool := false
  authJwt : Bool := false
  mail : Bool := false
  scale : Option (Option ScaleMetric) := none
  ingressHost : Option String := none
  deletionPolicy : DeletionPolicy := .retain
  introspect : Option IntrospectOutput := none
  isolation : Bool := false
  isolationNetwork : Option NetworkIsolationSpec := none
  plugins : Option (List PluginSpec) := none
  serviceAccount : Option ServiceAccountSpec := none
  tenant : Option TenantRef := none
  replicas : Option Int := none
  env : StringMap := []
  health : Option HealthSpec := none
  pages : Option PagesSpec := none
  servicePort : Option Int := none
  serviceTargetPort : Option Int := none
  scaleMinReplicas : Option Int := none
  scaleMaxReplicas : Option Int := none
  scaleTargetValue : Option Int := none
  databaseInstanceClass : Option String := none
  databaseStorageGb : Option Int := none
  databaseVersion : Option String := none
  imagePullSecrets : Option (List String) := none
  deriving DecidableEq

/-- A `Project` object as read from the API server. -/
structure Project where
  name : String
  ns : Option String
  uid : Option Uid
  resourceVersion : Option Nat
  annotations : Annotations
  spec : ProjectSpec
  status : Option ProjectStatus
  labels : Option StringMap := none
  deriving DecidableEq

end ReinhardtCloud.Operator

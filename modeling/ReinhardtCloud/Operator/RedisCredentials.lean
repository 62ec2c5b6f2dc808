import ReinhardtCloud.Base.Encoding
import ReinhardtCloud.Operator.Types

/-!
# Redis credentials of a Project

Library `Operator`. Model of `reconcile_redis_credentials_secret`, its helpers and the clean-up
of the Secret (`crates/reinhardt-cloud-operator/src/reconciler.rs:1739–2049,2117–2147`) as
clients of the API server. SHA-256 is a parameter. The server keeps every version of the
Project and of each Secret, so that a stale read and an earlier observation can be named.
-/

namespace ReinhardtCloud.Operator

open ReinhardtCloud.Base

/-- One entry of a Secret's data; Rust lengths fit in 64 bits. -/
structure DataEntry where
  key : String
  value : List UInt8
  key_lt : key.toUTF8.data.toList.length < 2 ^ 64
  value_lt : value.length < 2 ^ 64
  deriving DecidableEq

/-- The fields of a `Secret` the operator reads; `data` lists its entries in key order. -/
structure Secret where
  name : String
  uid : Option Uid
  resourceVersion : Option Nat
  labels : Option StringMap
  ownerReferences : Option (List OwnerReference)
  data : Option (List DataEntry)
  immutable : Option Bool
  deriving DecidableEq

/-- What `generate_random_password(32)` returns, `inference/secrets.rs:143`. -/
abbrev GeneratedPassword := { bytes : List UInt8 // bytes.length = 32 }

/-- Requests of the Redis credentials flow. Preconditions and patched values are arguments. -/
inductive RedisCall where
  /-- `generate_random_password(32)`. -/
  | generatePassword
  | getSecret
  | createSecret (secret : Secret)
  /-- Metadata merge patch conditioned on UID and resourceVersion. -/
  | patchSecretMetadata (uid : Option Uid) (resourceVersion : Nat)
      (ownerReferences : Option (List OwnerReference)) (labels : Option StringMap)
  /-- Delete with a UID precondition. -/
  | deleteSecret (uid : Option Uid)
  /-- Status merge patch that writes both provenance fields, null included. -/
  | patchProvenance (uid : Option Uid) (digest : Option String) (resourceVersion : Option Nat)
  /-- Status merge patch of a serialized `ProjectStatus`: absent fields are skipped. -/
  | mergeStatus (uid : Option Uid) (digest : Option String)

/-- What each request returns when it succeeds. -/
@[reducible] def RedisCall.Result : RedisCall → Type
  | .generatePassword => GeneratedPassword
  | .getSecret => Option Secret
  | .createSecret _ => Secret
  | .patchSecretMetadata _ _ _ _ | .deleteSecret _ | .patchProvenance _ _ _ | .mergeStatus _ _ =>
    Unit

/-- A client of the Redis credentials flow. -/
abbrev RedisProgram :=
  Program RedisCall (fun c ↦ Except ApiError c.Result) Error

/-- Send a request; `map_err(Error::Kube)?`. -/
def redisApi (c : RedisCall) : RedisProgram c.Result :=
  .call c fun
    | .ok r => pure r
    | .error e => .fail (.kube e)

/-- `RedisCredentialsProvenance`, `reconciler.rs:1741–1743`. -/
structure RedisCredentialsProvenance where
  uid : Uid
  deriving DecidableEq

/-- `standard_secret_labels`, `inference/secrets.rs:129–140`. -/
def standardSecretLabels (projectName : String) : StringMap :=
  [("app.kubernetes.io/name", projectName),
    ("app.kubernetes.io/managed-by", "reinhardt-cloud-operator")]

/-- The data `build_redis_credentials_secret` stores: the password under its key. -/
def redisCredentialsData (password : GeneratedPassword) : List DataEntry :=
  [{ key := "password", value := password.1, key_lt := by decide,
     value_lt := by rw [password.2]; decide }]

/-- `build_redis_credentials_secret`, `inference/secrets.rs:70–86`, with the password drawn. -/
def buildRedisCredentialsSecret (projectName : String) : RedisProgram Secret := do
  let password ← redisApi .generatePassword
  pure {
    name := s!"{projectName}-redis-credentials"
    uid := none
    resourceVersion := none
    labels := some (standardSecretLabels projectName)
    ownerReferences := none
    data := some (redisCredentialsData password)
    immutable := none }

/-- `build_managed_redis_credentials_secret`, `reconciler.rs:1915–1919`. -/
def buildManagedRedisCredentialsSecret (app : Project) : RedisProgram Secret := do
  let secret ← buildRedisCredentialsSecret app.name
  pure { secret with immutable := some true }

/-- The bytes hashed for a Secret's data: each key and value behind its length. -/
def encodeSecretData (data : Option (List DataEntry)) : List UInt8 :=
  (data.getD []).flatMap fun e ↦
    lengthPrefixed e.key.toUTF8.data.toList ++ lengthPrefixed e.value

/-- `redis_credentials_digest`, `reconciler.rs:1925–1941`. -/
def redisCredentialsDigest (sha256 : List UInt8 → List UInt8) (secret : Secret) : String :=
  hexEncode (sha256 (encodeSecretData secret.data))

/-- `redis_credentials_secret_provenance`, `reconciler.rs:2033–2049`. -/
def redisCredentialsSecretProvenance (sha256 : List UInt8 → List UInt8) (secret : Secret)
    (app : Project) : Option RedisCredentialsProvenance := do
  let uid ← secret.uid
  let status ← app.status
  let trusted := match status.redisCredentialsSecretUid with
    | some recordedUid => decide (recordedUid = uid)
    | none => status.redisCredentialsSecretDigest.any
        fun pending ↦ decide (pending = redisCredentialsDigest sha256 secret)
  if trusted then some ⟨uid⟩ else none

/-- `ownership_conflict_error`, `reconciler.rs:382–395`. -/
def ownershipConflictError (kind ns name : String) (app : Project) : Error :=
  .resourceOwnershipConflict kind ns name (app.ns.getD "") app.name

/-- `patch_redis_credentials_provenance`, `reconciler.rs:1891–1913`. -/
def patchRedisCredentialsProvenance (uid : Option Uid) (digest : Option String)
    (resourceVersion : Option Nat) : RedisProgram Unit :=
  redisApi (.patchProvenance uid digest resourceVersion)

/-- The owner references to write back: this Project's own are dropped, if there are any. -/
def retainedOwnersPatch (app : Project) (secret : Secret) : Option (List OwnerReference) :=
  app.uid.bind fun projectUid ↦
    let owners := secret.ownerReferences.getD []
    let retained := owners.filter fun owner ↦ owner.uid ≠ projectUid
    if retained.length ≠ owners.length then some retained else none

/-- The labels to write back, if one of the operator's labels is missing or changed. -/
def secretLabelsPatch (app : Project) (secret : Secret) : Option StringMap :=
  let expectedLabels := standardSecretLabels app.name
  let labelsIntact := expectedLabels.all fun kv ↦
    (secret.labels.bind fun labels ↦ labels.lookup kv.1) == some kv.2
  if labelsIntact then none else some expectedLabels

/-- `enforce_redis_credentials_metadata`, `reconciler.rs:1951–2006`. -/
def enforceRedisCredentialsMetadata (sha256 : List UInt8 → List UInt8) (app : Project)
    (secret : Secret) : RedisProgram Unit :=
  if (redisCredentialsSecretProvenance sha256 secret app).isNone then pure ()
  else if (retainedOwnersPatch app secret).isNone && (secretLabelsPatch app secret).isNone then
    pure ()
  else
    match secret.resourceVersion with
    | none => .fail (.secretGeneration "Redis credentials Secret has no resourceVersion")
    | some resourceVersion =>
      redisApi (.patchSecretMetadata secret.uid resourceVersion (retainedOwnersPatch app secret)
        (secretLabelsPatch app secret))

/-- `reconcile_redis_credentials_secret`, `reconciler.rs:1796–1881`. -/
def reconcileRedisCredentialsSecret (sha256 : List UInt8 → List UInt8) (app : Project)
    (ns : String) : RedisProgram RedisCredentialsProvenance := do
  let secretName := s!"{app.name}-redis-credentials"
  match ← redisApi .getSecret with
  | some existing =>
    match redisCredentialsSecretProvenance sha256 existing app with
    | none => .fail (ownershipConflictError "Secret" ns secretName app)
    | some provenance =>
      enforceRedisCredentialsMetadata sha256 app existing
      if existing.immutable ≠ some true then
        .fail (.secretGeneration (s!"Redis credentials Secret {ns}/{secretName} is mutable; " ++
          "a platform administrator must verify and freeze it before adoption"))
      else
        let uidRecorded := app.status.any fun status ↦ status.redisCredentialsSecretUid.isSome
        let digestPending := app.status.any fun status ↦
          status.redisCredentialsSecretDigest.isSome
        if !uidRecorded || digestPending then
          patchRedisCredentialsProvenance (some provenance.uid) none none
          pure provenance
        else pure provenance
  | none =>
    let secret ← buildManagedRedisCredentialsSecret app
    let digest := redisCredentialsDigest sha256 secret
    patchRedisCredentialsProvenance none (some digest) app.resourceVersion
    let created ← redisApi (.createSecret secret)
    match created.uid with
    | none => .fail (.secretGeneration "created Redis credentials Secret has no UID")
    | some uid =>
      patchRedisCredentialsProvenance (some uid) none none
      pure ⟨uid⟩

/-- The provenance part of `build_status`, `RedisCredentialsProvenance::record` and
`update_status`: `apply` ends by writing what it observed or the approved UID. -/
def updateRedisStatus (app : Project) (provenance : Option RedisCredentialsProvenance) :
    RedisProgram Unit :=
  match provenance with
  | some p => redisApi (.mergeStatus (some p.uid) none)
  | none => redisApi (.mergeStatus (app.status.bind fun s ↦ s.redisCredentialsSecretUid)
      (app.status.bind fun s ↦ s.redisCredentialsSecretDigest))

/-- `retain_redis_credentials_secret`, `reconciler.rs:2008–2021`. -/
def retainRedisCredentialsSecret (sha256 : List UInt8 → List UInt8) (app : Project) :
    RedisProgram Unit := do
  match ← redisApi .getSecret with
  | some existing => enforceRedisCredentialsMetadata sha256 app existing
  | none => pure ()

/-- `delete_redis_credentials_secret_if_managed`, `reconciler.rs:2117–2147`. -/
def deleteRedisCredentialsSecretIfManaged (sha256 : List UInt8 → List UInt8) (app : Project) :
    RedisProgram Unit := do
  match ← redisApi .getSecret with
  | none => pure ()
  | some existing =>
    if (redisCredentialsSecretProvenance sha256 existing app).isSome then
      -- the result of the delete is discarded
      .call (.deleteSecret existing.uid) fun _ ↦ pure ()
    else pure ()

end ReinhardtCloud.Operator

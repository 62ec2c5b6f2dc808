import ReinhardtCloud.Operator.RedisCredentials

/-!
# The API server behind the Redis credentials flow

Library `Operator`. The stored versions of the Project and of the Secrets at the predictable
name, what the API server does with each request, what a tenant may do, and which clients the
operator starts. A started client may have read any stored version of the Project, and a
client that is never served again has stopped.
-/

namespace ReinhardtCloud.Operator

open ReinhardtCloud.Base

/-- Stored objects. Versions are newest first; the Project's resourceVersion counts its versions.
`passwords` is the random source and `drawn` how much of it was used. -/
structure RedisStore where
  projects : List Project
  secretVersions : Uid → List Secret
  live : Option Uid
  nextUid : Uid
  revision : Nat
  passwords : Nat → GeneratedPassword
  drawn : Nat

namespace RedisStore

/-- A Project without provenance, and no Secret at its predictable name. -/
def init (app : Project) (passwords : Nat → GeneratedPassword) : RedisStore :=
  { projects := [{ app with resourceVersion := some 1, status := none }]
    secretVersions := fun _ ↦ []
    live := none, nextUid := 0, revision := 0, passwords := passwords, drawn := 0 }

/-- The Secret currently stored at the predictable name. -/
def liveSecret (s : RedisStore) : Option Secret :=
  s.live.bind fun u ↦ (s.secretVersions u).head?

/-- Store the next version of the Project. -/
def pushProject (s : RedisStore) (app : Project) : RedisStore :=
  { s with projects :=
      { app with resourceVersion := some (s.projects.length + 1) } :: s.projects }

/-- Store the next version of a Secret under its UID. -/
def pushSecret (s : RedisStore) (u : Uid) (secret : Secret) : RedisStore :=
  { s with
    secretVersions := Function.update s.secretVersions u
      ({ secret with uid := some u, resourceVersion := some (s.revision + 1) } ::
        s.secretVersions u)
    revision := s.revision + 1 }

/-- Store a new Secret at the free name under a fresh UID. -/
def addSecret (s : RedisStore) (secret : Secret) : RedisStore :=
  { s.pushSecret s.nextUid secret with live := some s.nextUid, nextUid := s.nextUid + 1 }

/-- Overwrite the provenance fields of the newest Project version. -/
def patchStatus (s : RedisStore) (f : ProjectStatus → ProjectStatus) : RedisStore :=
  match s.projects with
  | [] => s
  | app :: _ => s.pushProject { app with status := some (f (app.status.getD ⟨none, none, none⟩)) }

theorem live_patchStatus {s : RedisStore} {f : ProjectStatus → ProjectStatus} :
    (s.patchStatus f).live = s.live := by
  cases h : s.projects <;> simp [patchStatus, pushProject, h]

/-- The API server's answer to one request and its effect. `fault` is any other failure. -/
def serve (s : RedisStore) (fault : Bool) :
    (c : RedisCall) → RedisStore × Except ApiError c.Result
  | .generatePassword => ({ s with drawn := s.drawn + 1 }, .ok (s.passwords s.drawn))
  | .getSecret => if fault then (s, .error .other) else (s, .ok s.liveSecret)
  | .createSecret secret =>
    if fault then (s, .error .other)
    else match s.live with
      | some _ => (s, .error .alreadyExists)
      | none => (s.addSecret secret, .ok
          { secret with uid := some s.nextUid, resourceVersion := some (s.revision + 1) })
  | .patchSecretMetadata uid resourceVersion ownerReferences labels =>
    if fault then (s, .error .other)
    else match s.live, s.liveSecret with
      | some u, some secret =>
        if secret.uid = uid ∧ secret.resourceVersion = some resourceVersion then
          (s.pushSecret u { secret with
            ownerReferences := ownerReferences.or secret.ownerReferences
            labels := (labels.map fun l ↦ (secret.labels.getD []).merge l).or secret.labels },
          .ok ())
        else (s, .error .conflict)
      | _, _ => (s, .error .notFound)
  | .deleteSecret uid =>
    if fault then (s, .error .other)
    else match s.live with
      | none => (s, .error .notFound)
      | some u => if uid.all (fun w ↦ w = u) then ({ s with live := none }, .ok ())
        else (s, .error .conflict)
  | .patchProvenance uid digest resourceVersion =>
    if fault then (s, .error .other)
    else if resourceVersion.all (fun v ↦ v = s.projects.length) then
      (s.patchStatus fun status ↦ { status with
        redisCredentialsSecretUid := uid, redisCredentialsSecretDigest := digest }, .ok ())
    else (s, .error .conflict)
  | .mergeStatus uid digest =>
    if fault then (s, .error .other)
    else (s.patchStatus fun status ↦ { status with
      redisCredentialsSecretUid := uid.or status.redisCredentialsSecretUid
      redisCredentialsSecretDigest := digest.or status.redisCredentialsSecretDigest }, .ok ())

end RedisStore

/-- What a tenant can do: any Secret at the predictable name, any edit an immutable Secret
admits, and any edit of the Project outside its status. -/
inductive TenantAction where
  | createSecret (secret : Secret)
  | deleteSecret
  | updateSecret (secret : Secret)
  | editProject (annotations : Annotations) (spec : ProjectSpec)

/-- One tenant action, absent when the API server rejects it. -/
def tenantStep (s : RedisStore) : TenantAction → Option RedisStore
  | .createSecret secret => if s.live.isNone then some (s.addSecret secret) else none
  | .deleteSecret => if s.live.isSome then some { s with live := none } else none
  | .updateSecret secret =>
    match s.live, s.liveSecret with
    | some u, some current =>
      if current.immutable = some true ∧
          ¬ (secret.immutable = some true ∧ secret.data = current.data) then none
      else some (s.pushSecret u secret)
    | _, _ => none
  | .editProject annotations spec =>
    match s.projects with
    | [] => none
    | app :: _ => some (s.pushProject { app with annotations := annotations, spec := spec })

/-- The clients the operator starts; `version` selects the Project version they observed. -/
inductive RedisJob where
  | reconcile (version : Nat)
  /-- The Redis part of `apply`: provisioning when requested, then the status update. -/
  | apply (version : Nat) (provision : Bool)
  | cleanup (version : Nat) (policy : DeletionPolicy)

/-- How a client ends without an error. -/
inductive RedisOutcome where
  | reconciled (provenance : RedisCredentialsProvenance)
  | applied
  | cleanedUp

/-- The program of a job for the Project version it observed. -/
def RedisJob.program (sha256 : List UInt8 → List UInt8) (app : Project) :
    RedisJob → RedisProgram RedisOutcome
  | .reconcile _ => do
    let provenance ← reconcileRedisCredentialsSecret sha256 app (app.ns.getD "")
    pure (.reconciled provenance)
  | .apply _ true => do
    let provenance ← reconcileRedisCredentialsSecret sha256 app (app.ns.getD "")
    updateRedisStatus app (some provenance)
    pure .applied
  | .apply _ false => do
    updateRedisStatus app none
    pure .applied
  | .cleanup _ .retain => do
    retainRedisCredentialsSecret sha256 app
    pure .cleanedUp
  | .cleanup _ .delete => do
    deleteRedisCredentialsSecretIfManaged sha256 app
    pure .cleanedUp

/-- Which stored version of the Project a job observed. -/
def RedisJob.version : RedisJob → Nat
  | .reconcile v | .apply v _ | .cleanup v _ => v

/-- Start a job on the Project version it observed. -/
def startRedisJob (sha256 : List UInt8 → List UInt8) (s : RedisStore) (j : RedisJob) :
    Option (RedisStore × RedisProgram RedisOutcome) :=
  s.projects[j.version]?.map fun app ↦ (s, j.program sha256 app)

/-- The API server with a tenant and any number of the operator's clients. -/
def redisStep (sha256 : List UInt8 → List UInt8) :=
  Shared.step RedisStore.serve tenantStep (startRedisJob sha256)

end ReinhardtCloud.Operator

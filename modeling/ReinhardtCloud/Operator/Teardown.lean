import Mathlib.Data.List.Nodup
import ReinhardtCloud.Base.Run
import ReinhardtCloud.Operator.PreviewRuns
import ReinhardtCloud.Operator.Separation
import ReinhardtCloud.Operator.SourceBuild

/-!
# Tearing a Project down

Library `Operator`. `cleanup` (`reconciler.rs:945–1105`) request by request, under the finalizer of
`reconcile`: a request may fail, others may change the namespace between two requests, and a
cleanup that ends early is started again. Its preview part is the program of `Previews`, likewise
one request after the other.
-/

namespace ReinhardtCloud.Operator

open ReinhardtCloud.Base

deriving instance DecidableEq for Object

/-! ## The namespace -/

/-- A Job, as far as `cleanup` reads it. -/
structure LabelledJob where
  name : String
  labels : StringMap
  deriving DecidableEq

/-- The label selector that `cleanup` lists Jobs with. -/
def LabelledJob.isOf (job : LabelledJob) (projectName component : String) : Bool :=
  job.labels.lookup "app.kubernetes.io/name" = some projectName &&
    job.labels.lookup "app.kubernetes.io/component" = some component

/-- The Jobs of one namespace, under distinct names. -/
structure JobStore where
  jobs : List LabelledJob
  nodup : (jobs.map (·.name)).Nodup

/-- The Job of a name is gone. -/
def JobStore.erase (store : JobStore) (name : String) : JobStore where
  jobs := store.jobs.filter (·.name ≠ name)
  nodup := store.nodup.sublist (List.Sublist.map _ List.filter_sublist)

/-- The object under a name is gone. -/
def Cluster.erase (s : Cluster) (kind : ObjectKind) (name : String) : Cluster where
  object kind' name' := if kind' = kind ∧ name' = name then none else s.object kind' name'
  single_controller := by
    intro kind' name' o ho
    by_cases hsame : kind' = kind ∧ name' = name
    · rw [if_pos hsame] at ho
      cases ho
    · rw [if_neg hsame] at ho
      exact s.single_controller kind' name' o ho

/-- What the patch of `enforce_redis_credentials_metadata` makes of a Secret. -/
def patchedSecret (app : Project) (secret : Secret) : Secret :=
  { secret with
    ownerReferences := (retainedOwnersPatch app secret).or secret.ownerReferences
    labels := ((secretLabelsPatch app secret).map fun l ↦ (secret.labels.getD []).merge l).or
      secret.labels
    resourceVersion := secret.resourceVersion.map (· + 1) }

/-- Patching the owners leaves some of them out. -/
theorem mem_ownerReferences_patchedSecret {app : Project} {secret : Secret} {r : OwnerReference}
    (h : r ∈ (patchedSecret app secret).ownerReferences.getD []) :
    r ∈ secret.ownerReferences.getD [] := by
  rw [patchedSecret] at h
  cases hpatch : retainedOwnersPatch app secret with
  | none =>
    rw [hpatch] at h
    exact h
  | some retained =>
    rw [hpatch] at h
    obtain ⟨projectUid, -, hretained⟩ := Option.bind_eq_some_iff.mp hpatch
    obtain ⟨-, hfilter⟩ := Option.ite_none_right_eq_some.mp hretained
    rw [← Option.some.inj hfilter] at h
    exact (List.mem_filter.mp h).1

/-- The Secret under a name is patched. -/
def Cluster.patchSecret (s : Cluster) (app : Project) (name : String) (secret : Secret)
    (hstored : s.object .secret name = some (.secret secret)) : Cluster where
  object kind' name' :=
    if kind' = .secret ∧ name' = name then some (.secret (patchedSecret app secret))
    else s.object kind' name'
  single_controller := by
    intro kind' name' o ho r hr r' hr'
    by_cases hsame : kind' = .secret ∧ name' = name
    · rw [if_pos hsame] at ho
      obtain rfl := Option.some.inj ho
      exact s.single_controller .secret name _ hstored r (mem_ownerReferences_patchedSecret hr) r'
        (mem_ownerReferences_patchedSecret hr')
    · rw [if_neg hsame] at ho
      exact s.single_controller kind' name' o ho r hr r' hr'

/-! ## The steps of `cleanup` -/

/-- A part of `cleanup`. Of the Jobs of a component, a delete that fails may be passed over. -/
inductive CleanupStep where
  | operation (op : Operation)
  | jobs (component : String) (lenient : Bool)
  | retainRedis
  | previews
  deriving DecidableEq

/-- `cleanup`, `reconciler.rs:949–1098`, in source order. -/
def cleanupSteps (app : Project) : List CleanupStep :=
  [.operation (named .deployment "-redis" .deleteIfExists),
    .operation (named .service "-redis" .deleteIfExists),
    .operation (named .deployment "-worker" .deleteIfExists),
    .operation (named .networkPolicy "-deny-all" .deleteIfExists),
    .operation (named .networkPolicy "-allow-ingress" .deleteIfExists),
    .operation (named .networkPolicy "-allow-egress" .deleteIfExists),
    .operation (named .limitRange "-limits" .deleteIfExists),
    .operation (named .service "-grpc" .deleteIfExists),
    .operation (named .serviceAccount "-storage" .deleteServiceAccount),
    .operation (named .serviceAccount "-app" .deleteServiceAccount),
    .operation (named .configMap "-locales" .deleteIfExists),
    .jobs "build" true,
    .operation (named .ingress "" .deleteIfExists),
    .operation (named .horizontalPodAutoscaler "" .deleteIfExists),
    .jobs "migration" false] ++
  (match app.spec.deletionPolicy with
    | .retain => [.retainRedis]
    | .delete =>
      [.operation (named .secret "-jwt-secret" .delete),
        .operation (named .secret "-db-credentials" .delete),
        .operation (named .secret "-redis-credentials" .deleteRedisIfManaged),
        .operation (named .secret "-smtp-credentials" .delete),
        .operation (named .secret "-git-credentials" .deleteGitIfManaged),
        .operation (named .secret "-github-git-credentials" .deleteGitIfManaged),
        .operation (named .statefulSet "-postgresql" .deleteIfExists),
        .operation (named .service "-postgresql" .deleteIfExists)]) ++
  if previewsEnabled app then [.previews] else []

/-- The operations among the steps are those of `cleanupOperations`. -/
theorem operation_mem_cleanupSteps {app : Project} {op : Operation} :
    .operation op ∈ cleanupSteps app ↔ op ∈ cleanupOperations app := by
  cases hpolicy : app.spec.deletionPolicy with
  | retain =>
    by_cases hpreviews : previewsEnabled app = true <;>
      simp [cleanupSteps, cleanupOperations, hpolicy, hpreviews, onlyIf]
  | delete =>
    by_cases hpreviews : previewsEnabled app = true <;>
      simp [cleanupSteps, cleanupOperations, hpolicy, hpreviews, onlyIf]

/-- A delete of the access whose error is discarded. -/
def Access.lenient : Access → Bool
  | .delete | .deleteRedisIfManaged | .deleteGitIfManaged => true
  | _ => false

/-- The UID that the access puts into the preconditions of its delete. -/
def Access.precondition (access : Access) (o : Object) : Option Uid :=
  match access, o with
  | .deleteRedisIfManaged, .secret secret => secret.uid
  | _, _ => none

/-- The UID of a stored object, as far as a precondition reads it. -/
def Object.uid : Object → Option Uid
  | .secret s => s.uid
  | .resource _ _ => none

/-- The next request of a cleanup, and the steps behind it. -/
inductive CleanupPhase where
  /-- The first request of the next step; without one the finalizer is removed. -/
  | steps (todo : List CleanupStep)
  | delete (op : Operation) (uid : Option Uid) (todo : List CleanupStep)
  | deleteJob (name : String) (names : List String) (lenient : Bool) (todo : List CleanupStep)
  | patch (secret : Secret) (todo : List CleanupStep)
  | previews (program : Previews.PreviewProgram Unit) (todo : List CleanupStep)

/-- A cleanup that is under way. -/
structure CleanupRun where
  app : Project
  phase : CleanupPhase

/-- The namespace, the preview namespaces, the Project's finalizer and its cleanup. `refused` and
`refusedJobs` are the objects and Jobs whose delete the last cleanup passed over: history only, no
step reads them. -/
structure Teardown where
  cluster : Cluster
  jobs : JobStore
  previews : Previews.PreviewCluster
  finalizer : Bool
  run : Option CleanupRun
  refused : List Operation
  refusedJobs : List String

/-- What happens next: a reconcile of the deleted Project starts its cleanup, the next request of
the cleanup is answered or fails, or others change the namespace or the previews. -/
inductive TeardownAction where
  | start (app : Project)
  | request (answered : Bool)
  | others (cluster : Cluster) (jobs : JobStore) (previews : Previews.PreviewCluster)

namespace Teardown

/-- A deleted Project in a namespace. -/
def init (cluster : Cluster) (jobs : JobStore) (previews : Previews.PreviewCluster) : Teardown :=
  ⟨cluster, jobs, previews, true, none, [], []⟩

variable (sha256 : List UInt8 → List UInt8) (lifecycle : Bool) (ns : String) (s : Teardown)

/-- The cleanup goes on in a phase. -/
def goOn (app : Project) (phase : CleanupPhase) : Teardown := { s with run := some ⟨app, phase⟩ }

/-- The cleanup has ended with an error. -/
def stop : Teardown := { s with run := none }

/-- A delete fails; `let _ =` passes over it. -/
def refuse (app : Project) (op : Operation) (todo : List CleanupStep) : Teardown :=
  if op.access.lenient then { s with refused := op :: s.refused }.goOn app (.steps todo) else s.stop

/-- The delete request of an operation. An absent object is `NotFound`, and a precondition that
does not hold is `Conflict`. -/
def deleteObject (app : Project) (op : Operation) (uid : Option Uid) (todo : List CleanupStep)
    (answered : Bool) : Teardown :=
  if answered then
    match s.cluster.object op.kind (op.name.resolve app.name) with
    | none => if op.access.lenient then s.goOn app (.steps todo) else s.stop
    | some o =>
      if uid.isNone ∨ uid = o.uid then
        { s with cluster := s.cluster.erase op.kind (op.name.resolve app.name) }.goOn app
          (.steps todo)
      else s.refuse app op todo
  else s.refuse app op todo

/-- The first request of an operation: all but a plain delete look at the object first. -/
def startOperation (app : Project) (op : Operation) (todo : List CleanupStep) (answered : Bool) :
    Teardown :=
  if op.access = .delete then s.deleteObject app op none todo answered
  else if answered then
    match s.cluster.object op.kind (op.name.resolve app.name) with
    | none => s.goOn app (.steps todo)
    | some o =>
      if op.onExisting sha256 app s.cluster o = .issue then
        s.goOn app (.delete op (op.access.precondition o) todo)
      else s.goOn app (.steps todo)
  else s.stop

/-- The Jobs that are left to delete. -/
def jobsPhase (names : List String) (lenient : Bool) (todo : List CleanupStep) : CleanupPhase :=
  match names with
  | [] => .steps todo
  | name :: names => .deleteJob name names lenient todo

/-- The delete request of a Job. -/
def deleteJob (app : Project) (name : String) (names : List String) (lenient : Bool)
    (todo : List CleanupStep) (answered : Bool) : Teardown :=
  if answered ∧ name ∈ s.jobs.jobs.map (·.name) then
    { s with jobs := s.jobs.erase name }.goOn app (jobsPhase names lenient todo)
  else if lenient then
    { s with refusedJobs := name :: s.refusedJobs }.goOn app (jobsPhase names lenient todo)
  else s.stop

/-- The first request of `retain_redis_credentials_secret`. -/
def startRetain (app : Project) (todo : List CleanupStep) (answered : Bool) : Teardown :=
  if answered then
    match s.cluster.object .secret (app.name ++ "-redis-credentials") with
    | some (.secret secret) =>
      if (redisCredentialsSecretProvenance sha256 secret app).isNone ∨
          (retainedOwnersPatch app secret).isNone ∧ (secretLabelsPatch app secret).isNone then
        s.goOn app (.steps todo)
      else if secret.resourceVersion.isNone then s.stop
      else s.goOn app (.patch secret todo)
    | _ => s.goOn app (.steps todo)
  else s.stop

/-- Its patch, which the API server refuses when the Secret is not the version that was read. -/
def patchRedis (app : Project) (secret : Secret) (todo : List CleanupStep) (answered : Bool) :
    Teardown :=
  if hstored : answered = true ∧ s.cluster.object .secret (app.name ++ "-redis-credentials") =
      some (.secret secret) then
    { s with cluster := s.cluster.patchSecret app _ secret hstored.2 }.goOn app (.steps todo)
  else s.stop

/-- The preview part goes on, or has ended. -/
def goOnPreviews (app : Project) (program : Previews.PreviewProgram Unit)
    (todo : List CleanupStep) : Teardown :=
  match program with
  | .done (.ok _) => s.goOn app (.steps todo)
  | .done (.error _) => s.stop
  | .call c next => s.goOn app (.previews (.call c next) todo)

/-- The next request of the preview part. -/
def servePreviews (app : Project) (program : Previews.PreviewProgram Unit)
    (todo : List CleanupStep) (answered : Bool) : Teardown :=
  match program with
  | .done result => s.goOnPreviews app (.done result) todo
  | .call c next =>
    let served := Previews.serve s.previews ⟨[], !answered⟩ c
    { s with previews := served.1 }.goOnPreviews app (next served.2) todo

/-- The next request of a cleanup; `lifecycle` is the operator's `manage_namespace_lifecycle`, `ns`
the namespace. -/
def request (run : CleanupRun) (answered : Bool) : Teardown :=
  match run.phase with
  | .steps [] => if answered then { s with finalizer := false, run := none } else s.stop
  | .steps (.operation op :: todo) => s.startOperation sha256 run.app op todo answered
  | .steps (.jobs component lenient :: todo) =>
    if answered then
      s.goOn run.app (jobsPhase
        ((s.jobs.jobs.filter (·.isOf run.app.name component)).map (·.name)) lenient todo)
    else s.stop
  | .steps (.retainRedis :: todo) => s.startRetain sha256 run.app todo answered
  | .steps (.previews :: todo) =>
    s.servePreviews run.app (Previews.cleanupPreviews lifecycle ns run.app) todo answered
  | .delete op uid todo => s.deleteObject run.app op uid todo answered
  | .deleteJob name names lenient todo => s.deleteJob run.app name names lenient todo answered
  | .patch secret todo => s.patchRedis run.app secret todo answered
  | .previews program todo => s.servePreviews run.app program todo answered

/-- One step. A cleanup starts as long as the finalizer is there, wherever an earlier one is. -/
def step (s : Teardown) : TeardownAction → Option Teardown
  | .start app =>
    if s.finalizer then
      some { s with run := some ⟨app, .steps (cleanupSteps app)⟩, refused := [], refusedJobs := [] }
    else none
  | .request answered => s.run.map fun run ↦ s.request sha256 lifecycle ns run answered
  | .others cluster jobs previews =>
    some { s with cluster := cluster, jobs := jobs, previews := previews }

end Teardown

variable {sha256 : List UInt8 → List UInt8} {lifecycle : Bool} {ns : String} {app : Project}

/-! ## What the steps of `cleanup` are -/

/-- What `cleanup` checks of an object does not depend on other objects. -/
theorem onExisting_congr {op : Operation} (h : .operation op ∈ cleanupSteps app) (c d : Cluster)
    (o : Object) : op.onExisting sha256 app c o = op.onExisting sha256 app d o := by
  obtain ⟨kind, name, access⟩ := op
  cases access with
  | rollIfControlled =>
    rw [operation_mem_cleanupSteps, cleanupOperations, List.mem_append] at h
    rcases h with h | h
    · simp [named] at h
    · rw [onlyIf] at h
      split at h
      · simp [named] at h
      · cases h
  | _ => rfl

/-- Under `Retain` no Secret and no StatefulSet is an object of an operation. -/
theorem kind_of_retain (hretain : app.spec.deletionPolicy = .retain) {op : Operation}
    (h : op ∈ cleanupOperations app) : op.kind ≠ .secret ∧ op.kind ≠ .statefulSet := by
  rw [cleanupOperations, hretain, onlyIf, if_neg (by decide), List.append_nil] at h
  simp only [named, List.mem_cons, List.not_mem_nil, or_false] at h
  rcases h with rfl | rfl | rfl | rfl | rfl | rfl | rfl | rfl | rfl | rfl | rfl | rfl | rfl <;>
    decide

/-- Only under `Retain` the Redis Secret is kept. -/
theorem retain_of_mem (h : .retainRedis ∈ cleanupSteps app) :
    app.spec.deletionPolicy = .retain := by
  cases hpolicy : app.spec.deletionPolicy with
  | retain => rfl
  | delete =>
    by_cases hpreviews : previewsEnabled app = true <;>
      simp [cleanupSteps, hpolicy, hpreviews] at h

/-- Only with previews enabled there is a preview part. -/
theorem previewsEnabled_of_mem (h : .previews ∈ cleanupSteps app) : previewsEnabled app = true := by
  by_contra hpreviews
  cases hpolicy : app.spec.deletionPolicy <;> simp [cleanupSteps, hpolicy, hpreviews] at h

/-- The Jobs are those of the builds, whose delete may fail, and of the migrations. -/
theorem jobs_of_mem {component : String} {lenient : Bool}
    (h : .jobs component lenient ∈ cleanupSteps app) :
    component = "build" ∧ lenient = true ∨ component = "migration" ∧ lenient = false := by
  cases hpolicy : app.spec.deletionPolicy <;>
    by_cases hpreviews : previewsEnabled app = true <;>
      simpa [cleanupSteps, hpolicy, hpreviews] using h

/-! ## What a request does -/

namespace Teardown

variable {s t : Teardown} {quiet : Prop}
  {earlier earlier' : List (Transition Teardown TeardownAction)}

@[simp] theorem object_erase (c : Cluster) (kind kind' : ObjectKind) (name name' : String) :
    (c.erase kind name).object kind' name' =
      if kind' = kind ∧ name' = name then none else c.object kind' name' := rfl

/-- An earlier request was answered from a namespace with the object under the name. -/
def FoundBefore (earlier : List (Transition Teardown TeardownAction)) (kind : ObjectKind)
    (name : String) (o : Object) : Prop :=
  ∃ y ∈ earlier, y.action = .request true ∧ y.before.cluster.object kind name = some o

/-- An earlier request listed a Job of the component under the name. -/
def ListedBefore (earlier : List (Transition Teardown TeardownAction))
    (projectName component name : String) : Prop :=
  ∃ y ∈ earlier, y.action = .request true ∧ ∃ job ∈ y.before.jobs.jobs, job.name = name ∧
    job.isOf projectName component = true

/-- The phase of a cleanup fits its steps and what earlier requests have read; in a quiet run that
still holds. -/
def Sound (sha256 : List UInt8 → List UInt8) (ns : String) (quiet : Prop)
    (earlier : List (Transition Teardown TeardownAction)) (s : Teardown) (run : CleanupRun) :
    Prop :=
  match run.phase with
  | .steps todo => todo <:+ cleanupSteps run.app
  | .delete op uid todo => .operation op :: todo <:+ cleanupSteps run.app ∧
      ∃ o, op.onExisting sha256 run.app s.cluster o = .issue ∧ uid = op.access.precondition o ∧
        FoundBefore earlier op.kind (op.name.resolve run.app.name) o ∧
        (quiet → s.cluster.object op.kind (op.name.resolve run.app.name) = some o)
  | .deleteJob name names lenient todo => ∃ component,
      .jobs component lenient :: todo <:+ cleanupSteps run.app ∧
      (∀ listed ∈ name :: names, ListedBefore earlier run.app.name component listed) ∧
      (quiet → ∀ job ∈ s.jobs.jobs,
        job.name ∈ name :: names → job.isOf run.app.name component = true)
  | .patch secret todo => .retainRedis :: todo <:+ cleanupSteps run.app ∧
      (redisCredentialsSecretProvenance sha256 secret run.app).isSome
  | .previews program todo => .previews :: todo <:+ cleanupSteps run.app ∧
      program.Only (Previews.Call.Cleans (Previews.previewNamespaceName ns run.app.name))

/-- What a request may do, for a Project, after the earlier transitions of the run. -/
structure Confined (sha256 : List UInt8 → List UInt8) (ns : String) (quiet : Prop)
    (earlier : List (Transition Teardown TeardownAction)) (app : Project) (s t : Teardown) :
    Prop where
  absent : ∀ kind name, s.cluster.object kind name = none → t.cluster.object kind name = none
  object : ∀ kind name o, s.cluster.object kind name = some o →
    t.cluster.object kind name = some o ∨
    (t.cluster.object kind name = none ∧ ∃ op ∈ cleanupOperations app, op.kind = kind ∧
      op.name.resolve app.name = name ∧
      (op.access ≠ .delete → ∃ found, FoundBefore earlier kind name found ∧
        op.onExisting sha256 app s.cluster found = .issue) ∧
      (op.access = .deleteRedisIfManaged → ∃ secret,
        FoundBefore earlier kind name (.secret secret) ∧
        (redisCredentialsSecretProvenance sha256 secret app).isSome ∧ o.uid = secret.uid) ∧
      (quiet → op.onExisting sha256 app s.cluster o = .issue)) ∨
    (app.spec.deletionPolicy = .retain ∧ kind = .secret ∧
      name = app.name ++ "-redis-credentials" ∧ ∃ secret, o = .secret secret ∧
      (redisCredentialsSecretProvenance sha256 secret app).isSome ∧
      t.cluster.object kind name = some (.secret (patchedSecret app secret)))
  newJob : ∀ job ∈ t.jobs.jobs, job ∈ s.jobs.jobs
  job : ∀ job ∈ s.jobs.jobs, job ∈ t.jobs.jobs ∨ ∃ component,
    (component = "build" ∨ component = "migration") ∧
    ListedBefore earlier app.name component job.name ∧
    (quiet → job.isOf app.name component = true)
  previews : t.previews = s.previews ∨ previewsEnabled app = true ∧ Previews.OnlyDeletes
    (Previews.previewNamespaceName ns app.name) s.previews t.previews

/-- A request that leaves the namespace. -/
theorem Confined.of_cluster (hcluster : t.cluster = s.cluster) (hjobs : t.jobs = s.jobs)
    (hpreviews : t.previews = s.previews ∨ previewsEnabled app = true ∧ Previews.OnlyDeletes
      (Previews.previewNamespaceName ns app.name) s.previews t.previews) :
    Confined sha256 ns quiet earlier app s t where
  absent kind name h := by rw [hcluster, h]
  object kind name o h := .inl (by rw [hcluster, h])
  newJob job h := hjobs ▸ h
  job job h := .inl (hjobs ▸ h)
  previews := hpreviews

/-- A request that leaves everything as it is. -/
theorem Confined.of_same (hcluster : t.cluster = s.cluster) (hjobs : t.jobs = s.jobs)
    (hpreviews : t.previews = s.previews) : Confined sha256 ns quiet earlier app s t :=
  .of_cluster hcluster hjobs (.inl hpreviews)

/-- The ways a delete request can end. -/
theorem deleteObject_cases (op : Operation) (uid : Option Uid) (todo : List CleanupStep)
    (answered : Bool) :
    (∃ o, s.cluster.object op.kind (op.name.resolve app.name) = some o ∧
      (uid.isNone ∨ uid = o.uid) ∧ s.deleteObject app op uid todo answered =
        { s with cluster := s.cluster.erase op.kind (op.name.resolve app.name) }.goOn app
          (.steps todo)) ∨
    (s.cluster.object op.kind (op.name.resolve app.name) = none ∧
      s.deleteObject app op uid todo answered = s.goOn app (.steps todo)) ∨
    (op.access.lenient = true ∧ s.deleteObject app op uid todo answered =
      { s with refused := op :: s.refused }.goOn app (.steps todo)) ∨
    s.deleteObject app op uid todo answered = s.stop := by
  have hrefuse : (op.access.lenient = true ∧ s.refuse app op todo =
        { s with refused := op :: s.refused }.goOn app (.steps todo)) ∨
      s.refuse app op todo = s.stop := by
    rw [refuse]
    split
    · next hlenient => exact .inl ⟨hlenient, rfl⟩
    · exact .inr rfl
  rw [deleteObject]
  cases answered with
  | false => exact .inr (.inr hrefuse)
  | true =>
    rw [if_pos rfl]
    cases hobject : s.cluster.object op.kind (op.name.resolve app.name) with
    | none =>
      by_cases hlenient : op.access.lenient = true
      · exact .inr (.inl ⟨rfl, if_pos hlenient⟩)
      · exact .inr (.inr (.inr (if_neg hlenient)))
    | some o =>
      by_cases huid : uid.isNone ∨ uid = o.uid
      · exact .inl ⟨o, rfl, huid, if_pos huid⟩
      · refine .inr (.inr ?_)
        show (_ ∧ (if uid.isNone ∨ uid = o.uid then _ else s.refuse app op todo) = _) ∨
          (if uid.isNone ∨ uid = o.uid then _ else s.refuse app op todo) = _
        rw [if_neg huid]
        exact hrefuse

/-- A provenance names the Secret's UID. -/
theorem uid_of_provenance {secret : Secret}
    (h : (redisCredentialsSecretProvenance sha256 secret app).isSome) : secret.uid.isSome := by
  cases huid : secret.uid with
  | some uid => rfl
  | none =>
    rw [redisCredentialsSecretProvenance, huid] at h
    cases h

/-- What an admitted Redis Secret is. -/
theorem secret_of_issue {op : Operation} {c : Cluster} {o : Object}
    (haccess : op.access = .deleteRedisIfManaged)
    (hissue : op.onExisting sha256 app c o = .issue) : ∃ secret, o = .secret secret ∧
      (redisCredentialsSecretProvenance sha256 secret app).isSome ∧
      op.access.precondition o = secret.uid := by
  obtain ⟨kind, name, access⟩ := op
  obtain rfl : access = .deleteRedisIfManaged := haccess
  cases o with
  | secret secret =>
    have hverdict : (if (redisCredentialsSecretProvenance sha256 secret app).isSome then
        Verdict.issue else .skip) = .issue := hissue
    refine ⟨secret, rfl, ?_, rfl⟩
    by_contra hnone
    rw [if_neg hnone] at hverdict
    cases hverdict
  | resource owners revision => cases hissue

/-- A delete under the UID of what was admitted, if it has a precondition. -/
theorem confined_deleteObject {op : Operation} {uid : Option Uid} {todo : List CleanupStep}
    {answered : Bool} (hmem : op ∈ cleanupOperations app)
    (hread : op.access ≠ .delete → ∃ found,
      FoundBefore earlier op.kind (op.name.resolve app.name) found ∧
        op.onExisting sha256 app s.cluster found = .issue ∧ uid = op.access.precondition found)
    (hquiet : quiet → ∀ o, s.cluster.object op.kind (op.name.resolve app.name) = some o →
      op.onExisting sha256 app s.cluster o = .issue) :
    Confined sha256 ns quiet earlier app s (s.deleteObject app op uid todo answered) := by
  rcases @deleteObject_cases app s op uid todo answered with
    ⟨o, hobject, huid, heq⟩ | ⟨-, heq⟩ | ⟨-, heq⟩ | heq
  · rw [heq]
    refine ⟨?_, ?_, fun _ h ↦ h, fun _ h ↦ .inl h, .inl rfl⟩
    · intro kind name hnone
      show (s.cluster.erase _ _).object kind name = none
      rw [object_erase, hnone, ite_self]
    · intro kind name o' ho'
      by_cases hsame : kind = op.kind ∧ name = op.name.resolve app.name
      · obtain ⟨rfl, rfl⟩ := hsame
        rw [hobject] at ho'
        obtain rfl := Option.some.inj ho'
        refine .inr (.inl ⟨if_pos ⟨rfl, rfl⟩, op, hmem, rfl, rfl, ?_, ?_,
          fun hq ↦ hquiet hq o hobject⟩)
        · intro haccess
          obtain ⟨found, hfound, hissue, -⟩ := hread haccess
          exact ⟨found, hfound, hissue⟩
        intro haccess
        obtain ⟨found, hfound, hissue, rfl⟩ := hread (by rw [haccess]; decide)
        obtain ⟨secret, rfl, hprovenance, hprecondition⟩ := secret_of_issue haccess hissue
        rw [hprecondition] at huid
        refine ⟨secret, hfound, hprovenance, ?_⟩
        rcases huid with hnone | hsame
        · have hsome := uid_of_provenance hprovenance
          rw [Option.isNone_iff_eq_none.mp hnone] at hsome
          cases hsome
        · exact hsame.symm
      · exact .inl ((if_neg hsame).trans ho')
  · rw [heq]
    exact .of_same rfl rfl rfl
  · rw [heq]
    exact .of_same rfl rfl rfl
  · rw [heq]
    exact .of_same rfl rfl rfl

/-- A plain delete is always admitted. -/
theorem onExisting_delete {op : Operation} {c : Cluster} {o : Object}
    (haccess : op.access = .delete) : op.onExisting sha256 app c o = .issue := by
  obtain ⟨kind, name, access⟩ := op
  obtain rfl : access = .delete := haccess
  rfl

theorem confined_deleteJob {name component : String}
    (hcomponent : component = "build" ∨ component = "migration")
    (hlisted : ListedBefore earlier app.name component name)
    (hquiet : quiet → ∀ job ∈ s.jobs.jobs, job.name = name → job.isOf app.name component = true)
    (names : List String) (lenient : Bool) (todo : List CleanupStep) (answered : Bool) :
    Confined sha256 ns quiet earlier app s (s.deleteJob app name names lenient todo answered) := by
  rw [deleteJob]
  split
  · refine ⟨fun _ _ h ↦ h, fun _ _ _ h ↦ .inl h, fun job h ↦ (List.mem_filter.mp h).1, ?_, .inl rfl⟩
    intro job hjob
    by_cases hname : job.name = name
    · subst hname
      exact .inr ⟨component, hcomponent, hlisted, fun hq ↦ hquiet hq job hjob rfl⟩
    · exact .inl (List.mem_filter.mpr ⟨hjob, decide_eq_true hname⟩)
  · split
    · exact .of_same rfl rfl rfl
    · exact .of_same rfl rfl rfl

theorem confined_patchRedis {secret : Secret} {todo : List CleanupStep} {answered : Bool}
    (hretain : app.spec.deletionPolicy = .retain)
    (hprovenance : (redisCredentialsSecretProvenance sha256 secret app).isSome) :
    Confined sha256 ns quiet earlier app s (s.patchRedis app secret todo answered) := by
  rw [patchRedis]
  split
  · next hstored =>
    refine ⟨?_, ?_, fun _ h ↦ h, fun _ h ↦ .inl h, .inl rfl⟩
    · intro kind name hnone
      have hother : ¬ (kind = .secret ∧ name = app.name ++ "-redis-credentials") := by
        rintro ⟨rfl, rfl⟩
        rw [hstored.2] at hnone
        cases hnone
      exact (if_neg hother).trans hnone
    · intro kind name o ho
      by_cases hsame : kind = .secret ∧ name = app.name ++ "-redis-credentials"
      · obtain ⟨rfl, rfl⟩ := hsame
        rw [hstored.2] at ho
        exact .inr (.inr ⟨hretain, rfl, rfl, secret, (Option.some.inj ho).symm, hprovenance,
          if_pos ⟨rfl, rfl⟩⟩)
      · exact .inl ((if_neg hsame).trans ho)
  · exact .of_same rfl rfl rfl

section

variable (program : Previews.PreviewProgram Unit) (todo : List CleanupStep)

theorem goOnPreviews_cases : s.goOnPreviews app program todo = s.goOn app (.steps todo) ∨
    s.goOnPreviews app program todo = s.stop ∨
    s.goOnPreviews app program todo = s.goOn app (.previews program todo) := by
  cases program with
  | done result =>
    cases result with
    | ok _ => exact .inl rfl
    | error _ => exact .inr (.inl rfl)
  | call c next => exact .inr (.inr rfl)

@[simp] theorem cluster_goOnPreviews : (s.goOnPreviews app program todo).cluster = s.cluster := by
  rcases @goOnPreviews_cases app s program todo with h | h | h <;> rw [h] <;> rfl

@[simp] theorem jobs_goOnPreviews : (s.goOnPreviews app program todo).jobs = s.jobs := by
  rcases @goOnPreviews_cases app s program todo with h | h | h <;> rw [h] <;> rfl

@[simp] theorem previews_goOnPreviews :
    (s.goOnPreviews app program todo).previews = s.previews := by
  rcases @goOnPreviews_cases app s program todo with h | h | h <;> rw [h] <;> rfl

@[simp] theorem refused_goOnPreviews :
    (s.goOnPreviews app program todo).refused = s.refused := by
  rcases @goOnPreviews_cases app s program todo with h | h | h <;> rw [h] <;> rfl

@[simp] theorem refusedJobs_goOnPreviews :
    (s.goOnPreviews app program todo).refusedJobs = s.refusedJobs := by
  rcases @goOnPreviews_cases app s program todo with h | h | h <;> rw [h] <;> rfl

@[simp] theorem finalizer_goOnPreviews :
    (s.goOnPreviews app program todo).finalizer = s.finalizer := by
  rcases @goOnPreviews_cases app s program todo with h | h | h <;> rw [h] <;> rfl

end

theorem confined_servePreviews {program : Previews.PreviewProgram Unit} {todo : List CleanupStep}
    (hmem : .previews ∈ cleanupSteps app)
    (honly : program.Only (Previews.Call.Cleans (Previews.previewNamespaceName ns app.name)))
    (answered : Bool) :
    Confined sha256 ns quiet earlier app s (s.servePreviews app program todo answered) := by
  cases program with
  | done result =>
    exact .of_same (cluster_goOnPreviews _ _) (jobs_goOnPreviews _ _) (previews_goOnPreviews _ _)
  | call c next =>
    refine .of_cluster (cluster_goOnPreviews _ _) (jobs_goOnPreviews _ _)
      (.inr ⟨previewsEnabled_of_mem hmem, ?_⟩)
    rw [servePreviews, previews_goOnPreviews]
    exact honly.1.onlyDeletes (!answered)

theorem confined_startOperation {op : Operation} {todo : List CleanupStep}
    (hmem : .operation op ∈ cleanupSteps app) (answered : Bool) :
    Confined sha256 ns quiet earlier app s (s.startOperation sha256 app op todo answered) := by
  rw [startOperation]
  split
  · next haccess =>
    refine confined_deleteObject (operation_mem_cleanupSteps.mp hmem) ?_ ?_
    · exact fun hne ↦ absurd haccess hne
    · exact fun _ _ _ ↦ onExisting_delete haccess
  · split
    · split
      · exact .of_same rfl rfl rfl
      · split
        · exact .of_same rfl rfl rfl
        · exact .of_same rfl rfl rfl
    · exact .of_same rfl rfl rfl

theorem confined_startRetain {todo : List CleanupStep} (answered : Bool) :
    Confined sha256 ns quiet earlier app s (s.startRetain sha256 app todo answered) := by
  rw [startRetain]
  split
  · split
    · split
      · exact .of_same rfl rfl rfl
      · split
        · exact .of_same rfl rfl rfl
        · exact .of_same rfl rfl rfl
    · exact .of_same rfl rfl rfl
  · exact .of_same rfl rfl rfl

/-- Whatever a sound cleanup requests is confined. -/
theorem Sound.confined {run : CleanupRun} (h : s.Sound sha256 ns quiet earlier run)
    (lifecycle answered : Bool) : Confined sha256 ns quiet earlier run.app s
      (s.request sha256 lifecycle ns run answered) := by
  obtain ⟨app, phase⟩ := run
  cases phase with
  | steps todo =>
    cases todo with
    | nil =>
      show Confined sha256 ns quiet earlier app s (if answered then _ else _)
      split
      · exact .of_same rfl rfl rfl
      · exact .of_same rfl rfl rfl
    | cons first todo =>
      have hmem : first ∈ cleanupSteps app := h.subset List.mem_cons_self
      cases first with
      | operation op => exact confined_startOperation hmem answered
      | jobs component lenient =>
        show Confined sha256 ns quiet earlier app s (if answered then _ else _)
        split
        · exact .of_same rfl rfl rfl
        · exact .of_same rfl rfl rfl
      | retainRedis => exact confined_startRetain answered
      | previews => exact confined_servePreviews hmem Previews.only_cleanupPreviews answered
  | delete op uid todo =>
    obtain ⟨hsuffix, o, hissue, huid, hfound, hquiet⟩ := h
    have hmem := hsuffix.subset List.mem_cons_self
    refine confined_deleteObject (operation_mem_cleanupSteps.mp hmem) ?_ ?_
    · exact fun _ ↦ ⟨o, hfound, hissue, huid⟩
    · intro hq o' ho'
      rw [hquiet hq] at ho'
      obtain rfl := Option.some.inj ho'
      exact hissue
  | deleteJob name names lenient todo =>
    obtain ⟨component, hsuffix, hlisted, hjobs⟩ := h
    have hcomponent : component = "build" ∨ component = "migration" :=
      (jobs_of_mem (hsuffix.subset List.mem_cons_self)).imp And.left And.left
    refine confined_deleteJob hcomponent (hlisted name List.mem_cons_self) ?_ names lenient todo
      answered
    intro hq job hjob hname
    exact hjobs hq job hjob (hname ▸ List.mem_cons_self)
  | patch secret todo =>
    obtain ⟨hsuffix, hprovenance⟩ := h
    exact confined_patchRedis (retain_of_mem (hsuffix.subset List.mem_cons_self)) hprovenance
  | previews program todo =>
    exact confined_servePreviews (h.1.subset List.mem_cons_self) h.2 answered

/-- The cleanup under way, if there is one, is of the Project and fits. -/
def WellSound (sha256 : List UInt8 → List UInt8) (ns : String) (quiet : Prop)
    (earlier : List (Transition Teardown TeardownAction)) (app : Project) (s : Teardown) : Prop :=
  ∀ run, s.run = some run → run.app = app ∧ s.Sound sha256 ns quiet earlier run

theorem wellSound_stop : s.stop.WellSound sha256 ns quiet earlier app := fun _ h ↦ by cases h

theorem wellSound_goOn {phase : CleanupPhase} (h : s.Sound sha256 ns quiet earlier ⟨app, phase⟩) :
    (s.goOn app phase).WellSound sha256 ns quiet earlier app := by
  intro run hrun
  obtain rfl := Option.some.inj hrun
  exact ⟨rfl, h⟩

theorem wellSound_deleteObject {op : Operation} {uid : Option Uid} {todo : List CleanupStep}
    {answered : Bool} (h : todo <:+ cleanupSteps app) :
    (s.deleteObject app op uid todo answered).WellSound sha256 ns quiet earlier app := by
  rcases @deleteObject_cases app s op uid todo answered with ⟨o, -, -, heq⟩ | ⟨-, heq⟩ | ⟨-, heq⟩ |
    heq
  · rw [heq]
    exact wellSound_goOn h
  · rw [heq]
    exact wellSound_goOn h
  · rw [heq]
    exact wellSound_goOn h
  · rw [heq]
    exact wellSound_stop

/-- The Jobs that are left belong to the component, or there is none left. -/
theorem sound_jobsPhase {component : String} {lenient : Bool} {names : List String}
    {todo : List CleanupStep} (h : .jobs component lenient :: todo <:+ cleanupSteps app)
    (hlisted : ∀ name ∈ names, ListedBefore earlier app.name component name)
    (hjobs : quiet → ∀ job ∈ s.jobs.jobs, job.name ∈ names → job.isOf app.name component = true) :
    s.Sound sha256 ns quiet earlier ⟨app, jobsPhase names lenient todo⟩ := by
  cases names with
  | nil => exact (List.suffix_cons _ _).trans h
  | cons name names => exact ⟨component, h, hlisted, hjobs⟩

/-- The phase after a request of the preview part. -/
theorem wellSound_goOnPreviews {program : Previews.PreviewProgram Unit} {todo : List CleanupStep}
    (h : .previews :: todo <:+ cleanupSteps app)
    (honly : program.Only (Previews.Call.Cleans (Previews.previewNamespaceName ns app.name))) :
    (s.goOnPreviews app program todo).WellSound sha256 ns quiet earlier app := by
  cases program with
  | done result =>
    cases result with
    | ok _ => exact wellSound_goOn ((List.suffix_cons _ _).trans h)
    | error _ => exact wellSound_stop
  | call c next => exact wellSound_goOn ⟨h, honly⟩

theorem wellSound_servePreviews {program : Previews.PreviewProgram Unit} {todo : List CleanupStep}
    (h : .previews :: todo <:+ cleanupSteps app)
    (honly : program.Only (Previews.Call.Cleans (Previews.previewNamespaceName ns app.name)))
    (answered : Bool) :
    (s.servePreviews app program todo answered).WellSound sha256 ns quiet earlier app := by
  cases program with
  | done result => exact wellSound_goOnPreviews h honly
  | call c next => exact wellSound_goOnPreviews h (honly.2 _)

/-- A Job whose name a listing has is the one that it listed. -/
theorem isOf_of_mem_names {component projectName : String} {job : LabelledJob}
    (hjob : job ∈ s.jobs.jobs)
    (hname : job.name ∈ (s.jobs.jobs.filter (·.isOf projectName component)).map (·.name)) :
    job.isOf projectName component = true := by
  obtain ⟨listed, hlisted, heq⟩ := List.mem_map.mp hname
  obtain ⟨hmem, hof⟩ := List.mem_filter.mp hlisted
  rwa [← List.inj_on_of_nodup_map s.jobs.nodup hmem hjob heq]

/-- An operation behind a check has read the object that it goes on to delete. -/
theorem wellSound_startOperation {op : Operation} {todo : List CleanupStep} {answered : Bool}
    (h : .operation op :: todo <:+ cleanupSteps app)
    (hlast : ∃ y ∈ earlier, y.action = .request answered ∧ y.before = s) :
    (s.startOperation sha256 app op todo answered).WellSound sha256 ns quiet earlier app := by
  have htodo : todo <:+ cleanupSteps app := (List.suffix_cons _ _).trans h
  rw [startOperation]
  split
  · exact wellSound_deleteObject htodo
  · split
    · next hanswered =>
      split
      · exact wellSound_goOn htodo
      · next o hobject =>
        split
        · next hissue =>
          obtain ⟨y, hy, haction, rfl⟩ := hlast
          rw [hanswered] at haction
          exact wellSound_goOn ⟨h, o, hissue, rfl, ⟨y, hy, haction, hobject⟩, fun _ ↦ hobject⟩
        · exact wellSound_goOn htodo
    · exact wellSound_stop

/-- The Jobs that a listing has shown are the ones to delete. -/
theorem sound_listed {component : String} {lenient : Bool} {todo : List CleanupStep}
    (h : .jobs component lenient :: todo <:+ cleanupSteps app)
    (hlast : ∃ y ∈ earlier, y.action = .request true ∧ y.before = s) :
    s.Sound sha256 ns quiet earlier ⟨app, jobsPhase
      ((s.jobs.jobs.filter (·.isOf app.name component)).map (·.name)) lenient todo⟩ := by
  refine sound_jobsPhase h ?_ fun _ _ hjob hname ↦ isOf_of_mem_names hjob hname
  intro name hname
  obtain ⟨y, hy, haction, rfl⟩ := hlast
  obtain ⟨job, hjob, rfl⟩ := List.mem_map.mp hname
  obtain ⟨hjob, hof⟩ := List.mem_filter.mp hjob
  exact ⟨y, hy, haction, job, hjob, rfl, hof⟩

theorem wellSound_startRetain {todo : List CleanupStep}
    (h : .retainRedis :: todo <:+ cleanupSteps app) (answered : Bool) :
    (s.startRetain sha256 app todo answered).WellSound sha256 ns quiet earlier app := by
  have htodo : todo <:+ cleanupSteps app := (List.suffix_cons _ _).trans h
  rw [startRetain]
  split
  · split
    · next secret hobject =>
      split
      · exact wellSound_goOn htodo
      · next hneeded =>
        split
        · exact wellSound_stop
        · have hprovenance : (redisCredentialsSecretProvenance sha256 secret app).isSome := by
            rw [← Option.not_isNone, Bool.not_eq_true']
            exact Bool.eq_false_of_not_eq_true fun hnone ↦ hneeded (.inl hnone)
          exact wellSound_goOn ⟨h, hprovenance⟩
    · exact wellSound_goOn htodo
  · exact wellSound_stop

/-- A Job that is gone, or whose delete was refused, leaves the others to delete. -/
theorem wellSound_deleteJob {name : String} {names : List String} {lenient : Bool}
    {todo : List CleanupStep}
    (h : s.Sound sha256 ns quiet earlier ⟨app, .deleteJob name names lenient todo⟩)
    (answered : Bool) :
    (s.deleteJob app name names lenient todo answered).WellSound sha256 ns quiet earlier app := by
  obtain ⟨component, hsuffix, hlisted, hjobs⟩ := h
  have hlisted' : ∀ listed ∈ names, ListedBefore earlier app.name component listed :=
    fun listed hmem ↦ hlisted listed (List.mem_cons_of_mem _ hmem)
  rw [deleteJob]
  split
  · refine wellSound_goOn (sound_jobsPhase hsuffix hlisted' ?_)
    intro hq job hjob hname
    exact hjobs hq job (List.mem_filter.mp hjob).1 (List.mem_cons_of_mem _ hname)
  · split
    · refine wellSound_goOn (sound_jobsPhase hsuffix hlisted' ?_)
      intro hq job hjob hname
      exact hjobs hq job hjob (List.mem_cons_of_mem _ hname)
    · exact wellSound_stop

theorem wellSound_patchRedis {secret : Secret} {todo : List CleanupStep}
    (h : todo <:+ cleanupSteps app) (answered : Bool) :
    (s.patchRedis app secret todo answered).WellSound sha256 ns quiet earlier app := by
  rw [patchRedis]
  split
  · exact wellSound_goOn h
  · exact wellSound_stop

/-- What a cleanup has read stays read. -/
theorem Sound.later {run : CleanupRun} (h : s.Sound sha256 ns quiet earlier run)
    (hearlier : ∀ y ∈ earlier, y ∈ earlier') : s.Sound sha256 ns quiet earlier' run := by
  obtain ⟨app, phase⟩ := run
  cases phase with
  | steps todo => exact h
  | delete op uid todo =>
    obtain ⟨hsuffix, o, hissue, huid, ⟨y, hy, hread⟩, hobject⟩ := h
    exact ⟨hsuffix, o, hissue, huid, ⟨y, hearlier y hy, hread⟩, hobject⟩
  | deleteJob name names lenient todo =>
    obtain ⟨component, hsuffix, hlisted, hjobs⟩ := h
    refine ⟨component, hsuffix, ?_, hjobs⟩
    intro listed hmem
    obtain ⟨y, hy, hread⟩ := hlisted listed hmem
    exact ⟨y, hearlier y hy, hread⟩
  | patch secret todo => exact h
  | previews program todo => exact h

/-- A request of a sound cleanup leaves a sound cleanup. -/
theorem Sound.request {run : CleanupRun} {answered : Bool}
    (h : s.Sound sha256 ns quiet earlier run)
    (hlast : ∃ y ∈ earlier, y.action = .request answered ∧ y.before = s) (lifecycle : Bool) :
    (s.request sha256 lifecycle ns run answered).WellSound sha256 ns quiet earlier run.app := by
  obtain ⟨app, phase⟩ := run
  cases phase with
  | steps todo =>
    cases todo with
    | nil =>
      show WellSound sha256 ns quiet earlier app (if answered then _ else _)
      split
      · intro run hrun
        cases hrun
      · exact wellSound_stop
    | cons first todo =>
      cases first with
      | operation op => exact wellSound_startOperation h hlast
      | jobs component lenient =>
        show WellSound sha256 ns quiet earlier app (if answered then _ else _)
        split
        · next hanswered => exact wellSound_goOn (sound_listed h (hanswered ▸ hlast))
        · exact wellSound_stop
      | retainRedis => exact wellSound_startRetain h answered
      | previews => exact wellSound_servePreviews h Previews.only_cleanupPreviews answered
  | delete op uid todo => exact wellSound_deleteObject ((List.suffix_cons _ _).trans h.1)
  | deleteJob name names lenient todo => exact wellSound_deleteJob h answered
  | patch secret todo => exact wellSound_patchRedis ((List.suffix_cons _ _).trans h.1) answered
  | previews program todo => exact wellSound_servePreviews h.1 h.2 answered

/-- What others do may break what a cleanup has read, not what it has left to do. -/
theorem Sound.others {run : CleanupRun} (h : s.Sound sha256 ns quiet earlier run)
    (hloud : ¬ quiet) (cluster : Cluster) (jobs : JobStore) (previews : Previews.PreviewCluster) :
    ({ s with cluster := cluster, jobs := jobs, previews := previews } : Teardown).Sound sha256 ns
      quiet earlier run := by
  obtain ⟨app, phase⟩ := run
  cases phase with
  | steps todo => exact h
  | delete op uid todo =>
    obtain ⟨hsuffix, o, hissue, huid, hread, -⟩ := h
    have hissue' : op.onExisting sha256 app cluster o = .issue := by
      rw [← hissue]
      exact onExisting_congr (hsuffix.subset List.mem_cons_self) _ _ o
    exact ⟨hsuffix, o, hissue', huid, hread, fun hq ↦ absurd hq hloud⟩
  | deleteJob name names lenient todo =>
    obtain ⟨component, hsuffix, hlisted, -⟩ := h
    exact ⟨component, hsuffix, hlisted, fun hq ↦ absurd hq hloud⟩
  | patch secret todo => exact h
  | previews program todo => exact h

/-- Only the operator acts in the run. -/
def Quiet (tr : List (Transition Teardown TeardownAction)) : Prop :=
  ∀ x ∈ tr, ∀ cluster jobs previews, x.action ≠ .others cluster jobs previews

/-- After every run the cleanup under way is one that was started, and fits. -/
theorem sound_of_run {cluster : Cluster} {jobs : JobStore} {previews : Previews.PreviewCluster}
    {tr : List (Transition Teardown TeardownAction)}
    (h : Run (step sha256 lifecycle ns) (init cluster jobs previews) tr s)
    (hquiet : quiet → Quiet tr) : ∀ run, s.run = some run →
      (∃ y ∈ tr, y.action = .start run.app) ∧ s.Sound sha256 ns quiet tr run := by
  induction h with
  | nil =>
    intro run hrun
    cases hrun
  | @snoc tr s t a _ ha ih =>
    have hearlier : ∀ y ∈ tr, y ∈ tr ++ [⟨s, a, t⟩] := fun y hy ↦ List.mem_append_left _ hy
    have hlast : (⟨s, a, t⟩ : Transition Teardown TeardownAction) ∈ tr ++ [⟨s, a, t⟩] :=
      List.mem_append_right _ List.mem_cons_self
    have hs := ih fun hq y hy ↦ hquiet hq y (hearlier y hy)
    cases a with
    | start app =>
      obtain ⟨-, heq⟩ := Option.ite_none_right_eq_some.mp ha
      intro run hrun
      rw [← Option.some.inj heq] at hrun
      obtain rfl := Option.some.inj hrun
      exact ⟨⟨_, hlast, rfl⟩, List.suffix_refl _⟩
    | request answered =>
      obtain ⟨run, hrun, heq⟩ := Option.map_eq_some_iff.mp ha
      obtain ⟨⟨y, hy, hstarted⟩, hsound⟩ := hs run hrun
      have hrequested := (hsound.later hearlier).request ⟨_, hlast, rfl, rfl⟩ lifecycle
      rw [heq] at hrequested
      intro run' hrun'
      obtain ⟨happ, hsound'⟩ := hrequested run' hrun'
      exact ⟨⟨y, hearlier y hy, happ ▸ hstarted⟩, hsound'⟩
    | others cluster jobs previews =>
      obtain rfl := Option.some.inj ha
      intro run hrun
      obtain ⟨⟨y, hy, hstarted⟩, hsound⟩ := hs run hrun
      refine ⟨⟨y, hearlier y hy, hstarted⟩, ?_⟩
      exact (hsound.later hearlier).others (fun hq ↦ hquiet hq _ hlast _ _ _ rfl) cluster jobs
        previews

/-- In every run, whatever fails and whatever others do, a request creates nothing and touches at
most the objects, Jobs and previews of `cleanup` for a Project whose cleanup was started. It deletes
objects and Jobs that an earlier request has found, a Redis Secret only under the UID of one that
was stored there with verified provenance, and where nobody else acts only as `cleanup` admits it;
or under `Retain` it takes the Project out of the owners of its own Redis Secret. Under `Retain` no
Secret and no StatefulSet is deleted. -/
theorem teardown_confined {cluster : Cluster} {jobs : JobStore}
    {previews : Previews.PreviewCluster} {earlier later : List (Transition Teardown TeardownAction)}
    {x : Transition Teardown TeardownAction}
    (h : Run (step sha256 lifecycle ns) (init cluster jobs previews) (earlier ++ x :: later) s)
    {answered : Bool} (hrequest : x.action = .request answered) : ∃ app,
      (∃ y ∈ earlier, y.action = .start app) ∧
      Confined sha256 ns (Quiet earlier) earlier app x.before x.after ∧
      (app.spec.deletionPolicy = .retain → ∀ kind name, kind = .secret ∨ kind = .statefulSet →
        (x.before.cluster.object kind name).isSome →
          (x.after.cluster.object kind name).isSome) := by
  obtain ⟨hbefore, hstep⟩ := h.split
  rw [hrequest] at hstep
  obtain ⟨run, hrun, hafter⟩ := Option.map_eq_some_iff.mp hstep
  have hquiet : Quiet earlier → Quiet earlier := id
  obtain ⟨hstarted, hsound⟩ := sound_of_run hbefore hquiet run hrun
  have hconfined := hsound.confined lifecycle answered
  rw [hafter] at hconfined
  refine ⟨run.app, hstarted, hconfined, ?_⟩
  intro hretain kind name hkind hsome
  obtain ⟨o, ho⟩ := Option.isSome_iff_exists.mp hsome
  rcases hconfined.object kind name o ho with hsame | ⟨-, op, hop, rfl, -⟩ |
    ⟨-, -, -, _, -, -, hpatched⟩
  · rw [hsame]
    rfl
  · obtain ⟨hsecret, hstatefulSet⟩ := kind_of_retain hretain hop
    exact hkind.elim (fun heq ↦ absurd heq hsecret) fun heq ↦ absurd heq hstatefulSet
  · rw [hpatched]
    rfl

/-! ## A Project that is deleted -/

/-- The Redis Secret of `shop`. -/
def shopSecret (uid : Uid) : Secret :=
  { name := "shop-redis-credentials", uid := some uid, resourceVersion := some 1, labels := none,
    ownerReferences := some [⟨"Project", 1, some true⟩], data := none, immutable := some true }

/-- The deleted Project; its status knows the Secret by the digest only. -/
def shopDeleted (policy : DeletionPolicy) : Project :=
  { shop with
    spec := { shop.spec with
      deletionPolicy := policy
      source := some ⟨"https://git.example/shop", none, none, none, some ⟨true, none, none⟩⟩ }
    status := some ⟨none, none, some (redisCredentialsDigest id (shopSecret 10))⟩ }

/-- The cache and the Secret of `shop`, under a UID. -/
def shopNamespace (uid : Uid) : Cluster where
  object kind name :=
    if kind = .secret ∧ name = "shop-redis-credentials" then some (.secret (shopSecret uid))
    else if kind = .deployment ∧ name = "shop-redis" then
      some (.resource [⟨"Project", 1, some true⟩] none)
    else none
  single_controller := by
    intro kind name o ho r hr r' hr' _ _
    split at ho
    · obtain rfl := Option.some.inj ho
      rw [List.mem_singleton.mp hr, List.mem_singleton.mp hr']
    · split at ho
      · obtain rfl := Option.some.inj ho
        rw [List.mem_singleton.mp hr, List.mem_singleton.mp hr']
      · cases ho

/-- A Job of a Project. -/
def jobOf (projectName component name : String) : LabelledJob :=
  ⟨name, [("app.kubernetes.io/name", projectName), ("app.kubernetes.io/component", component)]⟩

/-- A build and a migration of `shop`, and a build of another Project. -/
def shopJobs : JobStore where
  jobs := [jobOf "shop" "build" "shop-build-1", jobOf "shop" "migration" "shop-migrate-1",
    jobOf "blog" "build" "blog-build-1"]
  nodup := by decide

/-- The preview namespace of `shop` with a Project of somebody else. -/
def shopPreviews : Previews.PreviewCluster where
  namespaces name :=
    if name = Previews.previewNamespaceName "team" "shop" then
      some ⟨20, [], false, [⟨"tools", 21, [], none, "", false, false⟩]⟩
    else none
  nextUid := 30

/-- Before the Secret is deleted, somebody replaces it by one with the same data. -/
def secretReplaced : List TeardownAction :=
  .start (shopDeleted .delete) :: List.replicate 21 (.request true) ++
    [.others (shopNamespace 11) shopJobs shopPreviews, .request true]

/-- The cleanup of `shop` looks at its Redis Secret, and the delete does not reach the one that has
replaced it. -/
theorem teardown_confined_shop : ∃ s,
    execute (step id false "team") (init (shopNamespace 10) shopJobs shopPreviews) secretReplaced =
      some s ∧
    s.cluster.object .secret "shop-redis-credentials" = some (.secret (shopSecret 11)) ∧
    s.refused = [named .secret "-redis-credentials" .deleteRedisIfManaged] ∧
    ∀ earlier x later, transitions (step id false "team")
        (init (shopNamespace 10) shopJobs shopPreviews) secretReplaced = earlier ++ x :: later →
      ∀ answered, x.action = .request answered → ∃ app,
        (∃ y ∈ earlier, y.action = .start app) ∧
        Confined id "team" (Quiet earlier) earlier app x.before x.after ∧
        (app.spec.deletionPolicy = .retain → ∀ kind name, kind = .secret ∨ kind = .statefulSet →
          (x.before.cluster.object kind name).isSome →
            (x.after.cluster.object kind name).isSome) := by
  refine ⟨_, rfl, rfl, rfl, ?_⟩
  intro earlier x later heq answered hrequest
  have h : Run (step id false "team") (init (shopNamespace 10) shopJobs shopPreviews)
      (transitions (step id false "team") (init (shopNamespace 10) shopJobs shopPreviews)
        secretReplaced) _ := Run.of_execute secretReplaced rfl
  rw [heq] at h
  exact teardown_confined h hrequest

end Teardown

end ReinhardtCloud.Operator

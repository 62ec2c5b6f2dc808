import Mathlib.Logic.Function.Basic
import ReinhardtCloud.Operator.ArtifactNames
import ReinhardtCloud.Operator.BuildRuns

/-!
# Preview namespaces and their cleanup

Library `Operator`. The preview parts of `apply` (`reconciler.rs:565–611,2585–2846`) and of
`cleanup` (`reconciler.rs:1055–1104,3174–3374`) as clients of the API server. The source build
enters as the request whose Kaniko Job has succeeded, the clock as a predicate on last activities.
The guardrails of a namespace are one request; patches of the parent's own status and annotations
are left out.
-/

namespace ReinhardtCloud.Operator.Previews

open ReinhardtCloud.Base

/-! ## Labels that a selector asks for -/

/-- One requirement of a label selector. -/
inductive Requirement where
  | equals (key value : String)
  | present (key : String)
  deriving DecidableEq

/-- The labels meet the requirement. -/
def Requirement.admits (labels : StringMap) : Requirement → Bool
  | .equals key value => labels.lookup key = some value
  | .present key => (labels.lookup key).isSome

/-- `preview_projects_label_selector`, `reconciler.rs:3268–3276`. -/
def previewProjectsLabelSelector (parentName : String) : List Requirement :=
  [.equals previewLabelKey "true", .equals parentAppLabelKey parentName,
    .present prNumberLabelKey, .equals managedByLabelKey "reinhardt-cloud"]

/-! ## The API server -/

/-- A Project of a preview namespace. `fromBuild` marks the ones a preview build has created. -/
structure PreviewProject where
  name : String
  uid : Uid
  labels : StringMap
  lastActivity : Option String
  image : String
  deleting : Bool
  fromBuild : Bool
  deriving DecidableEq

/-- A namespace and its Projects; `deleting` once its deletion has been accepted. -/
structure PreviewNamespace where
  uid : Uid
  labels : StringMap
  deleting : Bool
  previews : List PreviewProject
  deriving DecidableEq

/-- The namespaces of the cluster, by name. -/
structure PreviewCluster where
  namespaces : String → Option PreviewNamespace
  nextUid : Uid

/-- The cluster with one namespace replaced or removed. -/
def PreviewCluster.set (s : PreviewCluster) (ns : String) (content : Option PreviewNamespace) :
    PreviewCluster :=
  { s with namespaces := Function.update s.namespaces ns content }

/-- Mark the Projects of a name as being deleted. -/
def PreviewNamespace.markDeleting (n : PreviewNamespace) (name : String) : PreviewNamespace :=
  { n with
    previews := n.previews.map fun p ↦ if p.name = name then { p with deleting := true } else p }

/-- Requests about namespaces and the Projects in them. -/
inductive Call where
  /-- Merge patch of a namespace's labels. -/
  | patchNamespace (ns : String) (labels : StringMap)
  | createNamespace (ns : String) (labels : StringMap)
  | getNamespace (ns : String)
  /-- With the observed UID as a precondition. -/
  | deleteNamespace (ns : String) (uid : Uid)
  | listProjects (ns : String) (selector : List Requirement)
  | deleteProject (ns name : String) (uid : Option Uid)
  /-- Forced server-side apply. -/
  | applyProject (ns name : String) (labels : StringMap) (lastActivity image : String)
  | applyGuardrails (ns : String)
  | deleteGuardrails (ns : String)

/-- What each request returns when it succeeds. -/
@[reducible] def Call.Result : Call → Type
  | .getNamespace _ => Option PreviewNamespace
  | .listProjects _ _ => List PreviewProject
  | _ => Unit

/-- What the API server does with an accepted request. A deleted Project stays, marked, until its
finalizers are done. -/
def PreviewCluster.perform (s : PreviewCluster) :
    (c : Call) → PreviewCluster × Except ApiError c.Result
  | .patchNamespace ns labels =>
    match s.namespaces ns with
    | none => (s, .error .notFound)
    | some n => (s.set ns (some { n with labels := n.labels.merge labels }), .ok ())
  | .createNamespace ns labels =>
    match s.namespaces ns with
    | some _ => (s, .error .alreadyExists)
    | none => ({ s.set ns (some ⟨s.nextUid, labels, false, []⟩) with nextUid := s.nextUid + 1 },
        .ok ())
  | .getNamespace ns => (s, .ok (s.namespaces ns))
  | .deleteNamespace ns uid =>
    match s.namespaces ns with
    | none => (s, .error .notFound)
    | some n =>
      if n.uid = uid then (s.set ns (some { n with deleting := true }), .ok ())
      else (s, .error .conflict)
  | .listProjects ns selector =>
    (s, .ok (((s.namespaces ns).elim [] PreviewNamespace.previews).filter fun p ↦
      selector.all (Requirement.admits p.labels)))
  | .deleteProject ns name uid =>
    match s.namespaces ns with
    | none => (s, .error .notFound)
    | some n =>
      match n.previews.find? fun p ↦ p.name = name with
      | none => (s, .error .notFound)
      | some p =>
        if uid.all fun u ↦ u = p.uid then (s.set ns (some (n.markDeleting name)), .ok ())
        else (s, .error .conflict)
  | .applyProject ns name labels lastActivity image =>
    match s.namespaces ns with
    | none => (s, .error .notFound)
    | some n =>
      if n.previews.any fun p ↦ p.name = name then
        (s.set ns (some { n with previews := n.previews.map fun p ↦
          if p.name = name then { p with
            labels := p.labels.merge labels, lastActivity := some lastActivity, image := image }
          else p }), .ok ())
      else if n.deleting then (s, .error .other)
      else
        ({ s.set ns (some { n with previews := n.previews ++
            [⟨name, s.nextUid, labels, some lastActivity, image, false, true⟩] }) with
          nextUid := s.nextUid + 1 }, .ok ())
  | .applyGuardrails ns => if (s.namespaces ns).isSome then (s, .ok ()) else (s, .error .notFound)
  | .deleteGuardrails _ => (s, .ok ())

/-- What others do in the cluster. -/
inductive Change where
  /-- Somebody creates a Project of their own. -/
  | createProject (ns name : String) (labels : StringMap)
  /-- Somebody asks for the deletion of a Project. -/
  | deleteProject (ns name : String)
  /-- The finalizers of a Project that is being deleted are done. -/
  | finalizeProject (ns name : String)
  | createNamespace (ns : String) (labels : StringMap)
  | deleteNamespace (ns : String)
  /-- A namespace that is being deleted is gone, with all it held. -/
  | finalizeNamespace (ns : String)
  deriving DecidableEq

/-- One change; nothing happens where the API server refuses it. -/
def PreviewCluster.change (s : PreviewCluster) : Change → PreviewCluster
  | .createProject ns name labels =>
    match s.namespaces ns with
    | none => s
    | some n =>
      if n.deleting || n.previews.any fun p ↦ p.name = name then s
      else { s.set ns (some { n with previews := n.previews ++
          [⟨name, s.nextUid, labels, none, "", false, false⟩] }) with nextUid := s.nextUid + 1 }
  | .deleteProject ns name => s.set ns ((s.namespaces ns).map fun n ↦ n.markDeleting name)
  | .finalizeProject ns name =>
    s.set ns ((s.namespaces ns).map fun n ↦ { n with
      previews := n.previews.filter fun p ↦ !(p.deleting && p.name = name) })
  | .createNamespace ns labels =>
    match s.namespaces ns with
    | some _ => s
    | none => { s.set ns (some ⟨s.nextUid, labels, false, []⟩) with nextUid := s.nextUid + 1 }
  | .deleteNamespace ns => s.set ns ((s.namespaces ns).map fun n ↦ { n with deleting := true })
  | .finalizeNamespace ns => s.set ns ((s.namespaces ns).filter fun n ↦ !n.deleting)

/-- How one request fares: what others did before it, and whether it fails without effect. -/
structure Service where
  others : List Change
  fault : Bool

/-- Served at once and without a failure. -/
def Service.calm : Service := ⟨[], false⟩

/-- Serve one request. -/
def serve (s : PreviewCluster) (o : Service) (c : Call) :
    PreviewCluster × Except ApiError c.Result :=
  let s := o.others.foldl PreviewCluster.change s
  if o.fault then (s, .error .other) else s.perform c

/-! ## The operator -/

/-- The errors of the preview parts, `error.rs`. -/
inductive PreviewError where
  | kube (error : ApiError)
  | invalid (error : Error)
  | namespaceNotProvisioned (ns : String)
  | previewProjectsTerminating (ns : String) (remaining : Nat)
  deriving DecidableEq

/-- A preview part of the operator. -/
abbrev PreviewProgram := Program Call (fun c ↦ Except ApiError c.Result) PreviewError

/-- Send a request; `map_err(Error::Kube)?`. -/
def api (c : Call) : PreviewProgram c.Result :=
  .call c fun
    | .ok r => pure r
    | .error e => .fail (.kube e)

/-- `patch_or_create_namespace`, `reconciler.rs:2456–2483`. -/
def patchOrCreateNamespace (ns : String) (labels : StringMap) : PreviewProgram Unit :=
  .call (.patchNamespace ns labels) fun
    | .ok _ => pure ()
    | .error .notFound => .call (.createNamespace ns labels) fun
      | .ok _ => pure ()
      | .error .alreadyExists | .error .conflict => api (.patchNamespace ns labels)
      | .error e => .fail (.kube e)
    | .error e => .fail (.kube e)

/-- `patch_existing_namespace_labels`, `reconciler.rs:2557–2576`. -/
def patchExistingNamespaceLabels (ns : String) (labels : StringMap) : PreviewProgram Unit :=
  .call (.patchNamespace ns labels) fun
    | .ok _ => pure ()
    | .error .notFound => .fail (.namespaceNotProvisioned ns)
    | .error e => .fail (.kube e)

/-- `reconcile_preview_namespace`, `reconciler.rs:2585–2674`. -/
def reconcilePreviewNamespace (lifecycle : Bool) (parentNamespace parentName : String)
    (parentUid : Option Uid) : PreviewProgram Unit :=
  match parentUid with
  | none => pure ()
  | some uid => do
    let ns := previewNamespaceName parentNamespace parentName
    let labels := previewNamespaceOwnerLabels parentNamespace parentName uid
    if lifecycle then patchOrCreateNamespace ns labels else patchExistingNamespaceLabels ns labels
    api (.applyGuardrails ns)

/-- `reconcile_preview_delete_action`, `reconciler.rs:2676–2735`. -/
def reconcilePreviewDeleteAction (app : Project) (previewNamespace : String) :
    PreviewProgram Bool :=
  if app.annotations.previewAction = some "delete" then
    let previewName := previewProjectName app.name (app.annotations.prNumber.getD "")
    .call (.deleteProject previewNamespace previewName none) fun
      | .ok _ | .error .notFound => pure true
      | .error e => .fail (.kube e)
  else pure false

/-- Delete the listed previews whose last activity has expired; failures are passed over. -/
def deleteExpired (expired : String → Bool) (previewNamespace : String) :
    List PreviewProject → PreviewProgram Unit
  | [] => pure ()
  | p :: rest =>
    if p.lastActivity.any expired then
      .call (.deleteProject previewNamespace p.name none) fun _ ↦
        deleteExpired expired previewNamespace rest
    else deleteExpired expired previewNamespace rest

/-- `reconcile_preview_ttl_cleanup`, `reconciler.rs:2737–2778`. `expired` is `is_ttl_expired` at the
time of the pass. -/
def reconcilePreviewTtlCleanup (expired : String → String → Bool) (app : Project)
    (previewNamespace : String) : PreviewProgram Unit := do
  let previews ← api (.listProjects previewNamespace
    [.equals previewLabelKey "true", .equals parentAppLabelKey app.name])
  let ttl := ((app.spec.source.bind fun s ↦ s.preview).bind fun p ↦ p.ttl).getD "72h"
  deleteExpired (fun lastActivity ↦ expired lastActivity ttl) previewNamespace previews

/-- `reconcile_preview_from_build`, `reconciler.rs:2800–2846`. -/
def reconcilePreviewFromBuild (app : Project) (previewNamespace now : String)
    (build : BuildStatus) : PreviewProgram Unit :=
  match build.prNumber, build.previewName, buildPreviewSpec app build.imageTag, app.ns with
  | none, _, _, _ => .fail (.invalid (.missingField "status.build.prNumber"))
  | some _, none, _, _ => .fail (.invalid (.missingField "status.build.previewName"))
  | some _, some _, .error e, _ => .fail (.invalid e)
  | some _, some _, .ok _, none => .fail (.invalid (.missingNamespace app.name))
  | some prNumber, some previewName, .ok image, some ns =>
    api (.applyProject previewNamespace previewName (previewLabels ns app.name prNumber) now image)

/-- What a reconcile finds besides the Project: the clock, and the version of the Project that
requested the build whose Kaniko Job has succeeded. -/
structure Pass where
  now : String
  expired : String → String → Bool
  requested : Option Project

/-- The preview build to carry out, `SourceBuildGateAction::UpdatePreview`. -/
def Pass.previewBuild (pass : Pass) : Option BuildStatus :=
  (pass.requested.bind requestedBuild).filter fun build ↦ build.target = .preview

/-- A part of a reconcile that only a spec with previews enabled asks for. -/
def whenEnabled (app : Project) (part : PreviewProgram Unit) : PreviewProgram Unit :=
  if previewsEnabled app then part else pure ()

/-- The preview part of `apply`, `reconciler.rs:565–613`. -/
def reconcilePreviews (lifecycle : Bool) (parentNamespace : String) (app : Project)
    (pass : Pass) : PreviewProgram Unit := do
  let previewNamespace := previewNamespaceName parentNamespace app.name
  whenEnabled app (reconcilePreviewNamespace lifecycle parentNamespace app.name app.uid)
  if ← reconcilePreviewDeleteAction app previewNamespace then pure ()
  else do
    whenEnabled app (reconcilePreviewTtlCleanup pass.expired app previewNamespace)
    match pass.previewBuild with
    | some build => reconcilePreviewFromBuild app previewNamespace pass.now build
    | none => pure ()

/-- `delete_owned_preview_namespace`, `reconciler.rs:3185–3250`. -/
def deleteOwnedPreviewNamespace (parentNamespace parentName : String) (parentUid : Option Uid)
    (previewNamespace : String) : PreviewProgram Bool :=
  match parentUid with
  | none => pure false
  | some uid => do
    match ← api (.getNamespace previewNamespace) with
    | none => pure false
    | some existing =>
      if labelsMatchPreviewOwner existing.labels parentNamespace parentName uid then
        .call (.deleteNamespace previewNamespace existing.uid) fun
          | .ok _ => pure true
          | .error .notFound | .error .alreadyExists | .error .conflict => pure false
          | .error e => .fail (.kube e)
      else pure false

/-- `is_verified_preview_of`, `reconciler.rs:3297–3315`. -/
def isVerifiedPreviewOf (p : PreviewProject) (ns parentNamespace parentName : String) : Bool :=
  ((p.labels.lookup parentNamespaceLabelKey).all fun label ↦ label = parentNamespace) &&
    ns = previewNamespaceName parentNamespace parentName &&
    previewParentNameFromLabels p.labels p.name = some parentName

/-- The loop of `delete_retained_preview_projects` over the listed previews. -/
def deleteVerified (parentNamespace parentName previewNamespace : String) :
    List PreviewProject → Nat → PreviewProgram Nat
  | [], remaining => pure remaining
  | p :: rest, remaining =>
    if isVerifiedPreviewOf p previewNamespace parentNamespace parentName then
      if p.deleting then
        deleteVerified parentNamespace parentName previewNamespace rest (remaining + 1)
      else
        .call (.deleteProject previewNamespace p.name (some p.uid)) fun
          | .ok _ | .error .notFound | .error .alreadyExists | .error .conflict =>
            deleteVerified parentNamespace parentName previewNamespace rest (remaining + 1)
          | .error e => .fail (.kube e)
    else deleteVerified parentNamespace parentName previewNamespace rest remaining

/-- `delete_retained_preview_projects`, `reconciler.rs:3325–3373`. -/
def deleteRetainedPreviewProjects (parentNamespace parentName previewNamespace : String) :
    PreviewProgram Nat := do
  let previews ← api (.listProjects previewNamespace (previewProjectsLabelSelector parentName))
  deleteVerified parentNamespace parentName previewNamespace previews 0

/-- The preview part of `cleanup`, `reconciler.rs:1064–1096`. -/
def cleanupPreviews (lifecycle : Bool) (parentNamespace : String) (app : Project) :
    PreviewProgram Unit :=
  if previewsEnabled app then do
    let previewNamespace := previewNamespaceName parentNamespace app.name
    let namespaceDeleted ← (if lifecycle then
        deleteOwnedPreviewNamespace parentNamespace app.name app.uid previewNamespace
      else pure false)
    if namespaceDeleted then pure ()
    else do
      let remaining ← deleteRetainedPreviewProjects parentNamespace app.name previewNamespace
      if remaining > 0 then .fail (.previewProjectsTerminating previewNamespace remaining)
      else api (.deleteGuardrails previewNamespace)
  else pure ()

end ReinhardtCloud.Operator.Previews

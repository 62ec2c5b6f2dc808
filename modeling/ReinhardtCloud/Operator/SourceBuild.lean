import ReinhardtCloud.Base.Characters
import ReinhardtCloud.Operator.PullSecrets

/-!
# Source builds and preview actions

Library `Operator`. Model of `source_build.rs`, of the naming and Job builders in
`resources/source.rs` and `resources/preview.rs`, and of the preview actions and the source build
gate of `apply` (`reconciler.rs:145–185,566–617,2676–2870`), as clients of the API server.
Timestamps, status conditions and preview TTLs are left out.
-/

namespace ReinhardtCloud.Operator

open ReinhardtCloud.Base

/-! ## Text -/

/-- `s.trim().is_empty()`. -/
def isBlank (s : String) : Bool := s.toList.all isWhiteSpace

/-! ## Jobs -/

/-- `JobCondition`. -/
structure JobCondition where
  type_ : String
  status : String
  reason : Option String
  message : Option String
  deriving DecidableEq

/-- `JobStatus`. -/
structure JobStatus where
  succeeded : Option Int
  failed : Option Int
  conditions : Option (List JobCondition)
  deriving DecidableEq

/-- A Kaniko `Job`: its name, arguments, mounted credentials, image-pull secrets, backoff limit and
status. -/
structure Job where
  name : String
  args : List String
  credentialsSecret : Option String
  imagePullSecrets : Option (List String)
  backoffLimit : Option Int
  status : Option JobStatus
  deriving DecidableEq

/-- `JobBuildState`, `source_build.rs:41–46`. -/
inductive JobBuildState where
  | running
  | succeeded
  | failed (reason message : String)
  deriving DecidableEq

/-- `classify_job_state`, `source_build.rs:124–163`. -/
def classifyJobState (job : Job) : JobBuildState :=
  match job.status with
  | none => .running
  | some status =>
    if status.succeeded.getD 0 > 0 then .succeeded
    else
      match (status.conditions.getD []).find? fun c ↦ c.type_ = "Failed" && c.status = "True" with
      | some c => .failed (c.reason.getD "JobFailed")
          (c.message.getD "Kaniko build Job reported a failed condition")
      | none =>
        if status.failed.getD 0 > job.backoffLimit.getD 6 then
          .failed "BackoffLimitExceeded" "Kaniko build Job exceeded backoff limit"
        else .running

/-! ## Names and images, `resources/source.rs` and `resources/preview.rs` -/

/-- `image_reference_without_tag`, `source.rs:66–79`. -/
def imageReferenceWithoutTag (image : String) : String :=
  let imageWithoutDigest := image.toList.takeWhile (· ≠ '@')
  match imageWithoutDigest.reverse.dropWhile fun c ↦ c ≠ ':' && c ≠ '/' with
  | ':' :: before => String.ofList before.reverse
  | _ => String.ofList imageWithoutDigest

/-- `built_image_reference`, `source.rs:26–40`. -/
def builtImageReference (app : Project) (imageTag : String) : Except Error String :=
  match app.spec.source with
  | none => .error (.missingField "spec.source")
  | some source =>
    let base := (source.build.bind fun b ↦ b.registry).getD
      (imageReferenceWithoutTag app.spec.image)
    .ok s!"{base}:{imageTag}"

/-- `build_job_name`, `source.rs:90–110`. -/
def buildJobName (projectName imageTag : String) : String :=
  let imageTagName := trimDashes (imageTag.toList.map fun c ↦
    if c.isAlphanum || c = '-' then c.toLower else '-')
  let imageTagName := if imageTagName.isEmpty then "image" else String.ofList imageTagName
  s!"{projectName}-build-{imageTagName}"

/-- `preview_image_tag`, `preview.rs:56–58`. -/
def previewImageTag (prNumber shortCommitSha : String) : String :=
  s!"pr-{prNumber}-{shortCommitSha}"

/-- `expected_credentials_secret_name`, `source.rs:49–51`. -/
def expectedCredentialsSecretName (app : Project) : String := s!"{app.name}-git-credentials"

/-- `build_kaniko_job_for_branch`, `source.rs:105–247`. -/
def buildKanikoJobForBranch (app : Project) (imageTag : String) (branchOverride : Option String) :
    Except Error Job := do
  let some source := app.spec.source | .error (.missingField "spec.source")
  let some _ := app.ns | .error (.missingNamespace app.name)
  let some _ := app.uid | .error (.ownerReference app.name)
  let branch := (branchOverride.filter fun b ↦ !isBlank b).getD (source.branch.getD "main")
  let dockerfile := (source.build.bind fun b ↦ b.dockerfile).getD "./Dockerfile"
  let context := (source.build.bind fun b ↦ b.context).getD "."
  let destination ← builtImageReference app imageTag
  if source.credentialsSecret.all fun name ↦ name = expectedCredentialsSecretName app then
    let imagePullSecrets ← app.validatedImagePullSecrets
    .ok {
      name := buildJobName app.name imageTag
      args := [s!"--git=branch={branch},url={source.repository}", s!"--dockerfile={dockerfile}",
        s!"--context=dir://{context}", s!"--destination={destination}", "--cache=true"] ++
        ((source.build.map fun b ↦ b.buildArgs).getD []).map fun kv ↦
          s!"--build-arg={kv.1}={kv.2}"
      credentialsSecret := source.credentialsSecret
      imagePullSecrets := imagePullSecrets
      backoffLimit := some 2
      status := none }
  else .error (.invalidCredentialsSecret (source.credentialsSecret.getD "")
    (expectedCredentialsSecretName app))

/-- `build_kaniko_job`, `source.rs:86–88`. -/
def buildKanikoJob (app : Project) (imageTag : String) : Except Error Job :=
  buildKanikoJobForBranch app imageTag none

/-- The image of `build_preview_spec`, `preview.rs:122–138`; the rest of the spec is left out. -/
def buildPreviewSpec (parent : Project) (imageTag : String) : Except Error String :=
  match (parent.spec.source.bind fun s ↦ s.build).bind fun b ↦ b.registry with
  | none => .error (.missingField "source.build.registry")
  | some registry => .ok s!"{registry}:{imageTag}"

/-! ## Reading the annotations, `source_build.rs:637–676` -/

/-- `previews_enabled`. -/
def previewsEnabled (app : Project) : Bool :=
  app.spec.source.any fun source ↦ source.preview.any fun preview ↦ preview.enabled

/-- `preview_build_action`. -/
def previewBuildAction (app : Project) : Option String :=
  app.annotations.previewAction.filter fun action ↦ action = "create" || action = "update"

/-- `preview_action_pr_number`. -/
def previewActionPrNumber (app : Project) : Option String :=
  (previewBuildAction app).bind fun _ ↦ app.annotations.prNumber.filter fun n ↦ !isBlank n

/-- `preview_pr_number`. -/
def previewPrNumber (app : Project) : Option String :=
  if previewsEnabled app then previewActionPrNumber app else none

/-- `disabled_preview_build_requested`. -/
def disabledPreviewBuildRequested (app : Project) : Bool :=
  (previewActionPrNumber app).isSome && !previewsEnabled app

/-- `malformed_preview_build_requested`. -/
def malformedPreviewBuildRequested (app : Project) : Bool :=
  (previewBuildAction app).isSome && (previewActionPrNumber app).isNone

/-- A build trigger that `reconcile_source_build` drops without building. -/
def ignoredPreviewRequest (app : Project) : Bool :=
  app.annotations.buildTrigger.isSome &&
    (disabledPreviewBuildRequested app || malformedPreviewBuildRequested app)

/-! ## Build status -/

/-- `active_build_status`, `source_build.rs:47–53`. -/
def activeBuildStatus (app : Project) : Option BuildStatus :=
  (app.status.bind fun s ↦ s.build).filter fun b ↦ b.phase = .pending || b.phase = .running

/-- `blocking_failed_build_status`, `source_build.rs:55–68`. -/
def blockingFailedBuildStatus (app : Project) (hasNewBuild : Bool) : Option BuildStatus :=
  if hasNewBuild then none
  else (app.status.bind fun s ↦ s.build).filter fun b ↦ b.phase = .failed

/-- The build status accepted for a trigger, `source_build.rs:85–121`. -/
def newBuildStatus (app : Project) (source : SourceSpec) (trigger : String) :
    Except Error BuildStatus := do
  let shortTrigger := takeChars 8 trigger
  let prNumber := previewPrNumber app
  let imageTag := match prNumber with
    | some n => previewImageTag n shortTrigger
    | none => s!"{app.name}-{shortTrigger}"
  let image ← builtImageReference app imageTag
  .ok {
    phase := .pending
    target := if prNumber.isSome then .preview else .production
    trigger := trigger
    jobName := buildJobName app.name imageTag
    image := image
    imageTag := imageTag
    previewName := prNumber.map fun n ↦ previewProjectName app.name n
    prNumber := prNumber
    branch := (app.annotations.prBranch.filter fun b ↦ !isBlank b).or source.branch
    reason := some "BuildPending"
    message := some "Kaniko build Job has been accepted" }

/-- `derive_new_build_status`, `source_build.rs:70–122`. -/
def deriveNewBuildStatus (app : Project) : Except Error (Option BuildStatus) :=
  match app.spec.source, app.annotations.buildTrigger with
  | some source, some trigger =>
    if disabledPreviewBuildRequested app || malformedPreviewBuildRequested app then .ok none
    else (newBuildStatus app source trigger).map some
  | _, _ => .ok none

/-- `transition_build_status`, `source_build.rs:284–308`. -/
def transitionBuildStatus (build : BuildStatus) (phase : BuildPhase) (reason message : String) :
    BuildStatus :=
  { build with phase := phase, reason := some reason, message := some message }

/-- JSON merge patch of `status.build`: absent optional fields keep their old value. -/
def mergeBuildStatus (old : Option BuildStatus) (new : BuildStatus) : BuildStatus :=
  match old with
  | none => new
  | some old => { new with
      previewName := new.previewName.or old.previewName
      prNumber := new.prNumber.or old.prNumber
      branch := new.branch.or old.branch
      reason := new.reason.or old.reason
      message := new.message.or old.message }

/-! ## The API server -/

/-- Requests of the source build gate and of the rest of `apply`. -/
inductive BuildCall where
  | getJob (name : String)
  | createJob (job : Job)
  | deleteJob (name : String)
  /-- Merge patch of `status.build`. -/
  | patchBuildStatus (build : BuildStatus)
  /-- Merge patch `status.build: null`. -/
  | clearBuildStatus
  /-- Merge patch that nulls the four annotations. -/
  | clearBuildAnnotations
  /-- Merge patch of `spec.image`. -/
  | patchProjectImage (image : String)
  | deletePreviewProject (name : String)
  | applyPreviewProject (name image : String)
  /-- Everything `apply` does after the source build gate, for the observed Project. -/
  | applyWorkloads (app : Project)

/-- What each request returns when it succeeds. -/
@[reducible] def BuildCall.Result : BuildCall → Type
  | .getJob _ => Option Job
  | .createJob _ => Job
  | _ => Unit

/-- A client of the source build flow. -/
abbrev BuildProgram := Program BuildCall (fun c ↦ Except ApiError c.Result) Error

/-- Send a request; `map_err(Error::Kube)?`. -/
def buildApi (c : BuildCall) : BuildProgram c.Result :=
  .call c fun
    | .ok r => pure r
    | .error e => .fail (.kube e)

/-- `?` on a computed result. -/
def ofExcept {α : Type} (r : Except Error α) : BuildProgram α := .done r

/-! ## `reconcile_source_build` -/

/-- `BuildDecision`, `source_build.rs:23–29`. -/
inductive BuildDecision where
  | noBuild
  | waiting
  | succeeded (status : BuildStatus)
  | failed (status : BuildStatus)
  deriving DecidableEq

/-- `clear_build_annotations`, `source_build.rs:514–529`. -/
def clearBuildAnnotations : BuildProgram Unit := buildApi .clearBuildAnnotations

/-- `patch_build_status`, `source_build.rs:451–468`. -/
def patchBuildStatus (build : BuildStatus) : BuildProgram Unit := buildApi (.patchBuildStatus build)

/-- `build_job_for_status`, `source_build.rs:531–538`. -/
def buildJobForStatus (app : Project) (status : BuildStatus) : Except Error Job :=
  match status.target with
  | .production => buildKanikoJob app status.imageTag
  | .preview => buildKanikoJobForBranch app status.imageTag status.branch

/-- `build_decision_from_job_state`, `source_build.rs:316–373`, and the patch that follows it. -/
def decideFromJobState (build : BuildStatus) (state : JobBuildState) :
    BuildProgram BuildDecision :=
  match state with
  | .running => do
    patchBuildStatus (transitionBuildStatus build .running "BuildRunning"
      "Kaniko build Job is still running")
    pure .waiting
  | .succeeded =>
    pure (.succeeded (transitionBuildStatus build .succeeded "BuildSucceeded"
      "Kaniko build Job succeeded"))
  | .failed reason message => do
    let failed := transitionBuildStatus build .failed reason message
    patchBuildStatus failed
    pure (.failed failed)

/-- A new build once its Job is there: record it, drop the request, look at the Job. -/
def acceptNewBuild (build : BuildStatus) (liveJob : Job) : BuildProgram BuildDecision := do
  patchBuildStatus build
  clearBuildAnnotations
  decideFromJobState build (classifyJobState liveJob)

/-- The path of a derived build, `source_build.rs:566–618` with `has_new_build`. -/
def reconcileNewBuild (app : Project) (build : BuildStatus) : BuildProgram BuildDecision := do
  match ← buildApi (.getJob build.jobName) with
  | some job => acceptNewBuild build job
  | none =>
    let expectedJob ← ofExcept (buildJobForStatus app build)
    let created ← buildApi (.createJob expectedJob)
    acceptNewBuild build created

/-- The path of the recorded active build, `source_build.rs:566–618` without `has_new_build`. -/
def reconcileActiveBuild (build : BuildStatus) : BuildProgram BuildDecision := do
  match ← buildApi (.getJob build.jobName) with
  | some job => decideFromJobState build (classifyJobState job)
  | none =>
    let missing := transitionBuildStatus build .failed "BuildJobMissing"
      s!"Kaniko build Job {build.jobName} is missing"
    patchBuildStatus missing
    pure (.failed missing)

/-- Without a derived build: a failed one blocks, an active one is followed. -/
def reconcileRecordedBuild (app : Project) : BuildProgram BuildDecision :=
  match blockingFailedBuildStatus app false with
  | some failedBuild => pure (.failed failedBuild)
  | none =>
    match activeBuildStatus app with
    | some build => reconcileActiveBuild build
    | none => pure .noBuild

/-- `reconcile_source_build`, `source_build.rs:540–619`. -/
def reconcileSourceBuild (app : Project) : BuildProgram BuildDecision :=
  if ignoredPreviewRequest app then do
    clearBuildAnnotations
    reconcileRecordedBuild app
  else do
    match ← ofExcept (deriveNewBuildStatus app) with
    | some build => reconcileNewBuild app build
    | none => reconcileRecordedBuild app

/-! ## Preview actions and the gate of `apply` -/

/-- `matching_preview_build_status`, `source_build.rs:392–408`. -/
def matchingPreviewBuildStatus (app : Project) (prNumber previewName : String) :
    Option BuildStatus :=
  (app.status.bind fun s ↦ s.build).filter fun b ↦ b.target = .preview &&
    ((!prNumber.isEmpty && b.prNumber = some prNumber) || b.previewName = some previewName)

/-- `clear_preview_build_for_delete`, `source_build.rs:470–512`. -/
def clearPreviewBuildForDelete (app : Project) (prNumber previewName : String) :
    BuildProgram Unit :=
  match matchingPreviewBuildStatus app prNumber previewName with
  | none => pure ()
  | some build =>
    if isBlank build.jobName then buildApi .clearBuildStatus
    else
      -- a failed delete is logged and passed over
      .call (.deleteJob build.jobName) fun _ ↦ buildApi .clearBuildStatus

/-- `reconcile_preview_delete_action`, `reconciler.rs:2676–2735`. -/
def reconcilePreviewDeleteAction (app : Project) : BuildProgram Bool :=
  if app.annotations.previewAction = some "delete" then do
    let prNumber := app.annotations.prNumber.getD ""
    let previewName := previewProjectName app.name prNumber
    clearPreviewBuildForDelete app prNumber previewName
    .call (.deletePreviewProject previewName) fun
      | .ok _ | .error .notFound => do
        clearBuildAnnotations
        pure true
      | .error e => .fail (.kube e)
  else pure false

/-- `mark_build_succeeded`, `source_build.rs:621–635`. -/
def markBuildSucceeded (build : BuildStatus) : BuildProgram Unit := patchBuildStatus build

/-- `reconcile_preview_from_build`, `reconciler.rs:2800–2846`. -/
def reconcilePreviewFromBuild (app : Project) (build : BuildStatus) : BuildProgram Unit :=
  match build.prNumber, build.previewName, buildPreviewSpec app build.imageTag, app.ns with
  | none, _, _, _ => .fail (.missingField "status.build.prNumber")
  | some _, none, _, _ => .fail (.missingField "status.build.previewName")
  | some _, some _, .error e, _ => .fail e
  | some _, some _, .ok _, none => .fail (.missingNamespace app.name)
  | some _, some previewName, .ok image, some _ =>
    buildApi (.applyPreviewProject previewName image)

/-- `SourceBuildGateAction` and `source_build_gate_action`, `reconciler.rs:160–185`, carried out
as in `apply`, `reconciler.rs:596–617`: only `NoBuild` lets `apply` go on to the workloads. -/
def sourceBuildGate (app : Project) : BuildDecision → BuildProgram Unit
  | .noBuild => buildApi (.applyWorkloads app)
  | .waiting => pure ()
  | .succeeded build =>
    match build.target with
    | .production => do
      buildApi (.patchProjectImage build.image)
      markBuildSucceeded build
    | .preview => do
      reconcilePreviewFromBuild app build
      markBuildSucceeded build
  | .failed _ => pure ()

/-- `apply` from the preview delete action on, `reconciler.rs:589–927`. -/
def applyProject (app : Project) : BuildProgram Unit := do
  if ← reconcilePreviewDeleteAction app then pure ()
  else
    let decision ← reconcileSourceBuild app
    sourceBuildGate app decision

end ReinhardtCloud.Operator

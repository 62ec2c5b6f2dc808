import ReinhardtCloud.Dashboard.Requests

/-!
# Submissions of the command line tool

Library `Dashboard`. `submit_project_deployment` with its validation
(`apps/deployments/services/submission.rs`, `services/manifest.rs`) behind the endpoint `cli_deploy`
(`apps/deployments/server_urls.rs:27–140`), one awaited step at a time. The validation of a
Project's spec (`crd/spec.rs`) enters as the messages it finds. An absent name or namespace of a
manifest is the empty one.
-/

namespace ReinhardtCloud.Dashboard

open ReinhardtCloud.Base ReinhardtCloud.Operator

variable {Text : Type}

/-- `SubmitProjectDeploymentError`. -/
inductive SubmitProjectDeploymentError where
  | badRequest (message : String)
  | conflict (message : String)
  | agentUnavailable (message : String)
  | internal (message : String)
  deriving DecidableEq

/-- `SubmitProjectDeploymentInput` with the cluster's name of the request; the manifest is absent
when its text is blank. -/
structure Submission (Text : Type) where
  organization : Nat
  cluster : String
  projectName : String
  ns : Option String
  image : String
  projectYaml : Option Text

/-- `.map(str::trim).filter(|value| !value.is_empty())`. -/
def nonBlank (s : String) : Option String := if trim s = "" then none else some (trim s)

/-- A trimmed text of bounded length. -/
def validateLength (max : Nat) (message s : String) : Except SubmitProjectDeploymentError String :=
  if trim s = "" || max < (trim s).utf8ByteSize then .error (.badRequest message) else .ok (trim s)

/-- `validate_project_name`, `submission.rs:183–191`. -/
def validateSubmissionName (projectName : String) : Except SubmitProjectDeploymentError String :=
  validateLength 63 "Project name must be 1-63 characters" projectName

/-- `validate_image`, `submission.rs:193–201`. -/
def validateImage (image : String) : Except SubmitProjectDeploymentError String :=
  validateLength 512 "Image must be 1-512 characters" image

/-- `validate_project_manifest`, `manifest.rs:5–20`. -/
def validateProjectManifest (codec : ManifestCodec Text) (specErrors : Manifest → List String) :
    Option Text → Except String (Option Manifest)
  | none => .ok none
  | some text =>
    match codec.ofText text with
    | .error e => .error s!"Invalid Project YAML: {e}"
    | .ok m =>
      match specErrors m with
      | [] => .ok (some m)
      | errors =>
        let messages := "; ".intercalate errors
        .error s!"Invalid Project spec: {messages}"

/-- `validate_submission_manifest`, `submission.rs:118–181`. -/
def validateSubmissionManifest (codec : ManifestCodec Text) (specErrors : Manifest → List String)
    (input : Submission Text) (projectName : String) :
    Except SubmitProjectDeploymentError Manifest :=
  match validateProjectManifest codec specErrors input.projectYaml with
  | .error e => .error (.badRequest e)
  | .ok none => .error (.badRequest "Project YAML is required")
  | .ok (some m) =>
    match nonBlank m.name with
    | none => .error (.badRequest "Project YAML metadata.name is required")
    | some manifestName =>
      if manifestName ≠ projectName then
        .error (.badRequest "Project YAML metadata.name must match project_name")
      else if (input.ns.bind nonBlank).any fun expected ↦
          (nonBlank m.ns).getD "default" ≠ expected then
        .error (.badRequest "Project YAML metadata.namespace must match namespace")
      else if trim m.spec.image ≠ trim input.image then
        .error (.badRequest "Project YAML spec.image must match image")
      else .ok m

/-- The row of a validated submission, `submission.rs:67–84`. -/
def submittedDeployment (codec : ManifestCodec Text) (specErrors : Manifest → List String)
    (input : Submission Text) (cluster : Nat × Cluster) :
    Except SubmitProjectDeploymentError (Deployment Text) := do
  let projectName ← validateSubmissionName input.projectName
  let image ← validateImage input.image
  let _ ← validateSubmissionManifest codec specErrors input projectName
  (validateClusterForApply cluster.2).mapError .conflict
  return {
    organization := input.organization
    projectName := projectName
    cluster := cluster.1
    status := "pending"
    image := image
    projectYaml := input.projectYaml }

/-- The awaited step of a submission, or its status code with the row's id or the error. -/
inductive SubmissionPhase (Text : Type) where
  | loadCluster (input : Submission Text)
  | createDeployment (cluster : Nat × Cluster) (row : Deployment Text)
  | sendApply (cluster : Nat × Cluster) (id : Nat) (row : Deployment Text)
  | markError (id : Nat) (row : Deployment Text) (message : String)
  | returned (code : Nat) (result : Except String Nat)

/-- `deployment_error_response`: what is wrong inside is not told. -/
def deploymentErrorResponse : SubmitProjectDeploymentError → SubmissionPhase Text
  | .badRequest message => .returned 400 (.error message)
  | .conflict message => .returned 409 (.error message)
  | .agentUnavailable _ => .returned 503 (.error "Deployment agent is currently unavailable")
  | .internal _ => .returned 500 (.error "Internal server error")

/-- One awaited step of a submission. -/
def SubmissionPhase.advance (codec : ManifestCodec Text) (specErrors : Manifest → List String)
    (s : Records Text) (o : Outcome) :
    SubmissionPhase Text → Option (Records Text × SubmissionPhase Text)
  | .loadCluster input => some <|
    if o.fault.isSome then (s, .returned 500 (.error "Failed to load cluster"))
    else match s.clusters.first fun c ↦
        c.name = input.cluster && c.organization = input.organization with
      | none => (s, .returned 404 (.error "Cluster not found"))
      | some cluster =>
        match submittedDeployment codec specErrors input cluster with
        | .error e => (s, deploymentErrorResponse e)
        | .ok row => (s, .createDeployment cluster row)
  | .createDeployment cluster row => some <|
    match o.fault, s.createDeployment row with
    | none, some (t, id) => (t, .sendApply cluster id row)
    | e, _ => (s, deploymentErrorResponse
        (.internal ("Failed to create deployment: " ++ e.getD "constraint")))
  | .sendApply cluster id row => some <|
    match row.projectYaml, o.fault with
    | none, _ => (s, deploymentErrorResponse
        (.internal "Deployment row missing Project YAML after insert"))
    | some yaml, none =>
      (s.send (.applyProject cluster.1 row.projectName yaml), .returned 202 (.ok id))
    | some _, some e => (s, .markError id { row with status := "error" }
        s!"Failed to enqueue Project apply command: {e}")
  | .markError id row message => some
    -- a failed update is only logged
    (if o.fault.isSome then s else s.updateDeployment id row,
      deploymentErrorResponse (.agentUnavailable message))
  | .returned _ _ => none

end ReinhardtCloud.Dashboard

import ReinhardtCloud.Base.Pool
import ReinhardtCloud.Dashboard.Records

/-!
# Requests of the GitHub integration

Library `Dashboard`. The handlers of `apps/github/server_urls.rs`, `apps/github/server_fn.rs` and
`apps/deployments/server_fn.rs` as processes over the records. A phase is what a handler waits for,
with all it has read; going on performs that one query or outside call and computes up to the
next. Authentication and permission checks come before the first phase.
-/

namespace ReinhardtCloud.Dashboard

open ReinhardtCloud.Base ReinhardtCloud.Operator

/-- `GitHubInstallationRepository`, the entries of `list_repositories`. -/
structure InstallationRepository where
  id : Nat
  fullName : String
  ownerLogin : String
  name : String
  defaultBranch : String
  isPrivate : Bool
  deriving DecidableEq

/-- `GitHubUserInstallation`, the entries of `list_user_installations`. -/
structure UserInstallation where
  id : Nat
  accountId : Nat
  accountLogin : String
  accountType : String
  deriving DecidableEq

/-- How the awaited call ends: the error's text when it fails, whether an import's heartbeat ticks
first, and what GitHub answers. -/
structure Outcome where
  fault : Option String
  heartbeat : Bool
  listed : List InstallationRepository
  accessible : List UserInstallation
  deriving DecidableEq

/-- The awaited call succeeds. -/
def Outcome.success : Outcome := ⟨none, false, [], []⟩

/-- `ServerFnError`. -/
inductive ServerFnError where
  | application (message : String)
  | validation (field message : String)
  | server (code : Nat) (message : String)
  deriving DecidableEq

/-- `Response` and `AppError` of the views. -/
inductive ViewResult where
  | response (code : Nat) (status action : String)
  | redirect (location : String)
  | validation (message : String)
  | notFound (message : String)
  | authorization (message : String)
  | conflict (message : String)
  | internal (message : String)
  deriving DecidableEq

variable {Text : Type}

/-! ## `github_webhook`, `server_urls.rs:126–263` -/

/-- What a webhook has read and computed when it writes. -/
structure WebhookJob (Text : Type) where
  action : WebhookAction
  repository : Nat × GitHubRepository
  project : Nat × GitHubProject
  loaded : Deployment Text
  manifest : Text

/-- The row object it writes. -/
def WebhookJob.deployment (job : WebhookJob Text) : Deployment Text :=
  { job.loaded with projectYaml := some job.manifest, status := "pending" }

/-- The awaited step of a webhook whose signature has been verified and whose payload parsed. -/
inductive WebhookPhase (Text : Type) where
  | loadRepository (action : WebhookAction) (githubRepositoryId : Nat)
  | loadProject (action : WebhookAction) (repository : Nat × GitHubRepository)
  | loadDeployment (action : WebhookAction) (repository : Nat × GitHubRepository)
      (project : Nat × GitHubProject)
  | updateDeployment (job : WebhookJob Text)
  | loadCluster (job : WebhookJob Text)
  | loadInstallation (job : WebhookJob Text) (cluster : Cluster)
  | mintToken (job : WebhookJob Text) (cluster : Cluster) (installation : GitHubInstallation)
  | sendCredentials (job : WebhookJob Text) (cluster : Cluster) (token : InstallationToken)
  | sendApply (job : WebhookJob Text) (cluster : Cluster)
  | markError (job : WebhookJob Text) (message : String)
  | returned (action : WebhookAction) (result : ViewResult)

/-- `webhook_action_name`. -/
def webhookActionName : WebhookAction → String
  | .buildTrigger _ _ => "build_trigger"
  | .previewCreate _ _ _ => "preview_create"
  | .previewDelete _ => "preview_delete"
  | .tagRelease _ _ => "tag_release"
  | .ignored => "ignored"

/-- `should_refresh_git_credentials_for_webhook`. -/
def shouldRefreshGitCredentialsForWebhook : WebhookAction → Bool
  | .buildTrigger _ _ => true
  | .previewCreate _ _ _ => true
  | .tagRelease _ _ => true
  | .previewDelete _ => false
  | .ignored => false

/-- The manifest a webhook is about to write for a loaded deployment, or its answer. -/
def editManifest (codec : ManifestCodec Text) (action : WebhookAction)
    (repository : Nat × GitHubRepository) (project : Nat × GitHubProject)
    (loaded : Deployment Text) : WebhookPhase Text :=
  match loaded.projectYaml with
  | none => .returned action (.response 409 "error" "missing_manifest")
  | some currentYaml =>
    match applyWebhookActionToManifest codec currentYaml action project.2.productionBranch with
    | .error e => .returned action (.validation e)
    | .ok none => .returned action (.response 200 "ignored" (webhookActionName action))
    | .ok (some nextYaml) => .updateDeployment ⟨action, repository, project, loaded, nextYaml⟩

/-- The failure of the credentials refresh. -/
def refreshFailed (job : WebhookJob Text) : WebhookPhase Text :=
  .markError job "Failed to refresh GitHub repository credentials"

/-- One awaited step of a webhook. -/
def WebhookPhase.advance (codec : ManifestCodec Text) (s : Records Text) (o : Outcome) :
    WebhookPhase Text → Option (Records Text × WebhookPhase Text)
  | .loadRepository action githubRepositoryId => some <|
    if o.fault.isSome then (s, .returned action (.internal "Failed to load GitHub repository"))
    else match s.repositories.first fun r ↦ r.githubRepositoryId = githubRepositoryId with
      | none => (s, .returned action (.response 200 "ignored" "repository_not_imported"))
      | some repository => (s, .loadProject action repository)
  | .loadProject action repository => some <|
    if o.fault.isSome then (s, .returned action (.internal "Failed to load GitHub project"))
    else match s.projects.first fun p ↦ p.repository = repository.1 with
      | none => (s, .returned action (.response 200 "ignored" "project_not_imported"))
      | some project => (s, .loadDeployment action repository project)
  | .loadDeployment action repository project => some <|
    if o.fault.isSome then (s, .returned action (.internal "Failed to load deployment"))
    else match s.deployments.get project.2.deployment with
      | none => (s, .returned action (.notFound "Deployment not found"))
      | some loaded => (s, editManifest codec action repository project loaded)
  | .updateDeployment job => some <|
    if o.fault.isSome then (s, .returned job.action (.internal "Failed to update deployment"))
    else (s.updateDeployment job.project.2.deployment job.deployment, .loadCluster job)
  | .loadCluster job => some <|
    if o.fault.isSome then
      (s, .returned job.action (.internal "Failed to load deployment cluster"))
    else match s.clusters.get job.loaded.cluster with
      | none => (s, .returned job.action (.notFound "Deployment cluster not found"))
      | some cluster =>
        -- `refresh_git_credentials_secret_for_webhook` passes over public repositories
        if shouldRefreshGitCredentialsForWebhook job.action && job.repository.2.isPrivate then
          (s, .loadInstallation job cluster)
        else (s, .sendApply job cluster)
  | .loadInstallation job cluster => some <|
    if o.fault.isSome then (s, refreshFailed job)
    else match s.installations.get job.repository.2.installation with
      | none => (s, refreshFailed job)
      | some installation => (s, .mintToken job cluster installation)
  | .mintToken job cluster installation => some <|
    if o.fault.isSome then (s, refreshFailed job)
    else (s, .sendCredentials job cluster
      ⟨installation.installationId, job.repository.2.githubRepositoryId⟩)
  | .sendCredentials job cluster token => some <|
    match o.fault, validateClusterForApply cluster, codec.ofText job.manifest with
    | none, .ok (), .ok app =>
      (s.send (.applyGitCredentialsSecret job.loaded.cluster job.project.2.projectName app.ns
        (githubCredentialsSecretName job.project.2.projectName) token), .sendApply job cluster)
    | _, _, _ => (s, refreshFailed job)
  | .sendApply job cluster => some <|
    match o.fault, validateClusterForApply cluster with
    | none, .ok () =>
      (s.send (.applyProject job.loaded.cluster job.project.2.projectName job.manifest),
        .returned job.action (.response 202 "accepted" (webhookActionName job.action)))
    | _, _ => (s, .markError job "Failed to apply Project manifest")
  | .markError job message => some <|
    -- a failed update is only logged
    if o.fault.isSome then (s, .returned job.action (.internal message))
    else (s.updateDeployment job.project.2.deployment { job.deployment with status := "error" },
      .returned job.action (.internal message))
  | .returned _ _ => none

/-! ## The deployment forms, `server_fn.rs:398–460,524–569` -/

/-- The fields a form sets: `update_deployment_for_current_org` or
`update_deployment_status_for_current_org`. -/
inductive DeploymentEdit where
  | details (projectName image status : String)
  | statusOnly (status : String)
  deriving DecidableEq

/-- The error of the first blank field. -/
def DeploymentEdit.blankField : DeploymentEdit → Option ServerFnError
  | .details projectName image status =>
    if projectName = "" then some (.validation "project_name" "Project name cannot be blank")
    else if image = "" then some (.validation "image" "Image cannot be blank")
    else if status = "" then some (.validation "status" "Status cannot be blank")
    else none
  | .statusOnly status =>
    if status = "" then some (.validation "status" "Status cannot be blank") else none

/-- The row object after the assignments. -/
def DeploymentEdit.apply (edit : DeploymentEdit) (row : Deployment Text) : Deployment Text :=
  match edit with
  | .details projectName image status =>
    { row with projectName := projectName, image := image, status := status }
  | .statusOnly status => { row with status := status }

/-- A form leaves the organization, the cluster and the manifest. -/
theorem DeploymentEdit.apply_keeps (edit : DeploymentEdit) (row : Deployment Text) :
    (edit.apply row).organization = row.organization ∧ (edit.apply row).cluster = row.cluster ∧
      (edit.apply row).projectYaml = row.projectYaml := by
  cases edit <;> exact ⟨rfl, rfl, rfl⟩

/-- The awaited step of a form handler. -/
inductive FormPhase (Text : Type) where
  | load (organization deployment : Nat) (edit : DeploymentEdit)
  | update (deployment : Nat) (edit : DeploymentEdit) (loaded : Deployment Text)
  | returned (result : Except ServerFnError (Deployment Text))

/-- A form handler up to its first query. -/
def FormPhase.start (organization deployment : Nat) (edit : DeploymentEdit) : FormPhase Text :=
  match edit.blankField with
  | some e => .returned (.error e)
  | none => .load organization deployment edit

/-- One awaited step of a form handler. -/
def FormPhase.advance (s : Records Text) (o : Outcome) :
    FormPhase Text → Option (Records Text × FormPhase Text)
  | .load organization deployment edit => some <|
    match o.fault with
    | some e => (s, .returned (.error (.application s!"Failed to load deployment: {e}")))
    | none =>
      match (s.deployments.get deployment).filter fun row ↦ row.organization = organization with
      | none => (s, .returned (.error (.validation "deployment_id"
          "The selected deployment is not available")))
      | some loaded => (s, .update deployment edit loaded)
  | .update deployment edit loaded => some <|
    match o.fault, edit with
    | some e, .details _ _ _ =>
      (s, .returned (.error (.application s!"Failed to update deployment: {e}")))
    | some e, .statusOnly _ =>
      (s, .returned (.error (.application s!"Failed to update status: {e}")))
    | none, _ =>
      (s.updateDeployment deployment (edit.apply loaded), .returned (.ok (edit.apply loaded)))
  | .returned _ => none

/-! ## `delete_deployment_for_current_org`, `server_fn.rs:463–522` -/

/-- The awaited step of a deletion. -/
inductive DeletePhase where
  | load (organization deployment : Nat)
  | transaction (organization deployment : Nat)
  | returned (result : Except ServerFnError Unit)

/-- One awaited step of a deletion. -/
def DeletePhase.advance (s : Records Text) (o : Outcome) :
    DeletePhase → Option (Records Text × DeletePhase)
  | .load organization deployment => some <|
    match o.fault with
    | some e => (s, .returned (.error (.application s!"Failed to load deployment: {e}")))
    | none =>
      match (s.deployments.get deployment).filter fun row ↦ row.organization = organization with
      | none => (s, .returned (.error (.server 404 "Deployment not found")))
      | some _ => (s, .transaction organization deployment)
  | .transaction organization deployment => some <|
    match o.fault with
    | some e => (s, .returned (.error (.application s!"Failed to delete deployment: {e}")))
    | none => (s.deleteDeploymentTransaction organization deployment, .returned (.ok ()))
  | .returned _ => none

/-! ## What a step leaves -/

section Frames

variable {codec : ManifestCodec Text} {s t : Records Text} {o : Outcome}

/-- A webhook changes deployments and queues commands; the other tables and the clock stay. -/
theorem WebhookPhase.advance_frame {p p' : WebhookPhase Text}
    (h : p.advance codec s o = some (t, p')) :
    t = { s with deployments := t.deployments, outbox := t.outbox } := by
  have hwrite (id : Nat) (row : Deployment Text) : s.updateDeployment id row =
      { s with deployments := (s.updateDeployment id row).deployments } := rfl
  have hsend (c : AgentCommand Text) : s.send c = { s with outbox := (s.send c).outbox } := rfl
  cases p with
  | loadRepository | loadProject | loadDeployment | loadCluster | loadInstallation | mintToken =>
    simp only [advance, Option.some.injEq] at h
    split at h <;> (try split at h) <;> (try split at h) <;> cases h <;> rfl
  | updateDeployment job | markError job message =>
    simp only [advance, Option.some.injEq] at h
    split at h <;> cases h
    · rfl
    · exact hwrite _ _
  | sendCredentials job cluster token | sendApply job cluster =>
    simp only [advance, Option.some.injEq] at h
    split at h <;> cases h
    · exact hsend _
    · rfl
  | returned => cases h

/-- A webhook writes a deployment when it stores the edited manifest and when it reports an
error. -/
theorem WebhookPhase.advance_deployments {p p' : WebhookPhase Text}
    (h : p.advance codec s o = some (t, p')) : t.deployments = s.deployments ∨
      ∃ job status, (p = .updateDeployment job ∨ ∃ message, p = .markError job message) ∧
        t.deployments = s.deployments.set job.project.2.deployment
          { job.deployment with status := status } := by
  cases p with
  | loadRepository | loadProject | loadDeployment | loadCluster | loadInstallation | mintToken =>
    simp only [advance, Option.some.injEq] at h
    split at h <;> (try split at h) <;> (try split at h) <;> cases h <;> exact .inl rfl
  | updateDeployment job =>
    simp only [advance, Option.some.injEq] at h
    split at h <;> cases h
    · exact .inl rfl
    · exact .inr ⟨job, "pending", .inl rfl, rfl⟩
  | sendCredentials job cluster token | sendApply job cluster =>
    simp only [advance, Option.some.injEq] at h
    split at h <;> cases h <;> exact .inl rfl
  | markError job message =>
    simp only [advance, Option.some.injEq] at h
    split at h <;> cases h
    · exact .inl rfl
    · exact .inr ⟨job, "error", .inr ⟨message, rfl⟩, rfl⟩
  | returned => cases h

/-- A webhook sends the credentials it has minted or the manifest it has stored. -/
theorem WebhookPhase.advance_outbox {p p' : WebhookPhase Text}
    (h : p.advance codec s o = some (t, p')) : t.outbox = s.outbox ∨
      (∃ job cluster token, p = .sendCredentials job cluster token) ∨
      ∃ job cluster, p = .sendApply job cluster ∧ t.outbox = s.outbox ++
        [.applyProject job.loaded.cluster job.project.2.projectName job.manifest] := by
  cases p with
  | loadRepository | loadProject | loadDeployment | loadCluster | loadInstallation | mintToken =>
    simp only [advance, Option.some.injEq] at h
    split at h <;> (try split at h) <;> (try split at h) <;> cases h <;> exact .inl rfl
  | updateDeployment job | markError job message =>
    simp only [advance, Option.some.injEq] at h
    split at h <;> cases h <;> exact .inl rfl
  | sendCredentials job cluster token => exact .inr (.inl ⟨job, cluster, token, rfl⟩)
  | sendApply job cluster =>
    simp only [advance, Option.some.injEq] at h
    split at h <;> cases h
    · exact .inr (.inr ⟨job, cluster, rfl, rfl⟩)
    · exact .inl rfl
  | returned => cases h

/-- A form changes deployments only. -/
theorem FormPhase.advance_frame {p p' : FormPhase Text} (h : p.advance s o = some (t, p')) :
    t = { s with deployments := t.deployments } := by
  cases p with
  | load organization deployment edit =>
    simp only [advance, Option.some.injEq] at h
    split at h <;> (try split at h) <;> cases h <;> rfl
  | update deployment edit loaded =>
    simp only [advance, Option.some.injEq] at h
    split at h <;> cases h <;> rfl
  | returned => cases h

/-- A deletion changes the records in its transaction only. -/
theorem DeletePhase.advance_cases {p p' : DeletePhase} (h : p.advance s o = some (t, p')) :
    t = s ∨ ∃ organization deployment, p = .transaction organization deployment ∧
      o.fault = none ∧ t = s.deleteDeploymentTransaction organization deployment := by
  cases p with
  | load organization deployment =>
    simp only [advance, Option.some.injEq] at h
    split at h <;> (try split at h) <;> cases h <;> exact .inl rfl
  | transaction organization deployment =>
    simp only [advance, Option.some.injEq] at h
    split at h
    · cases h
      exact .inl rfl
    · next hfault =>
      cases h
      exact .inr ⟨organization, deployment, rfl, hfault, rfl⟩
  | returned => cases h

end Frames

end ReinhardtCloud.Dashboard

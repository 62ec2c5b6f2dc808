import ReinhardtCloud.Dashboard.Requests

/-!
# Imports, synchronisation and installations

Library `Dashboard`. The rest of the handlers as processes over the records: imports with their
lease and heartbeat (`apps/github/server_fn.rs:488–761`), the repository listings with
`sync_repositories_for_installation` (`server_fn.rs:321–424,762–916`), `github_setup` and the
installation webhook (`server_urls.rs:40–96,275–393`).
-/

namespace ReinhardtCloud.Dashboard

open ReinhardtCloud.Base ReinhardtCloud.Operator

variable {Text : Type}

/-! ## `import_github_repository_for_current_org` -/

/-- `GITHUB_IMPORT_CLAIM_TTL_SECONDS` in microseconds. -/
def githubImportClaimTtl : Timestamp := 30 * 60 * 1000000

/-- `github_import_claim_is_stale`. -/
def githubImportClaimIsStale (claimStartedAt now : Timestamp) : Bool :=
  claimStartedAt + githubImportClaimTtl ≤ now

/-- The import request of an organization, its ids parsed. -/
structure ImportRequest where
  organization : Nat
  repositoryId : Nat
  clusterId : Nat
  projectName : String
  registry : String
  deriving DecidableEq

/-- What an import has read before it claims. -/
structure ImportJob where
  request : ImportRequest
  cluster : Cluster
  repository : GitHubRepository
  installation : GitHubInstallation
  deriving DecidableEq

/-- What the claimed import waits for next. -/
inductive ImportStage (Text : Type) where
  | mintToken (spec : GitHubImportSpec)
  | sendCredentials (spec : GitHubImportSpec) (manifest : Text) (secretName : String)
      (token : InstallationToken)
  | sendApply (spec : GitHubImportSpec) (manifest : Text)
  | createDeployment (spec : GitHubImportSpec) (manifest : Text)
  | createProject (spec : GitHubImportSpec) (deployment : Nat)
  | rollBack (deployment : Nat) (error : ServerFnError)

/-- The awaited step of an import. While it is claimed the heartbeat takes turns with the stages. -/
inductive ImportPhase (Text : Type) where
  | loadCluster (request : ImportRequest)
  | loadRepository (request : ImportRequest) (cluster : Cluster)
  | loadInstallation (request : ImportRequest) (cluster : Cluster) (repository : GitHubRepository)
  | checkProject (job : ImportJob)
  | readLeaseClock (job : ImportJob)
  | recover (job : ImportJob)
  | readClaimClock (job : ImportJob)
  | claim (job : ImportJob) (startedAt : Timestamp)
  | running (job : ImportJob) (claimedAt : Timestamp) (stage : ImportStage Text)
  | renewing (job : ImportJob) (claimedAt renewedAt : Timestamp) (stage : ImportStage Text)
  | releasing (job : ImportJob) (claimedAt : Timestamp) (error : ServerFnError)
  | returned (result : Except ServerFnError GitHubProject)

/-- The checks before the first query. -/
def ImportPhase.start (request : ImportRequest) : ImportPhase Text :=
  match (if trim request.projectName = "" then .ok "" else validateProjectName request.projectName),
    validateRegistry request.registry with
  | .error e, _ => .returned (.error (.validation "project_name" e))
  | .ok _, .error e => .returned (.error (.validation "registry" e))
  | .ok projectName, .ok registry =>
    .loadCluster { request with projectName := projectName, registry := registry }

/-- The claim the request observes, `server_fn.rs:563–566`. -/
def observedClaimedAt (repository : GitHubRepository) : Option Timestamp :=
  repository.importClaimedAt.or
    (if repository.selected then some repository.updatedAt else none)

/-- Whether the observed claim is recovered first, `server_fn.rs:567–577`. -/
def recoversClaim (repository : GitHubRepository) (now : Timestamp) : Bool :=
  repository.selected &&
    (observedClaimedAt repository).any fun claimedAt ↦ githubImportClaimIsStale claimedAt now

/-- The claimed import up to its first outside call. -/
def beginImport (job : ImportJob) (claimedAt : Timestamp) : ImportPhase Text :=
  match importSpecFromRepository job.repository job.request.projectName job.request.registry with
  | .ok spec => .running job claimedAt (.mintToken spec)
  | .error message => .releasing job claimedAt (.validation
      (if job.request.projectName = "" then "repository_id" else "project_name") message)

/-- The row an import inserts, `server_fn.rs:669–677`. -/
def importedDeployment (job : ImportJob) (spec : GitHubImportSpec) (manifest : Text) :
    Deployment Text where
  organization := job.request.organization
  projectName := spec.projectName
  cluster := job.request.clusterId
  status := "pending"
  image := s!"{spec.registry}:pending"
  projectYaml := some manifest

/-- The project row an import inserts. -/
def importedGithubProject (job : ImportJob) (spec : GitHubImportSpec) (deployment : Nat) :
    GitHubProject where
  organization := job.request.organization
  repository := job.request.repositoryId
  deployment := deployment
  projectName := spec.projectName
  productionBranch := spec.branch
  status := "imported"

/-- After the token: the pipeline and the manifest, then the credentials of a private repository. -/
def prepareImport (codec : ManifestCodec Text) (job : ImportJob) (claimedAt : Timestamp)
    (spec : GitHubImportSpec) : ImportPhase Text :=
  let spec := enrichImportSpec spec job.repository
  match sourceProjectYaml codec spec with
  | .error e => .releasing job claimedAt (.server 400 e)
  | .ok manifest =>
    match spec.credentialsSecret with
    | some secretName => .running job claimedAt (.sendCredentials spec manifest secretName
        ⟨job.installation.installationId, job.repository.githubRepositoryId⟩)
    | none => .running job claimedAt (.sendApply spec manifest)

/-- One awaited step of the claimed import itself. -/
def ImportStage.advance (codec : ManifestCodec Text) (s : Records Text) (fault : Option String)
    (job : ImportJob) (claimedAt : Timestamp) :
    ImportStage Text → Records Text × ImportPhase Text
  | .mintToken spec =>
    match fault with
    | some e => (s, .releasing job claimedAt
        (.application s!"Failed to create GitHub installation access token: {e}"))
    | none => (s, prepareImport codec job claimedAt spec)
  | .sendCredentials spec manifest secretName token =>
    match validateClusterForApply job.cluster, fault with
    | .ok (), none =>
      (s.send (.applyGitCredentialsSecret job.request.clusterId spec.projectName spec.ns secretName
        token), .running job claimedAt (.sendApply spec manifest))
    | .error e, _ => (s, .releasing job claimedAt
        (.application s!"Failed to apply GitHub repository credentials: {e}"))
    | .ok (), some e => (s, .releasing job claimedAt
        (.application s!"Failed to apply GitHub repository credentials: {e}"))
  | .sendApply spec manifest =>
    match validateClusterForApply job.cluster, fault with
    | .ok (), none =>
      (s.send (.applyProject job.request.clusterId spec.projectName manifest),
        .running job claimedAt (.createDeployment spec manifest))
    | .error e, _ => (s, .releasing job claimedAt
        (.application s!"Failed to apply Project manifest: {e}"))
    | .ok (), some e => (s, .releasing job claimedAt
        (.application s!"Failed to apply Project manifest: {e}"))
  | .createDeployment spec manifest =>
    match fault, s.createDeployment (importedDeployment job spec manifest) with
    | none, some (t, deployment) => (t, .running job claimedAt (.createProject spec deployment))
    | e, _ => (s, .releasing job claimedAt
        (.application ("Failed to create deployment: " ++ e.getD "constraint")))
  | .createProject spec deployment =>
    match fault, s.createProject (importedGithubProject job spec deployment) with
    | none, some t => (t, .returned (.ok (importedGithubProject job spec deployment)))
    | e, _ => (s, .running job claimedAt (.rollBack deployment
        (.application ("Failed to create GitHub project: " ++ e.getD "constraint"))))
  | .rollBack deployment error =>
    -- a failed rollback is only logged
    if fault.isSome then (s, .releasing job claimedAt error)
    else (s.deleteDeployments fun k _ ↦ k = deployment, .releasing job claimedAt error)

/-- One awaited step of an import. -/
def ImportPhase.advance (codec : ManifestCodec Text) (s : Records Text) (o : Outcome) :
    ImportPhase Text → Option (Records Text × ImportPhase Text)
  | .loadCluster request => some <|
    match o.fault with
    | some e => (s, .returned (.error (.application s!"Failed to load cluster: {e}")))
    | none =>
      match (s.clusters.get request.clusterId).filter fun c ↦
          c.organization = request.organization && c.isActive with
      | none => (s, .returned (.error (.validation "cluster_id" "Select an active cluster")))
      | some cluster => (s, .loadRepository request cluster)
  | .loadRepository request cluster => some <|
    match o.fault with
    | some e => (s, .returned (.error (.application s!"Failed to load GitHub repository: {e}")))
    | none =>
      match s.repositories.get request.repositoryId with
      | none => (s, .returned (.error (.validation "repository_id" "Select a GitHub repository")))
      | some repository => (s, .loadInstallation request cluster repository)
  | .loadInstallation request cluster repository => some <|
    match o.fault with
    | some e => (s, .returned (.error (.application s!"Failed to load GitHub installation: {e}")))
    | none =>
      match (s.installations.get repository.installation).filter fun i ↦
          i.organization = request.organization with
      | none => (s, .returned (.error (.validation "repository_id" "Select a GitHub repository")))
      | some installation => (s, .checkProject ⟨request, cluster, repository, installation⟩)
  | .checkProject job => some <|
    match o.fault with
    | some e => (s, .returned (.error (.application s!"Failed to check GitHub project: {e}")))
    | none =>
      if (s.projects.first fun p ↦ p.repository = job.request.repositoryId).isSome then
        (s, .returned (.error (.validation "repository_id"
          "GitHub repository is already imported")))
      else (s, .readLeaseClock job)
  | .readLeaseClock job => some
    (s, if recoversClaim job.repository s.now then .recover job else .readClaimClock job)
  | .recover job => some <|
    match o.fault with
    | some e => (s, .returned (.error (.application
        s!"Failed to recover GitHub repository import claim: {e}")))
    | none => ((s.recoverGithubImportClaim job.request.repositoryId
        job.repository.importClaimedAt job.repository.updatedAt).1, .readClaimClock job)
  | .readClaimClock job => some (s, .claim job s.now)
  | .claim job startedAt => some <|
    match o.fault with
    | some e => (s, .returned (.error (.application
        s!"Failed to claim GitHub repository import: {e}")))
    | none =>
      match s.claimGithubImport job.request.repositoryId startedAt with
      | (t, 1) => (t, beginImport job startedAt)
      | (t, _) => (t, .returned (.error (.validation "repository_id"
          "GitHub repository is already importing or imported")))
  | .running job claimedAt stage => some <|
    if o.heartbeat then (s, .renewing job claimedAt (max s.now (claimedAt + 1)) stage)
    else stage.advance codec s o.fault job claimedAt
  | .renewing job claimedAt renewedAt stage => some <|
    match o.fault with
    | some e => (s, .releasing job claimedAt
        (.application s!"Failed to renew GitHub repository import claim: {e}"))
    | none =>
      match s.renewGithubImportClaim job.request.repositoryId claimedAt renewedAt with
      | (t, 1) => (t, .running job renewedAt stage)
      | (t, _) => (t, .releasing job claimedAt
          (.application "GitHub repository import claim was lost"))
  | .releasing job claimedAt error => some <|
    -- a failed release is only logged
    if o.fault.isSome then (s, .returned (.error error))
    else ((s.releaseGithubImportClaim job.request.repositoryId claimedAt).1,
      .returned (.error error))
  | .returned _ => none

/-- The repository row an import has claimed, with its lease, until it returns. -/
def ImportPhase.lease : ImportPhase Text → Option (Nat × Timestamp)
  | .running job claimedAt _ => some (job.request.repositoryId, claimedAt)
  | .renewing job claimedAt _ _ => some (job.request.repositoryId, claimedAt)
  | .releasing job claimedAt _ => some (job.request.repositoryId, claimedAt)
  | _ => none

/-! ## `sync_repositories_for_installation` in the repository listings -/

/-- The awaited step of a listing: it loads the installations, of which one or all active ones of
the organization are wanted, and synchronises them one after the other. -/
inductive SyncPhase where
  | load (organization : Nat) (wanted : Option Nat)
  | list (installation : Nat × GitHubInstallation) (todo : List (Nat × GitHubInstallation))
  | lookup (installation : Nat) (next : InstallationRepository)
      (rest : List InstallationRepository) (todo : List (Nat × GitHubInstallation))
  | updateFields (installation : Nat) (id : Nat) (existing : GitHubRepository)
      (rest : List InstallationRepository) (todo : List (Nat × GitHubInstallation))
  | updateRow (installation : Nat) (id : Nat) (existing : GitHubRepository)
      (rest : List InstallationRepository) (todo : List (Nat × GitHubInstallation))
  | create (installation : Nat) (next : GitHubRepository)
      (rest : List InstallationRepository) (todo : List (Nat × GitHubInstallation))
  | returned (result : Except ServerFnError Unit)

/-- `repository_from_installation_repository`, `server_fn.rs:301–318`. -/
def repositoryFromInstallationRepository (installation : Nat)
    (repository : InstallationRepository) : GitHubRepository where
  installation := installation
  githubRepositoryId := repository.id
  fullName := repository.fullName
  ownerLogin := repository.ownerLogin
  name := repository.name
  defaultBranch := repository.defaultBranch
  isPrivate := repository.isPrivate
  selected := false
  importClaimedAt := none
  updatedAt := 0

/-- The loaded row with the columns GitHub reports, `server_fn.rs:353–360`. -/
def refreshMetadata (existing next : GitHubRepository) : GitHubRepository :=
  { existing with
    installation := next.installation
    fullName := next.fullName
    ownerLogin := next.ownerLogin
    name := next.name
    defaultBranch := next.defaultBranch
    isPrivate := next.isPrivate }

/-- What comes after one installation. -/
def SyncPhase.nextInstallation : List (Nat × GitHubInstallation) → SyncPhase
  | [] => .returned (.ok ())
  | installation :: todo => .list installation todo

/-- What comes after one repository. -/
def SyncPhase.nextRepository (installation : Nat) (todo : List (Nat × GitHubInstallation)) :
    List InstallationRepository → SyncPhase
  | [] => .nextInstallation todo
  | next :: rest => .lookup installation next rest todo

/-- One awaited step of a listing. -/
def SyncPhase.advance (s : Records Text) (o : Outcome) :
    SyncPhase → Option (Records Text × SyncPhase)
  | .load organization wanted => some <|
    match o.fault, wanted with
    | some e, some _ =>
      (s, .returned (.error (.application s!"Failed to load GitHub installation: {e}")))
    | some e, none =>
      (s, .returned (.error (.application s!"Failed to list GitHub installations: {e}")))
    | none, some id =>
      match (s.installations.get id).filter fun i ↦ i.organization = organization with
      | none => (s, .returned (.error (.server 404 "GitHub installation not found")))
      | some installation => (s, .list (id, installation) [])
    | none, none => (s, .nextInstallation (s.installations.all fun i ↦
        i.organization = organization && i.status = "active"))
  | .list installation todo => some <|
    match o.fault with
    | some e => (s, .returned (.error (.application s!"Failed to sync GitHub repositories: {e}")))
    | none => (s, .nextRepository installation.1 todo o.listed)
  | .lookup installation next rest todo => some <|
    match o.fault with
    | some e =>
      (s, .returned (.error (.application s!"Failed to load cached GitHub repository: {e}")))
    | none =>
      let row := repositoryFromInstallationRepository installation next
      match s.repositories.first fun r ↦ r.githubRepositoryId = row.githubRepositoryId with
      | none => (s, .create installation row rest todo)
      | some (id, existing) =>
        let existing := refreshMetadata existing row
        if existing.selected then (s, .updateFields installation id existing rest todo)
        else (s, .updateRow installation id existing rest todo)
  | .updateFields installation id existing rest todo => some <|
    match o.fault with
    | some e =>
      (s, .returned (.error (.application s!"Failed to update cached GitHub repository: {e}")))
    | none => ((s.updateRepositoryFields id (fun _ ↦ true) fun row ↦
        refreshMetadata row existing).1, .nextRepository installation todo rest)
  | .updateRow installation id existing rest todo => some <|
    match o.fault with
    | some e =>
      (s, .returned (.error (.application s!"Failed to update cached GitHub repository: {e}")))
    | none => (s.updateRepository id existing, .nextRepository installation todo rest)
  | .create installation row rest todo => some <|
    match o.fault, s.createRepository row with
    | none, some t => (t, .nextRepository installation todo rest)
    | e, _ => (s, .returned (.error (.application
        ("Failed to cache GitHub repository: " ++ e.getD "constraint"))))
  | .returned _ => none

/-! ## `github_setup` -/

/-- The awaited step of a setup: GitHub's list, the stored row, the write. -/
inductive SetupPhase where
  | verify (organization installationId : Nat)
  | lookup (organization : Nat) (installation : UserInstallation)
  | update (id : Nat) (row : GitHubInstallation)
  | create (row : GitHubInstallation)
  | returned (result : ViewResult)

/-- The redirect and the database failure of a setup. -/
def setupDone : SetupPhase := .returned (.redirect "/github")
def setupFailed : SetupPhase := .returned (.internal "Failed to persist GitHub installation")

/-- One awaited step of a setup whose user may update the organization that its state names. -/
def SetupPhase.advance (s : Records Text) (o : Outcome) :
    SetupPhase → Option (Records Text × SetupPhase)
  | .verify organization installationId => some <|
    if o.fault.isSome then (s, .returned (.internal "Failed to verify GitHub App installation"))
    else match o.accessible.find? fun i ↦ i.id = installationId with
      | none => (s, .returned (.authorization
          "GitHub App installation is not accessible to this user"))
      | some installation => (s, .lookup organization installation)
  | .lookup organization installation => some <|
    if o.fault.isSome then (s, setupFailed)
    else match s.installations.first fun i ↦ i.installationId = installation.id with
      | some (id, existing) =>
        if existing.organization ≠ organization then
          (s, .returned (.conflict
            "GitHub App installation is already linked to another organization"))
        else (s, .update id { existing with
          accountId := installation.accountId
          accountLogin := installation.accountLogin
          accountType := installation.accountType
          status := "active" })
      | none => (s, .create ⟨organization, installation.id, installation.accountId,
          installation.accountLogin, installation.accountType, "active"⟩)
  | .update id row => some <|
    if o.fault.isSome then (s, setupFailed) else (s.updateInstallation id row, setupDone)
  | .create row => some <|
    match o.fault, s.createInstallation row with
    | none, some t => (t, setupDone)
    | _, _ => (s, setupFailed)
  | .returned _ => none

/-! ## `reconcile_installation_webhook` -/

/-- The awaited step of an installation webhook, with the account and status it reports. -/
inductive InstallationPhase where
  | lookup (installation : UserInstallation) (status : String)
  | update (id : Nat) (row : GitHubInstallation)
  | returned (result : ViewResult)

/-- The answer to an installation webhook. -/
def installationAccepted : InstallationPhase := .returned (.response 202 "accepted" "installation")
def installationFailed : InstallationPhase :=
  .returned (.internal "Failed to reconcile GitHub installation")

/-- The payload's action as a status. -/
def installationStatus (action : String) : Option String :=
  if action = "created" || action = "unsuspend" || action = "new_permissions_accepted" then
    some "active"
  else if action = "deleted" then some "inactive"
  else if action = "suspend" then some "suspended"
  else none

/-- An installation webhook up to its first query. -/
def InstallationPhase.start (action : String) (installation : UserInstallation) :
    InstallationPhase :=
  match installationStatus action with
  | some status => .lookup installation status
  | none => installationAccepted

/-- One awaited step of an installation webhook. -/
def InstallationPhase.advance (s : Records Text) (o : Outcome) :
    InstallationPhase → Option (Records Text × InstallationPhase)
  | .lookup installation status => some <|
    if o.fault.isSome then (s, installationFailed)
    else match s.installations.first fun i ↦ i.installationId = installation.id with
      | none => (s, installationAccepted)
      | some (id, existing) => (s, .update id { existing with
          accountId := installation.accountId
          accountLogin := installation.accountLogin
          accountType := installation.accountType
          status := status })
  | .update id row => some <|
    if o.fault.isSome then (s, installationFailed)
    else (s.updateInstallation id row, installationAccepted)
  | .returned _ => none

/-! ## What a step leaves -/

section Frames

variable {codec : ManifestCodec Text} {s t : Records Text} {o : Outcome}

theorem ImportStage.advance_frame {fault : Option String} {job : ImportJob}
    {claimedAt : Timestamp} {stage : ImportStage Text} {p' : ImportPhase Text}
    (h : stage.advance codec s fault job claimedAt = (t, p')) :
    t = { s with deployments := t.deployments, projects := t.projects, outbox := t.outbox } := by
  cases stage with
  | mintToken spec =>
    simp only [advance] at h
    split at h <;> cases h <;> rfl
  | sendCredentials spec manifest secretName token | sendApply spec manifest =>
    simp only [advance] at h
    split at h <;> cases h <;> rfl
  | createDeployment spec manifest =>
    simp only [advance] at h
    split at h
    · next hcreate =>
      cases h
      obtain ⟨rfl, -⟩ := Records.createDeployment_eq_some hcreate
      rfl
    · cases h
      rfl
  | createProject spec deployment =>
    simp only [advance] at h
    split at h
    · next hcreate =>
      cases h
      obtain rfl := Records.createProject_eq_some hcreate
      rfl
    · cases h
      rfl
  | rollBack deployment error =>
    simp only [advance] at h
    split at h <;> cases h <;> rfl

theorem lease_beginImport (job : ImportJob) (claimedAt : Timestamp) :
    (beginImport job claimedAt : ImportPhase Text).lease =
      some (job.request.repositoryId, claimedAt) := by
  unfold beginImport
  split <;> rfl

theorem lease_prepareImport (codec : ManifestCodec Text) (job : ImportJob) (claimedAt : Timestamp)
    (spec : GitHubImportSpec) :
    (prepareImport codec job claimedAt spec).lease =
      some (job.request.repositoryId, claimedAt) := by
  unfold prepareImport
  dsimp only
  split
  · rfl
  · split <;> rfl

/-- A claimed import keeps its lease until it returns. -/
theorem ImportStage.advance_next {fault : Option String} {job : ImportJob}
    {claimedAt : Timestamp} {stage : ImportStage Text} {p' : ImportPhase Text}
    (h : stage.advance codec s fault job claimedAt = (t, p')) :
    p'.lease = some (job.request.repositoryId, claimedAt) ∨ ∃ result, p' = .returned result := by
  cases stage with
  | mintToken spec =>
    simp only [advance] at h
    split at h <;> cases h
    · exact .inl rfl
    · exact .inl (lease_prepareImport codec job claimedAt spec)
  | sendCredentials spec manifest secretName token | sendApply spec manifest =>
    simp only [advance] at h
    split at h <;> cases h <;> exact .inl rfl
  | createDeployment spec manifest =>
    simp only [advance] at h
    split at h <;> cases h <;> exact .inl rfl
  | createProject spec deployment =>
    simp only [advance] at h
    split at h <;> cases h
    · exact .inr ⟨_, rfl⟩
    · exact .inl rfl
  | rollBack deployment error =>
    simp only [advance] at h
    split at h <;> cases h <;> exact .inl rfl

/-- What one step of an import does: it reads, goes on by a stage, or issues one of its four
conditional updates of the repository. -/
theorem ImportPhase.advance_cases {p p' : ImportPhase Text}
    (h : p.advance codec s o = some (t, p')) :
    (t = s ∧ (p'.lease = p.lease ∨ p'.lease = none) ∧
      ∀ job, p' = .recover job → recoversClaim job.repository s.now = true) ∨
    (∃ job claimedAt stage, p = .running job claimedAt stage ∧
      stage.advance codec s o.fault job claimedAt = (t, p')) ∨
    (∃ job, p = .recover job ∧ p' = .readClaimClock job ∧
      t = (s.recoverGithubImportClaim job.request.repositoryId job.repository.importClaimedAt
        job.repository.updatedAt).1) ∨
    (∃ job startedAt, p = .claim job startedAt ∧ o.fault = none ∧
      p'.lease = some (job.request.repositoryId, startedAt) ∧
      s.claimGithubImport job.request.repositoryId startedAt = (t, 1)) ∨
    (∃ job claimedAt renewedAt stage, p = .renewing job claimedAt renewedAt stage ∧
      p'.lease = some (job.request.repositoryId, renewedAt) ∧
      s.renewGithubImportClaim job.request.repositoryId claimedAt renewedAt = (t, 1)) ∨
    ∃ job claimedAt error, p = .releasing job claimedAt error ∧ p' = .returned (.error error) ∧
      t = (s.releaseGithubImportClaim job.request.repositoryId claimedAt).1 := by
  cases p with
  | loadCluster | loadRepository | loadInstallation | checkProject =>
    simp only [advance, Option.some.injEq] at h
    left
    split at h <;> (try split at h) <;> cases h <;> exact ⟨rfl, .inr rfl, fun _ hr ↦ nomatch hr⟩
  | readLeaseClock job =>
    simp only [advance, Option.some.injEq] at h
    left
    split at h
    · next hrecovers =>
      cases h
      refine ⟨rfl, .inr rfl, fun job' hr ↦ ?_⟩
      cases hr
      exact hrecovers
    · cases h
      exact ⟨rfl, .inr rfl, fun _ hr ↦ nomatch hr⟩
  | readClaimClock job =>
    cases h
    exact .inl ⟨rfl, .inr rfl, fun _ hr ↦ nomatch hr⟩
  | recover job =>
    simp only [advance, Option.some.injEq] at h
    split at h <;> cases h
    · exact .inl ⟨rfl, .inr rfl, fun _ hr ↦ nomatch hr⟩
    · exact .inr (.inr (.inl ⟨job, rfl, rfl, rfl⟩))
  | claim job startedAt =>
    simp only [advance, Option.some.injEq] at h
    split at h
    · cases h
      exact .inl ⟨rfl, .inr rfl, fun _ hr ↦ nomatch hr⟩
    · next hfault =>
      split at h
      · next hclaim =>
        cases h
        exact .inr (.inr (.inr (.inl
          ⟨job, startedAt, rfl, hfault, lease_beginImport job startedAt, hclaim⟩)))
      · next hne hclaim =>
        cases h
        rcases Records.updateRepositoryFields_eq_one hclaim with ⟨rfl, -⟩ | ⟨-, rfl⟩
        · exact (hne rfl).elim
        · exact .inl ⟨rfl, .inr rfl, fun _ hr ↦ nomatch hr⟩
  | running job claimedAt stage =>
    simp only [advance, Option.some.injEq] at h
    split at h
    · cases h
      exact .inl ⟨rfl, .inl rfl, fun _ hr ↦ nomatch hr⟩
    · exact .inr (.inl ⟨job, claimedAt, stage, rfl, h⟩)
  | renewing job claimedAt renewedAt stage =>
    simp only [advance, Option.some.injEq] at h
    split at h
    · cases h
      exact .inl ⟨rfl, .inl rfl, fun _ hr ↦ nomatch hr⟩
    · split at h
      · next hrenew =>
        cases h
        exact .inr (.inr (.inr (.inr (.inl ⟨job, claimedAt, renewedAt, stage, rfl, rfl, hrenew⟩))))
      · next hne hrenew =>
        cases h
        rcases Records.updateRepositoryFields_eq_one hrenew with ⟨rfl, -⟩ | ⟨-, rfl⟩
        · exact (hne rfl).elim
        · exact .inl ⟨rfl, .inl rfl, fun _ hr ↦ nomatch hr⟩
  | releasing job claimedAt error =>
    simp only [advance, Option.some.injEq] at h
    split at h <;> cases h
    · exact .inl ⟨rfl, .inr rfl, fun _ hr ↦ nomatch hr⟩
    · exact .inr (.inr (.inr (.inr (.inr ⟨job, claimedAt, error, rfl, rfl, rfl⟩))))
  | returned => cases h

/-- A claimed import sends the credentials it has minted or its manifest. -/
theorem ImportStage.advance_outbox {fault : Option String} {job : ImportJob}
    {claimedAt : Timestamp} {stage : ImportStage Text} {p' : ImportPhase Text}
    (h : stage.advance codec s fault job claimedAt = (t, p')) : t.outbox = s.outbox ∨
      (∃ spec manifest secretName token,
        stage = .sendCredentials spec manifest secretName token) ∨
      ∃ (spec : GitHubImportSpec) (manifest : Text), t.outbox = s.outbox ++
        [.applyProject job.request.clusterId spec.projectName manifest] := by
  cases stage with
  | mintToken spec | rollBack deployment error =>
    simp only [advance] at h
    split at h <;> cases h <;> exact .inl rfl
  | sendCredentials spec manifest secretName token =>
    exact .inr (.inl ⟨spec, manifest, secretName, token, rfl⟩)
  | sendApply spec manifest =>
    simp only [advance] at h
    split at h <;> cases h
    · exact .inr (.inr ⟨spec, manifest, rfl⟩)
    · exact .inl rfl
    · exact .inl rfl
  | createDeployment spec manifest =>
    simp only [advance] at h
    split at h
    · next hcreate =>
      cases h
      obtain ⟨rfl, -⟩ := Records.createDeployment_eq_some hcreate
      exact .inl rfl
    · cases h
      exact .inl rfl
  | createProject spec deployment =>
    simp only [advance] at h
    split at h
    · next hcreate =>
      cases h
      obtain rfl := Records.createProject_eq_some hcreate
      exact .inl rfl
    · cases h
      exact .inl rfl

/-- An import leaves installations, clusters and the clock. -/
theorem ImportPhase.advance_frame {p p' : ImportPhase Text}
    (h : p.advance codec s o = some (t, p')) :
    t.installations = s.installations ∧ t.clusters = s.clusters ∧ t.now = s.now := by
  have hframe {id : Nat} {filters : GitHubRepository → Bool}
      {assign : GitHubRepository → GitHubRepository} {u : Records Text} {n : Nat}
      (hu : s.updateRepositoryFields id filters assign = (u, n)) :
      u.installations = s.installations ∧ u.clusters = s.clusters ∧ u.now = s.now := by
    obtain rfl : (s.updateRepositoryFields id filters assign).1 = u := congrArg Prod.fst hu
    rw [Records.updateRepositoryFields_frame]
    exact ⟨rfl, rfl, rfl⟩
  rcases advance_cases h with ⟨rfl, -, -⟩ | ⟨job, claimedAt, stage, -, hstage⟩ | ⟨job, -, -, rfl⟩ |
    ⟨job, startedAt, -, -, -, hclaim⟩ | ⟨job, claimedAt, renewedAt, stage, -, -, hrenew⟩ |
    ⟨job, claimedAt, error, -, -, rfl⟩
  · exact ⟨rfl, rfl, rfl⟩
  · rw [ImportStage.advance_frame hstage]
    exact ⟨rfl, rfl, rfl⟩
  · exact hframe rfl
  · exact hframe hclaim
  · exact hframe hrenew
  · exact hframe rfl

@[simp] theorem SyncPhase.nextInstallation_ne_updateRow {todo : List (Nat × GitHubInstallation)}
    {installation id : Nat} {existing : GitHubRepository} {rest : List InstallationRepository}
    {todo' : List (Nat × GitHubInstallation)} :
    nextInstallation todo ≠ .updateRow installation id existing rest todo' := by
  cases todo <;> exact fun h ↦ nomatch h

@[simp] theorem SyncPhase.nextRepository_ne_updateRow {todo : List (Nat × GitHubInstallation)}
    {installation installation' id : Nat} {existing : GitHubRepository}
    {rest rest' : List InstallationRepository} {todo' : List (Nat × GitHubInstallation)} :
    nextRepository installation' todo rest' ≠ .updateRow installation id existing rest todo' := by
  cases rest' with
  | nil => exact nextInstallation_ne_updateRow
  | cons next rest' => exact fun h ↦ nomatch h

/-- What one step of a listing does: it reads, updates the row it has looked up, in part or whole,
or adds one. A row is written whole only when it was read unselected. -/
theorem SyncPhase.advance_cases {p p' : SyncPhase} (h : p.advance s o = some (t, p')) :
    (t = s ∧ ∀ installation id existing rest todo,
      p' = .updateRow installation id existing rest todo → existing.selected = false ∧
        ∃ row next, s.repositories.get id = some row ∧ existing = refreshMetadata row next) ∨
    (∃ installation id existing rest todo, p = .updateFields installation id existing rest todo ∧
      p' = .nextRepository installation todo rest ∧
      t = (s.updateRepositoryFields id (fun _ ↦ true) fun row ↦ refreshMetadata row existing).1) ∨
    (∃ installation id existing rest todo, p = .updateRow installation id existing rest todo ∧
      p' = .nextRepository installation todo rest ∧ t = s.updateRepository id existing) ∨
    ∃ installation row rest todo, p = .create installation row rest todo ∧
      p' = .nextRepository installation todo rest ∧ s.createRepository row = some t := by
  cases p with
  | load organization wanted =>
    simp only [advance, Option.some.injEq] at h
    left
    split at h <;> (try split at h) <;> cases h <;>
      exact ⟨rfl, fun _ _ _ _ _ hp ↦ by simp at hp⟩
  | list installation todo =>
    simp only [advance, Option.some.injEq] at h
    left
    split at h <;> cases h <;> exact ⟨rfl, fun _ _ _ _ _ hp ↦ by simp at hp⟩
  | lookup installation next rest todo =>
    simp only [advance, Option.some.injEq] at h
    left
    split at h
    · cases h
      exact ⟨rfl, fun _ _ _ _ _ hp ↦ nomatch hp⟩
    · split at h
      · cases h
        exact ⟨rfl, fun _ _ _ _ _ hp ↦ nomatch hp⟩
      · next id row hfirst =>
        split at h
        · cases h
          exact ⟨rfl, fun _ _ _ _ _ hp ↦ nomatch hp⟩
        · next hselected =>
          cases h
          refine ⟨rfl, fun _ _ _ _ _ hp ↦ ?_⟩
          cases hp
          exact ⟨by simpa using hselected, row, _, (Table.first_eq_some hfirst).1, rfl⟩
  | updateFields installation id existing rest todo =>
    simp only [advance, Option.some.injEq] at h
    split at h <;> cases h
    · exact .inl ⟨rfl, fun _ _ _ _ _ hp ↦ nomatch hp⟩
    · exact .inr (.inl ⟨installation, id, existing, rest, todo, rfl, rfl, rfl⟩)
  | updateRow installation id existing rest todo =>
    simp only [advance, Option.some.injEq] at h
    split at h <;> cases h
    · exact .inl ⟨rfl, fun _ _ _ _ _ hp ↦ nomatch hp⟩
    · exact .inr (.inr (.inl ⟨installation, id, existing, rest, todo, rfl, rfl, rfl⟩))
  | create installation row rest todo =>
    simp only [advance, Option.some.injEq] at h
    split at h
    · next hcreate =>
      cases h
      exact .inr (.inr (.inr ⟨installation, row, rest, todo, rfl, rfl, hcreate⟩))
    · cases h
      exact .inl ⟨rfl, fun _ _ _ _ _ hp ↦ nomatch hp⟩
  | returned => cases h

/-- A listing changes repositories only. -/
theorem SyncPhase.advance_frame {p p' : SyncPhase} (h : p.advance s o = some (t, p')) :
    t = { s with repositories := t.repositories } := by
  rcases advance_cases h with ⟨rfl, -⟩ | ⟨_, _, _, _, _, -, -, rfl⟩ |
    ⟨_, _, _, _, _, -, -, rfl⟩ | ⟨_, _, _, _, -, -, hcreate⟩
  · rfl
  · exact Records.updateRepositoryFields_frame
  · rfl
  · rw [Records.createRepository_eq_some hcreate]

/-- A setup changes installations only. -/
theorem SetupPhase.advance_frame {p p' : SetupPhase} (h : p.advance s o = some (t, p')) :
    t = { s with installations := t.installations } := by
  cases p with
  | verify | lookup =>
    simp only [advance, Option.some.injEq] at h
    split at h <;> (try split at h) <;> (try split at h) <;> cases h <;> rfl
  | update id row =>
    simp only [advance, Option.some.injEq] at h
    split at h <;> cases h <;> rfl
  | create row =>
    simp only [advance, Option.some.injEq] at h
    split at h
    · next hcreate =>
      cases h
      obtain rfl := Records.createInstallation_eq_some hcreate
      rfl
    · cases h
      rfl
  | returned => cases h

/-- An installation webhook changes installations only. -/
theorem InstallationPhase.advance_frame {p p' : InstallationPhase}
    (h : p.advance s o = some (t, p')) : t = { s with installations := t.installations } := by
  cases p with
  | lookup | update =>
    simp only [advance, Option.some.injEq] at h
    split at h <;> (try split at h) <;> cases h <;> rfl
  | returned => cases h

end Frames

end ReinhardtCloud.Dashboard

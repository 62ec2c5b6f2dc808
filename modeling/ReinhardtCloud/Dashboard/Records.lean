import ReinhardtCloud.Base.Table
import ReinhardtCloud.Dashboard.ImportSpec

/-!
# The dashboard's records

Library `Dashboard`. The rows behind the GitHub integration (`dashboard/src/apps/github/models/`,
`apps/deployments/models/deployment.rs`, `apps/clusters/models/cluster.rs`), the ORM queries on
them, each one atomic step, and the commands queued for the agents. Creation times and cluster
tokens are left out. A foreign key must name a stored row when its row is inserted, and deleting a
deployment deletes the projects that name it.
-/

namespace ReinhardtCloud.Dashboard

open ReinhardtCloud.Base ReinhardtCloud.Operator

/-- `GitHubInstallation`, `models/installation.rs`. -/
structure GitHubInstallation where
  organization : Nat
  installationId : Nat
  accountId : Nat
  accountLogin : String
  accountType : String
  status : String
  deriving DecidableEq

/-- `GitHubProject`, `models/project.rs`. -/
structure GitHubProject where
  organization : Nat
  repository : Nat
  deployment : Nat
  projectName : String
  productionBranch : String
  status : String
  deriving DecidableEq

/-- `Deployment`, `models/deployment.rs`, with the manifest as text of some format. -/
structure Deployment (Text : Type) where
  organization : Nat
  projectName : String
  cluster : Nat
  status : String
  image : String
  projectYaml : Option Text
  deriving DecidableEq

/-- `Cluster`, `models/cluster.rs`. -/
structure Cluster where
  organization : Nat
  name : String
  apiUrl : String
  isActive : Bool
  deriving DecidableEq

/-- An installation access token, by what GitHub minted it for. -/
structure InstallationToken where
  installationId : Nat
  githubRepositoryId : Nat
  deriving DecidableEq

/-- `AgentCommand`, for a cluster row. -/
inductive AgentCommand (Text : Type) where
  | applyProject (cluster : Nat) (projectName : String) (yaml : Text)
  | applyGitCredentialsSecret (cluster : Nat) (projectName ns secretName : String)
      (gitToken : InstallationToken)
  deriving DecidableEq

/-- The tables, the commands queued so far and the clock. -/
structure Records (Text : Type) where
  installations : Table GitHubInstallation
  repositories : Table GitHubRepository
  projects : Table GitHubProject
  deployments : Table (Deployment Text)
  clusters : Table Cluster
  outbox : List (AgentCommand Text)
  now : Timestamp

/-- Nothing stored. -/
def Records.empty (Text : Type) (now : Timestamp) : Records Text :=
  ⟨.empty, .empty, .empty, .empty, .empty, [], now⟩

/-- `validate_cluster_for_apply`, `services/agent.rs:10–21`. -/
def validateClusterForApply (cluster : Cluster) : Except String Unit :=
  if !cluster.isActive then .error s!"Cluster '{cluster.name}' is not active"
  else if trim cluster.apiUrl = "" then
    .error s!"Cluster '{cluster.name}' has no Kubernetes API URL"
  else .ok ()

namespace Records

variable {Text : Type} (s : Records Text)

/-! ## Repository rows -/

/-- Update some columns of a repository when its row meets the filters; how many rows that were. -/
def updateRepositoryFields (id : Nat) (filters : GitHubRepository → Bool)
    (assign : GitHubRepository → GitHubRepository) : Records Text × Nat :=
  match s.repositories.get id with
  | some row =>
    if filters row then ({ s with repositories := s.repositories.set id (assign row) }, 1)
    else (s, 0)
  | none => (s, 0)

/-- `recover_github_import_claim`, `server_fn.rs:32–66`: the claim as it was read. -/
def recoverGithubImportClaim (id : Nat) (claimedAt : Option Timestamp) (updatedAt : Timestamp) :
    Records Text × Nat :=
  s.updateRepositoryFields id
    (fun row ↦ row.selected && match claimedAt with
      | some t => row.importClaimedAt = some t
      | none => row.importClaimedAt.isNone && row.updatedAt = updatedAt)
    fun row ↦ { row with selected := false, importClaimedAt := none }

/-- The claim of `import_github_repository_for_current_org`, `server_fn.rs:576–588`. -/
def claimGithubImport (id : Nat) (startedAt : Timestamp) : Records Text × Nat :=
  s.updateRepositoryFields id (fun row ↦ !row.selected)
    fun row ↦ { row with
      selected := true, importClaimedAt := some startedAt, updatedAt := startedAt }

/-- `renew_github_import_claim`, `server_fn.rs:69–92`. -/
def renewGithubImportClaim (id : Nat) (claimedAt renewedAt : Timestamp) : Records Text × Nat :=
  s.updateRepositoryFields id (fun row ↦ row.selected && row.importClaimedAt = some claimedAt)
    fun row ↦ { row with importClaimedAt := some renewedAt, updatedAt := renewedAt }

/-- The release after a failed import, `server_fn.rs:743–757`. -/
def releaseGithubImportClaim (id : Nat) (claimedAt : Timestamp) : Records Text × Nat :=
  s.updateRepositoryFields id (fun row ↦ row.selected && row.importClaimedAt = some claimedAt)
    fun row ↦ { row with selected := false, importClaimedAt := none }

/-- A full-row update of a repository; the ORM sets `updated_at` itself. -/
def updateRepository (id : Nat) (row : GitHubRepository) : Records Text :=
  { s with repositories := s.repositories.set id { row with updatedAt := s.now } }

/-- Insert a repository; `github_repository_id` is unique and the installation must be stored. -/
def createRepository (row : GitHubRepository) : Option (Records Text) :=
  if (s.repositories.first fun r ↦ r.githubRepositoryId = row.githubRepositoryId).isSome ||
      (s.installations.get row.installation).isNone then none
  else some { s with repositories := s.repositories.add { row with updatedAt := s.now } }

/-! ## Installation rows -/

/-- A full-row update of an installation. -/
def updateInstallation (id : Nat) (row : GitHubInstallation) : Records Text :=
  { s with installations := s.installations.set id row }

/-- Insert an installation; `installation_id` is unique. -/
def createInstallation (row : GitHubInstallation) : Option (Records Text) :=
  if (s.installations.first fun r ↦ r.installationId = row.installationId).isSome then none
  else some { s with installations := s.installations.add row }

/-! ## Deployment and project rows -/

/-- A full-row update of a deployment. -/
def updateDeployment (id : Nat) (row : Deployment Text) : Records Text :=
  { s with deployments := s.deployments.set id row }

/-- Insert a deployment; its cluster must be stored. Returns the new id. -/
def createDeployment (row : Deployment Text) : Option (Records Text × Nat) :=
  if (s.clusters.get row.cluster).isNone then none
  else some ({ s with deployments := s.deployments.add row }, s.deployments.next)

/-- Insert a project; a repository and a deployment have at most one. -/
def createProject (row : GitHubProject) : Option (Records Text) :=
  if (s.projects.first fun p ↦
      p.repository = row.repository || p.deployment = row.deployment).isSome
      || (s.repositories.get row.repository).isNone
      || (s.deployments.get row.deployment).isNone then none
  else some { s with projects := s.projects.add row }

/-- Delete the deployments that meet the filter, and their projects. -/
def deleteDeployments (p : Nat → Deployment Text → Bool) : Records Text :=
  let gone (id : Nat) : Bool := (s.deployments.get id).any fun row ↦ p id row
  { s with
    deployments := s.deployments.deleteWhere p
    projects := s.projects.deleteWhere fun _ row ↦ gone row.deployment }

/-- The transaction of `delete_deployment_for_current_org`, `server_fn.rs:489–520`. -/
def deleteDeploymentTransaction (organization id : Nat) : Records Text :=
  let released :=
    match s.projects.first fun p ↦ p.deployment = id && p.organization = organization with
    | some (_, project) => (s.updateRepositoryFields project.repository (fun _ ↦ true)
        fun row ↦ { row with selected := false, importClaimedAt := none }).1
    | none => s
  released.deleteDeployments fun k row ↦ k = id && row.organization = organization

/-! ## Commands to the agents -/

/-- Queue a command. -/
def send (command : AgentCommand Text) : Records Text :=
  { s with outbox := s.outbox ++ [command] }

/-! ## What the queries leave -/

section Lemmas

variable {s} {id j : Nat} {filters : GitHubRepository → Bool}
  {assign : GitHubRepository → GitHubRepository}

theorem createRepository_eq_some {t : Records Text} {row : GitHubRepository}
    (h : s.createRepository row = some t) :
    t = { s with repositories := s.repositories.add { row with updatedAt := s.now } } := by
  unfold createRepository at h
  split at h <;> cases h
  rfl

theorem createInstallation_eq_some {t : Records Text} {row : GitHubInstallation}
    (h : s.createInstallation row = some t) :
    t = { s with installations := s.installations.add row } := by
  unfold createInstallation at h
  split at h <;> cases h
  rfl

theorem createDeployment_eq_some {t : Records Text} {row : Deployment Text}
    (h : s.createDeployment row = some (t, id)) :
    t = { s with deployments := s.deployments.add row } ∧ id = s.deployments.next := by
  unfold createDeployment at h
  split at h <;> cases h
  exact ⟨rfl, rfl⟩

theorem createProject_eq_some {t : Records Text} {row : GitHubProject}
    (h : s.createProject row = some t) : t = { s with projects := s.projects.add row } := by
  unfold createProject at h
  split at h <;> cases h
  rfl

/-- Only the row under the id changes, and only when it meets the filters. -/
theorem get_updateRepositoryFields :
    (s.updateRepositoryFields id filters assign).1.repositories.get j =
      if j = id then (s.repositories.get id).map fun row ↦ if filters row then assign row else row
      else s.repositories.get j := by
  unfold updateRepositoryFields
  cases hrow : s.repositories.get id with
  | none =>
    by_cases hj : j = id
    · subst hj
      simp [hrow]
    · simp [hj]
  | some row =>
    by_cases hf : filters row
    · by_cases hj : j = id
      · subst hj
        simp [hf, hrow]
      · simp [hf, Table.get_set, hj]
    · by_cases hj : j = id
      · subst hj
        simp [hf, hrow]
      · simp [hf, hj]

/-- A row was updated exactly when one is there that meets the filters. -/
theorem updateRepositoryFields_eq_one {t : Records Text} {n : Nat}
    (h : s.updateRepositoryFields id filters assign = (t, n)) :
    n = 1 ∧ (∃ row, s.repositories.get id = some row ∧ filters row = true) ∨ n = 0 ∧ t = s := by
  unfold updateRepositoryFields at h
  split at h
  · next row hrow =>
    split at h
    · next hf =>
      cases h
      exact .inl ⟨rfl, row, hrow, hf⟩
    · cases h
      exact .inr ⟨rfl, rfl⟩
  · cases h
    exact .inr ⟨rfl, rfl⟩

/-- The update writes one stored row or none. -/
theorem updateRepositoryFields_cases (s : Records Text) (id : Nat)
    (filters : GitHubRepository → Bool) (assign : GitHubRepository → GitHubRepository) :
    (s.updateRepositoryFields id filters assign).1 = s ∨
      ∃ row, s.repositories.get id = some row ∧ filters row = true ∧
        (s.updateRepositoryFields id filters assign).1 =
          { s with repositories := s.repositories.set id (assign row) } := by
  unfold updateRepositoryFields
  split
  · next row hrow =>
    split
    · next hf => exact .inr ⟨row, hrow, hf, rfl⟩
    · exact .inl rfl
  · exact .inl rfl

/-- The other tables, the commands and the clock stay. -/
theorem updateRepositoryFields_frame :
    (s.updateRepositoryFields id filters assign).1 =
      { s with repositories := (s.updateRepositoryFields id filters assign).1.repositories } := by
  unfold updateRepositoryFields
  split
  · split <;> rfl
  · rfl

/-- The transaction leaves installations, clusters, the commands and the clock. -/
theorem deleteDeploymentTransaction_frame (organization id : Nat) :
    s.deleteDeploymentTransaction organization id = { s with
      repositories := (s.deleteDeploymentTransaction organization id).repositories
      projects := (s.deleteDeploymentTransaction organization id).projects
      deployments := (s.deleteDeploymentTransaction organization id).deployments } := by
  unfold deleteDeploymentTransaction deleteDeployments
  split
  · rw [updateRepositoryFields_frame]
  · rfl

/-- The transaction clears the lease of the repository of the deployment's project. -/
theorem get_deleteDeploymentTransaction (organization id : Nat) :
    (s.deleteDeploymentTransaction organization id).repositories.get j =
      if (s.projects.first fun p ↦ p.deployment = id && p.organization = organization).any
          fun p ↦ p.2.repository = j then
        (s.repositories.get j).map fun row ↦ { row with selected := false, importClaimedAt := none }
      else s.repositories.get j := by
  unfold deleteDeploymentTransaction
  cases s.projects.first fun p ↦ p.deployment = id && p.organization = organization with
  | none => rfl
  | some found =>
    by_cases hj : found.2.repository = j
    · subst hj
      simp [deleteDeployments, get_updateRepositoryFields]
    · simp [deleteDeployments, get_updateRepositoryFields, hj, Ne.symm hj]

end Lemmas

end Records

end ReinhardtCloud.Dashboard

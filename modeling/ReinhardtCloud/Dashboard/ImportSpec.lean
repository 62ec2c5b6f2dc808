import ReinhardtCloud.Base.Characters
import ReinhardtCloud.Dashboard.Manifest

/-!
# Names and registries of imports

Library `Dashboard`. What an import makes of a repository, a typed project name and a registry
(`dashboard/src/apps/github/services/import.rs:24–92,263–298`,
`services/pipeline.rs:51–80`).
-/

namespace ReinhardtCloud.Dashboard

open ReinhardtCloud.Base ReinhardtCloud.Operator

/-- A timestamp in microseconds. -/
abbrev Timestamp := Nat

/-- `GitHubRepository`, `models/repository.rs`, without its id and creation time. -/
structure GitHubRepository where
  installation : Nat
  githubRepositoryId : Nat
  fullName : String
  ownerLogin : String
  name : String
  defaultBranch : String
  isPrivate : Bool
  selected : Bool
  importClaimedAt : Option Timestamp
  updatedAt : Timestamp
  deriving DecidableEq

/-- The character `sanitize_project_name` writes for a character. -/
def sanitizedChar (c : Char) : Option Char :=
  if c.isLower || c.isDigit then some c
  else if c = '-' || c = '_' || c = '.' || isWhiteSpace c then some '-'
  else none

/-- The loop of `sanitize_project_name`, with the characters written so far in reverse. -/
def sanitizeLoop : List Char → Bool → List Char → List Char
  | out, _, [] => out
  | out, previousHyphen, c :: rest =>
    match sanitizedChar c with
    | none => sanitizeLoop out previousHyphen rest
    | some next =>
      if next = '-' && (out.isEmpty || previousHyphen) then sanitizeLoop out previousHyphen rest
      else if out.length + 1 = 63 then next :: out
      else sanitizeLoop (next :: out) (next = '-') rest

/-- `sanitize_project_name`. -/
def sanitizeProjectName (raw : String) : String :=
  let out := (sanitizeLoop [] false (raw.toList.flatMap toLowercase)).dropWhile (· = '-')
  if out.isEmpty then "app" else String.ofList out.reverse

/-- `default_project_name`. -/
def defaultProjectName (repository : GitHubRepository) : String :=
  sanitizeProjectName repository.name

/-- `validate_project_name`. -/
def validateProjectName (name : String) : Except String String :=
  let trimmed := trim name
  if trimmed.utf8ByteSize = 0 || 63 < trimmed.utf8ByteSize then
    .error "Project name must be 1-63 characters"
  else if trimmed.toList.head? = some '-' || trimmed.toList.getLast? = some '-' then
    .error "Project name must start and end with an alphanumeric character"
  else if !(trimmed.toList.all fun c ↦ c.isLower || c.isDigit || c = '-') then
    .error "Project name must contain only lowercase ASCII letters, digits, and hyphens"
  else .ok trimmed

/-- `validate_registry`. -/
def validateRegistry (registry : String) : Except String String :=
  let trimmed := trim registry
  if trimmed.utf8ByteSize = 0 || 512 < trimmed.utf8ByteSize then
    .error "Registry image prefix must be 1-512 characters"
  else if trimmed.toList.any isWhiteSpace then
    .error "Registry image prefix must not contain whitespace"
  else .ok (String.ofList (trimmed.toList.reverse.dropWhile (· = ':')).reverse)

/-- `import_spec_from_repository`. -/
def importSpecFromRepository (repository : GitHubRepository) (projectName registry : String) :
    Except String GitHubImportSpec := do
  let projectName := if trim projectName = "" then defaultProjectName repository
    else trim projectName
  let projectName ← validateProjectName projectName
  let registry ← validateRegistry registry
  return {
    projectName := projectName
    ns := "default"
    repositoryUrl := s!"https://github.com/{repository.fullName}.git"
    branch := repository.defaultBranch
    registry := registry
    credentialsSecret := none
    introspect := none }

/-- `github_credentials_secret_name`. -/
def githubCredentialsSecretName (projectName : String) : String :=
  s!"{projectName}-github-git-credentials"

/-- `run_github_deploy_pipeline` and `enrich_import_spec`: no signals, and a credentials Secret for
a private repository. -/
def enrichImportSpec (spec : GitHubImportSpec) (repository : GitHubRepository) : GitHubImportSpec :=
  { spec with
    introspect := some ⟨{}, [], "", 8000⟩
    credentialsSecret :=
      if repository.isPrivate then some (githubCredentialsSecretName spec.projectName) else none }

/-! ## What an import takes over -/

/-- An accepted name is trimmed and passes again. -/
theorem validateProjectName_ok {name result : String} (h : validateProjectName name = .ok result) :
    result = trim name := by
  unfold validateProjectName at h
  simp only at h
  split at h
  · cases h
  · split at h
    · cases h
    · split at h
      · cases h
      · exact (Except.ok.inj h).symm

end ReinhardtCloud.Dashboard

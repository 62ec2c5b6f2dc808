import ReinhardtCloud.Dashboard.Onboarding
import ReinhardtCloud.Dashboard.WebhookReading
import ReinhardtCloud.Operator.Operations

/-!
# The Git credentials of an imported project

Library `Dashboard`. Who names the Secret with a private repository's token: the import and the
webhook refresh in their commands (`services/pipeline.rs:51–68`, `server_urls.rs:394–431`), the
agent that applies it (`reinhardt-cloud-k8s/src/resources.rs:51–91`), the build Job that reads it
(`resources/source.rs:40–61,160–180`) and the clean-up of a deleted Project
(`reconciler.rs:293–371,999–1043`). All but the build Job agree.
-/

namespace ReinhardtCloud.Dashboard

open ReinhardtCloud.Base ReinhardtCloud.Operator

variable {Text : Type}

/-! ## The Secret in the cluster -/

/-- The bytes of a token; Rust lengths fit in 64 bits. -/
abbrev GitToken := { bytes : List UInt8 // bytes.length < 2 ^ 64 }

/-- `git_credentials_secret`, `resources.rs:69–91`. -/
def gitCredentialsSecret (name : String) (gitToken : GitToken) : Secret where
  name := name
  uid := none
  resourceVersion := none
  labels := some [("reinhardt.dev/credential-type", "git"), ("reinhardt.dev/provider", "github")]
  ownerReferences := none
  data := some [⟨"git-token", gitToken.1, by decide, gitToken.2⟩]
  immutable := none

/-- What `execute_apply_git_credentials_secret` applies for a command, `main.rs:394–411`. -/
def executeApplyGitCredentialsSecret (tokenBytes : InstallationToken → GitToken) :
    AgentCommand Text → Option Secret
  | .applyGitCredentialsSecret _ _ _ secretName gitToken =>
    some (gitCredentialsSecret secretName (tokenBytes gitToken))
  | .applyProject _ _ _ => none

/-- `server_side_apply_git_credentials_secret` on what is stored: the labels and keys of others
stay. -/
def serverSideApplyGitCredentialsSecret (existing : Option Secret) (secret : Secret) : Secret :=
  match existing with
  | none => secret
  | some stored =>
    { stored with
      labels := some (StringMap.merge (stored.labels.getD []) (secret.labels.getD []))
      data := some (secret.data.getD [] ++ (stored.data.getD []).filter fun e ↦
        !((secret.data.getD []).any fun new ↦ new.key == e.key)) }

/-- `SecretKeySelector`. -/
structure SecretKeySelector where
  name : String
  key : String
  deriving DecidableEq

/-- Where a build Job reads `GIT_PASSWORD` from, `source.rs:170–182`. -/
def gitPassword (job : Job) : Option SecretKeySelector :=
  job.credentialsSecret.map fun name ↦ ⟨name, "git-token"⟩

/-! ## One Secret for all -/

/-- Every Secret that a component newly sends has the name and the key. -/
def SendsOnly (tokenBytes : InstallationToken → GitToken) (s t : Records Text)
    (ref : SecretKeySelector) : Prop :=
  ∃ sent, t.outbox = s.outbox ++ sent ∧
    ∀ secret ∈ sent.filterMap (executeApplyGitCredentialsSecret tokenBytes),
      secret.name = ref.name ∧ (secret.data.getD []).map (·.key) = [ref.key]

/-- The dashboard and the clean-up use one Secret for the Project of a manifest. -/
structure KeepsCredentials (codec : ManifestCodec Text) (sha256 : List UInt8 → List UInt8)
    (tokenBytes : InstallationToken → GitToken) (m : Manifest) (ref : SecretKeySelector) :
    Prop where
  /-- An import that has prepared a manifest with this source sends it. -/
  imported : ∀ (s t : Records Text) job claimedAt fault spec text secretName token p',
    m.spec.source = some (importedSource spec) → spec.credentialsSecret = some secretName →
    ImportStage.advance codec s fault job claimedAt
      (.sendCredentials spec text secretName token) = (t, p') → SendsOnly tokenBytes s t ref
  /-- A webhook for a GitHub project of this name sends it. -/
  refreshed : ∀ (s t : Records Text) (job : WebhookJob Text) cluster token o p',
    job.project.2.projectName = m.name →
    WebhookPhase.advance codec s o (.sendCredentials job cluster token) = some (t, p') →
      SendsOnly tokenBytes s t ref
  /-- The clean-up of the Project deletes it wherever the agent has applied it. -/
  deleted : ∀ uid resourceVersion status existing gitToken (cluster : Operator.Cluster),
    let app := { m.project uid resourceVersion status with
      spec := { m.spec with deletionPolicy := .delete } }
    cluster.object .secret ref.name = some (.secret
      (serverSideApplyGitCredentialsSecret existing (gitCredentialsSecret ref.name gitToken))) →
    ∃ op ∈ cleanupOperations app, op.kind = .secret ∧ op.name.resolve app.name = ref.name ∧
      op.verdict sha256 app cluster = .issue

/-- All components use it: every build of the Project is accepted and reads its password there. -/
structure SharesCredentials (codec : ManifestCodec Text) (sha256 : List UInt8 → List UInt8)
    (tokenBytes : InstallationToken → GitToken) (m : Manifest) (ref : SecretKeySelector) : Prop
    extends KeepsCredentials codec sha256 tokenBytes m ref where
  read : ∀ uid resourceVersion status imageTag branch, ∃ kaniko,
    buildKanikoJobForBranch (m.project uid resourceVersion status) imageTag branch = .ok kaniko ∧
      gitPassword kaniko = some ref

section Names

variable {codec : ManifestCodec Text} {spec : GitHubImportSpec} {repository : GitHubRepository}
  {tokenBytes : InstallationToken → GitToken} {sha256 : List UInt8 → List UInt8}

/-- The name and the key of the dashboard's Secret. -/
def githubCredentials (projectName : String) : SecretKeySelector :=
  ⟨githubCredentialsSecretName projectName, "git-token"⟩

/-- The manifest of a private repository names the dashboard's Secret. -/
theorem credentialsSecret_enrichImportSpec (spec : GitHubImportSpec)
    (hprivate : repository.isPrivate = true) :
    (enrichImportSpec spec repository).credentialsSecret =
      some (githubCredentialsSecretName spec.projectName) := by
  rw [enrichImportSpec, if_pos hprivate]

/-- The dashboard's Secret is not the one a build may mount. -/
theorem githubCredentialsSecretName_ne (projectName : String) :
    githubCredentialsSecretName projectName ≠ s!"{projectName}-git-credentials" := by
  intro h
  have hlength := congrArg String.utf8ByteSize h
  simp only [githubCredentialsSecretName, toString, String.utf8ByteSize_append] at hlength
  have hleft : "-github-git-credentials".utf8ByteSize = 23 := by decide
  have hright : "-git-credentials".utf8ByteSize = 16 := by decide
  omega

/-- No build of an import of a private repository is accepted: its manifest names the dashboard's
Secret, and the operator mounts another. -/
theorem buildKanikoJobForBranch_private (spec : GitHubImportSpec)
    (hprivate : repository.isPrivate = true) (uid : Uid) (resourceVersion : Option Nat)
    (status : Option ProjectStatus) (imageTag : String) (branch : Option String) :
    buildKanikoJobForBranch ((importedManifest (enrichImportSpec spec repository)).project uid
        resourceVersion status) imageTag branch =
      .error (.invalidCredentialsSecret s!"{spec.projectName}-github-git-credentials"
        s!"{spec.projectName}-git-credentials") := by
  have hsecret := credentialsSecret_enrichImportSpec spec hprivate
  have hne : githubCredentialsSecretName spec.projectName ≠
      expectedCredentialsSecretName ((importedManifest (enrichImportSpec spec repository)).project
        uid resourceVersion status) :=
    githubCredentialsSecretName_ne spec.projectName
  simp only [buildKanikoJobForBranch, Manifest.project, importedManifest, importedSource,
    builtImageReference, hsecret, bind, Except.bind] at hne ⊢
  rw [Option.all_some, decide_eq_false hne]
  rfl

private theorem sendsOnly_nothing (s : Records Text) (ref : SecretKeySelector) :
    SendsOnly tokenBytes s s ref :=
  ⟨[], (List.append_nil _).symm, fun _ h ↦ nomatch h⟩

private theorem sendsOnly_credentials (s : Records Text) (cluster : Nat)
    (projectName ns name : String) (token : InstallationToken) :
    SendsOnly tokenBytes s (s.send (.applyGitCredentialsSecret cluster projectName ns name token))
      ⟨name, "git-token"⟩ := by
  refine ⟨[_], rfl, ?_⟩
  intro secret hsecret
  obtain rfl : secret = gitCredentialsSecret name (tokenBytes token) :=
    List.mem_singleton.mp hsecret
  exact ⟨rfl, rfl⟩

/-- The import sends the Secret its manifest names. -/
theorem sendsOnly_import {s t : Records Text} {job : ImportJob} {claimedAt : Timestamp}
    {fault : Option String} {text : Text} {secretName : String} {token : InstallationToken}
    {p' : ImportPhase Text}
    (h : ImportStage.advance codec s fault job claimedAt
      (.sendCredentials spec text secretName token) = (t, p')) :
    SendsOnly tokenBytes s t ⟨secretName, "git-token"⟩ := by
  simp only [ImportStage.advance] at h
  split at h
  · cases h
    exact sendsOnly_credentials s _ _ _ secretName token
  · cases h
    exact sendsOnly_nothing s _
  · cases h
    exact sendsOnly_nothing s _

/-- A webhook sends the Secret of its project's name. -/
theorem sendsOnly_webhook {s t : Records Text} {job : WebhookJob Text} {cluster : Cluster}
    {token : InstallationToken} {o : Outcome} {p' : WebhookPhase Text}
    (h : WebhookPhase.advance codec s o (.sendCredentials job cluster token) = some (t, p')) :
    SendsOnly tokenBytes s t (githubCredentials job.project.2.projectName) := by
  simp only [WebhookPhase.advance, Option.some.injEq] at h
  split at h
  · cases h
    exact sendsOnly_credentials s _ _ _ _ token
  · cases h
    exact sendsOnly_nothing s _

/-- A Secret the agent has applied carries the dashboard's labels, whatever it was before. -/
theorem dashboardLabels_applied (existing : Option Secret) (name : String) (gitToken : GitToken) :
    let labels := (serverSideApplyGitCredentialsSecret existing
      (gitCredentialsSecret name gitToken)).labels.getD []
    labels.lookup "reinhardt.dev/credential-type" = some "git" ∧
      labels.lookup "reinhardt.dev/provider" = some "github" := by
  cases existing with
  | none => exact ⟨rfl, rfl⟩
  | some stored => exact ⟨rfl, rfl⟩

/-- The clean-up deletes the dashboard's Secret of the Project. -/
theorem deletes_githubCredentials (app : Project) (hpolicy : app.spec.deletionPolicy = .delete)
    (existing : Option Secret) (gitToken : GitToken) (cluster : Operator.Cluster)
    (hstored : cluster.object .secret (githubCredentialsSecretName app.name) = some (.secret
      (serverSideApplyGitCredentialsSecret existing
        (gitCredentialsSecret (githubCredentialsSecretName app.name) gitToken)))) :
    ∃ op ∈ cleanupOperations app, op.kind = .secret ∧
      op.name.resolve app.name = githubCredentialsSecretName app.name ∧
      op.verdict sha256 app cluster = .issue := by
  have hmem : named .secret "-github-git-credentials" .deleteGitIfManaged ∈
      cleanupOperations app := by
    rw [cleanupOperations, onlyIf, if_pos (by rw [hpolicy]; rfl)]
    simp
  refine ⟨_, hmem, rfl, rfl, ?_⟩
  obtain ⟨htype, hprovider⟩ := dashboardLabels_applied existing
    (githubCredentialsSecretName app.name) gitToken
  have hfound : cluster.object .secret (app.name ++ "-github-git-credentials") = _ := hstored
  simp only [Operation.verdict, named, ObjectName.resolve, hfound, Operation.onExisting,
    gitCredentialsSecretIsManaged, htype, hprovider, decide_true, Bool.and_true, Bool.or_true,
    if_true]

/-- The dashboard and the clean-up agree on the Secret of a private import. -/
theorem keepsCredentials_private (hprivate : repository.isPrivate = true) :
    KeepsCredentials codec sha256 tokenBytes (importedManifest (enrichImportSpec spec repository))
      (githubCredentials spec.projectName) where
  imported := by
    intro s t job claimedAt fault spec' text secretName token p' hsource hsecret h
    have hsame := congrArg SourceSpec.credentialsSecret (Option.some.inj hsource)
    have hname : githubCredentialsSecretName spec.projectName = secretName := by
      simp only [importedSource, credentialsSecret_enrichImportSpec spec hprivate, hsecret] at hsame
      exact Option.some.inj hsame
    rw [githubCredentials, hname]
    exact sendsOnly_import h
  refreshed := by
    intro s t job cluster token o p' hname h
    have hproject : job.project.2.projectName = spec.projectName := hname
    rw [← hproject]
    exact sendsOnly_webhook h
  deleted := by
    intro uid resourceVersion status existing gitToken cluster app hstored
    exact deletes_githubCredentials app rfl existing gitToken cluster hstored

/-- For a private repository nothing is built: the dashboard and the clean-up share one Secret, and
the operator refuses it for every Project name. -/
theorem private_import_shares_no_credentials (hcodec : codec.RoundTrips)
    (hprivate : repository.isPrivate = true) {text : Text} {m : Manifest}
    (htext : sourceProjectYaml codec (enrichImportSpec spec repository) = .ok text)
    (hm : codec.ofText text = .ok m) :
    KeepsCredentials codec sha256 tokenBytes m (githubCredentials m.name) ∧
      (∀ uid resourceVersion status imageTag branch,
        buildKanikoJobForBranch (m.project uid resourceVersion status) imageTag branch =
          .error (.invalidCredentialsSecret s!"{m.name}-github-git-credentials"
            s!"{m.name}-git-credentials")) ∧
      ∀ ref, ¬ SharesCredentials codec sha256 tokenBytes m ref := by
  obtain rfl : m = importedManifest (enrichImportSpec spec repository) := by
    rw [ofText_sourceProjectYaml hcodec htext] at hm
    exact (Except.ok.inj hm).symm
  have hrejected := buildKanikoJobForBranch_private spec hprivate
  refine ⟨keepsCredentials_private hprivate, hrejected, ?_⟩
  intro ref h
  obtain ⟨kaniko, hok, -⟩ := h.read 0 none none "" none
  rw [hrejected] at hok
  cases hok

/-- A private repository, imported under an accepted name. -/
def privateRepository : GitHubRepository :=
  ⟨0, 7, "team/shop", "team", "shop", "main", true, false, none, 0⟩

/-- The build of a private repository's first import is refused. -/
theorem private_import_shares_no_credentials_shop : ∃ text m,
    validateProjectName "shop" = .ok shopImport.projectName ∧
      sourceProjectYaml plainCodec (enrichImportSpec shopImport privateRepository) = .ok text ∧
      plainCodec.ofText text = .ok m ∧
      ∀ ref, ¬ SharesCredentials plainCodec id (fun _ ↦ ⟨[], by decide⟩) m ref :=
  have htext : sourceProjectYaml plainCodec (enrichImportSpec shopImport privateRepository) =
      .ok (importedManifest (enrichImportSpec shopImport privateRepository)) := rfl
  ⟨_, _, by decide, htext, rfl,
    (private_import_shares_no_credentials plainCodec_roundTrips rfl htext rfl).2.2⟩

/-- Not every accepted name and private repository can be built under one Secret. -/
theorem private_import_not_shared :
    ¬ ∀ (name : String) (spec : GitHubImportSpec) (repository : GitHubRepository) (m : Manifest),
      validateProjectName name = .ok spec.projectName → repository.isPrivate = true →
      sourceProjectYaml plainCodec (enrichImportSpec spec repository) = .ok m →
      ∃ ref, SharesCredentials plainCodec id (fun _ ↦ ⟨[], by decide⟩) m ref := by
  intro h
  obtain ⟨ref, href⟩ := h "shop" shopImport privateRepository _ (by decide) rfl rfl
  obtain ⟨kaniko, hok, -⟩ := href.read 0 none none "" none
  cases hok

end Names

end ReinhardtCloud.Dashboard

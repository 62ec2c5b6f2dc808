import ReinhardtCloud.Dashboard.Ownership
import ReinhardtCloud.Dashboard.WebhookReading

/-!
# The organization behind a repository

Library `Dashboard`. An installation belongs to the organization that set it up, and an import
checks that the repository's installation is its own organization's. A listing then points a
stored repository at whichever installation reports it, and webhooks follow the row to the
deployment and the cluster without another check. As long as no listing moves a repository that is
in use to an installation of another organization, every webhook and every credential stays within
one organization.
-/

namespace ReinhardtCloud.Dashboard

open ReinhardtCloud.Base

variable {Text : Type}

/-- The repository row that a handler has checked and goes on relying on. -/
def Handler.reliesOn (s : Records Text) : Handler Text → Option Nat
  | .webhook (.loadDeployment _ repository _) => some repository.1
  | .webhook (.updateDeployment job) => some job.repository.1
  | .webhook (.loadCluster job) => some job.repository.1
  | .webhook (.loadInstallation job _) => some job.repository.1
  | .webhook (.mintToken job _ _) => some job.repository.1
  | .webhook (.sendCredentials job _ _) => some job.repository.1
  | .webhook (.sendApply job _) => some job.repository.1
  | .webhook (.markError job _) => some job.repository.1
  | .importing (.loadInstallation request _ repository) =>
    if s.installationOrganization repository.installation = some request.organization then
      some request.repositoryId
    else none
  | .importing (.checkProject job) => some job.request.repositoryId
  | .importing (.readLeaseClock job) => some job.request.repositoryId
  | .importing (.recover job) => some job.request.repositoryId
  | .importing (.readClaimClock job) => some job.request.repositoryId
  | .importing (.claim job _) => some job.request.repositoryId
  | .importing (.running job _ _) => some job.request.repositoryId
  | .importing (.renewing job _ _ _) => some job.request.repositoryId
  | _ => none

/-- The row that a listing is about to update, with the installation it writes. -/
def Handler.repoints : Handler Text → Option (Nat × Nat)
  | .sync (.updateFields _ id existing _ _) => some (id, existing.installation)
  | .sync (.updateRow _ id existing _ _) => some (id, existing.installation)
  | _ => none

/-- A repository row is in use: a project was imported from it, or a handler relies on it. -/
def InUse (s : ServiceState Text) (id : Nat) : Prop :=
  (s.store.projects.first fun p ↦ p.repository = id).isSome = true ∨
    ∃ p ∈ s.procs, p.reliesOn s.store = some id

/-- No listing points a repository in use at an installation of another organization. -/
def StaysInOrganization (s : ServiceState Text) : ServiceAction Text → Prop
  | .advance i o => o.fault = none → ∀ p ∈ s.procs[i]?, ∀ w ∈ p.repoints,
    s.store.installationOrganization w.2 = s.store.repositoryOrganization w.1 ∨ ¬ InUse s w.1
  | _ => True

/-- The credentials that a handler is about to mint or send: the repository row, the organization of
the deployment and the cluster. -/
def Handler.credentials : Handler Text → Option (Nat × Nat × Cluster)
  | .webhook (.mintToken job cluster _) =>
    some (job.repository.1, job.loaded.organization, cluster)
  | .webhook (.sendCredentials job cluster _) =>
    some (job.repository.1, job.loaded.organization, cluster)
  | .importing (.running job _ (.mintToken _)) =>
    some (job.request.repositoryId, job.request.organization, job.cluster)
  | .importing (.running job _ (.sendCredentials _ _ _ _)) =>
    some (job.request.repositoryId, job.request.organization, job.cluster)
  | _ => none

/-- The repository row a webhook has found. -/
def WebhookPhase.repository : WebhookPhase Text → Option Nat
  | .updateDeployment job => some job.repository.1
  | .markError job _ => some job.repository.1
  | _ => none

/-- What one step keeps: an installation stays with its organization, a webhook changes only
deployments whose organization is that of its repository's installation and of the cluster, and
credentials are minted and sent only within one such organization. -/
structure WithinOrganization (x : ServiceTransition Text) : Prop where
  installation : ∀ id organization,
    x.before.store.installationOrganization id = some organization →
    x.after.store.installationOrganization id = some organization
  webhook : ∀ i o phase id, x.action = .advance i o →
    x.before.procs[i]? = some (.webhook phase) →
    x.after.store.deployments.get id ≠ x.before.store.deployments.get id →
    ∃ repository row, phase.repository = some repository ∧
      x.before.store.deployments.get id = some row ∧
      x.before.store.repositoryOrganization repository = some row.organization ∧
      x.before.store.ClusterIs row.cluster row.organization
  sent : ∀ i o p cluster projectName ns secretName token, x.action = .advance i o →
    x.before.procs[i]? = some p →
    x.after.store.outbox = x.before.store.outbox ++
      [.applyGitCredentialsSecret cluster projectName ns secretName token] →
    p.credentials.isSome
  credentials : ∀ i o p c, x.action = .advance i o → x.before.procs[i]? = some p →
    p.credentials = some c →
    x.before.store.repositoryOrganization c.1 = some c.2.1 ∧ c.2.2.organization = c.2.1

/-! ## What the handlers have checked -/

/-- The deployment, the repository and the cluster of a webhook belong together. -/
structure WebhookJob.Authorized (s : Records Text) (job : WebhookJob Text) : Prop where
  repository : s.repositoryOrganization job.repository.1 = some job.loaded.organization
  deployment : s.DeploymentIs job.project.2.deployment job.loaded.organization job.loaded.cluster
  cluster : s.ClusterIs job.loaded.cluster job.loaded.organization

/-- The repository and the cluster of an import belong to its organization. -/
structure ImportJob.Authorized (s : Records Text) (job : ImportJob) : Prop where
  repository : s.repositoryOrganization job.request.repositoryId = some job.request.organization
  cluster : s.ClusterIs job.request.clusterId job.request.organization
  loaded : job.cluster.organization = job.request.organization

/-- What holds of a webhook at each phase. -/
def WebhookPhase.Authorized (s : Records Text) : WebhookPhase Text → Prop
  | .loadDeployment _ repository project =>
    s.repositoryOrganization repository.1 = some project.2.organization ∧
      ∃ cluster, s.DeploymentIs project.2.deployment project.2.organization cluster
  | .updateDeployment job => job.Authorized s
  | .loadCluster job => job.Authorized s
  | .markError job _ => job.Authorized s
  | .loadInstallation job cluster =>
    job.Authorized s ∧ cluster.organization = job.loaded.organization
  | .mintToken job cluster _ => job.Authorized s ∧ cluster.organization = job.loaded.organization
  | .sendCredentials job cluster _ =>
    job.Authorized s ∧ cluster.organization = job.loaded.organization
  | .sendApply job cluster => job.Authorized s ∧ cluster.organization = job.loaded.organization
  | _ => True

/-- A form has loaded a deployment with its organization and cluster. -/
def FormPhase.Authorized (s : Records Text) : FormPhase Text → Prop
  | .update deployment _ loaded => s.DeploymentIs deployment loaded.organization loaded.cluster
  | _ => True

/-- A claimed import is authorized, and the deployment it inserted is its organization's. -/
def ImportStage.Authorized (s : Records Text) (job : ImportJob) : ImportStage Text → Prop
  | .createProject _ deployment =>
    s.DeploymentIs deployment job.request.organization job.request.clusterId
  | _ => True

/-- What holds of an import at each phase. -/
def ImportPhase.Authorized (s : Records Text) : ImportPhase Text → Prop
  | .loadRepository request cluster =>
    s.ClusterIs request.clusterId request.organization ∧
      cluster.organization = request.organization
  | .loadInstallation request cluster repository =>
    s.ClusterIs request.clusterId request.organization ∧
      cluster.organization = request.organization ∧
      ∃ o, s.installationOrganization repository.installation = some o ∧
        (o = request.organization →
          s.repositoryOrganization request.repositoryId = some request.organization)
  | .checkProject job => job.Authorized s
  | .readLeaseClock job => job.Authorized s
  | .recover job => job.Authorized s
  | .readClaimClock job => job.Authorized s
  | .claim job _ => job.Authorized s
  | .running job _ stage => job.Authorized s ∧ stage.Authorized s job
  | .renewing job _ _ stage => job.Authorized s ∧ stage.Authorized s job
  | _ => True

/-- A listing works on stored installations. -/
def SyncPhase.Authorized (s : Records Text) : SyncPhase → Prop
  | .load _ _ => True
  | .list installation todo => s.Installed installation.1 ∧ ∀ i ∈ todo, s.Installed i.1
  | .lookup installation _ _ todo => s.Installed installation ∧ ∀ i ∈ todo, s.Installed i.1
  | .updateFields installation _ existing _ todo =>
    s.Installed installation ∧ s.Installed existing.installation ∧ ∀ i ∈ todo, s.Installed i.1
  | .updateRow installation _ existing _ todo =>
    s.Installed installation ∧ s.Installed existing.installation ∧ ∀ i ∈ todo, s.Installed i.1
  | .create installation row _ todo =>
    s.Installed installation ∧ s.Installed row.installation ∧ ∀ i ∈ todo, s.Installed i.1
  | .returned _ => True

/-- A setup and an installation webhook write back the organization of the row. -/
def SetupPhase.Authorized (s : Records Text) : SetupPhase → Prop
  | .update id row => s.installationOrganization id = some row.organization
  | _ => True

def InstallationPhase.Authorized (s : Records Text) : InstallationPhase → Prop
  | .update id row => s.installationOrganization id = some row.organization
  | _ => True

/-- What holds of every handler beside the records. -/
def Handler.Authorized (s : Records Text) : Handler Text → Prop
  | .webhook p => p.Authorized s
  | .form p => p.Authorized s
  | .delete _ => True
  | .importing p => p.Authorized s
  | .sync p => p.Authorized s
  | .setup p => p.Authorized s
  | .installation p => p.Authorized s

/-! ## What a change of the records keeps -/

section Extends

variable {s t : Records Text} {P Q : Nat → Prop}

theorem WebhookJob.Authorized.extend {job : WebhookJob Text} (h : job.Authorized s)
    (he : s.Extends t P) (hP : P job.repository.1) : job.Authorized t where
  repository := he.repository _ _ hP h.repository
  deployment := he.deployment _ _ _ h.deployment
  cluster := he.cluster _ _ h.cluster

theorem ImportJob.Authorized.extend {job : ImportJob} (h : job.Authorized s)
    (he : s.Extends t P) (hP : P job.request.repositoryId) : job.Authorized t where
  repository := he.repository _ _ hP h.repository
  cluster := he.cluster _ _ h.cluster
  loaded := h.loaded

theorem ImportStage.Authorized.extend {job : ImportJob} {stage : ImportStage Text}
    (h : stage.Authorized s job) (he : s.Extends t P) : stage.Authorized t job := by
  cases stage with
  | createProject spec deployment => exact he.deployment _ _ _ h
  | _ => trivial

/-- A change that keeps ownership as far as a handler relies on it keeps the handler authorized. -/
theorem Handler.Authorized.extend {p : Handler Text} (h : p.Authorized s)
    (he : s.Extends t fun id ↦ p.reliesOn s = some id) : p.Authorized t := by
  cases p with
  | webhook p =>
    cases p with
    | loadDeployment action repository project =>
      obtain ⟨hrepository, cluster, hdeployment⟩ := h
      exact ⟨he.repository _ _ rfl hrepository, cluster, he.deployment _ _ _ hdeployment⟩
    | updateDeployment job | loadCluster job | markError job message =>
      exact WebhookJob.Authorized.extend h he rfl
    | loadInstallation job cluster | mintToken job cluster installation
    | sendCredentials job cluster token | sendApply job cluster =>
      exact ⟨h.1.extend he rfl, h.2⟩
    | _ => trivial
  | form p =>
    cases p with
    | update deployment edit loaded => exact he.deployment _ _ _ h
    | _ => trivial
  | delete p => trivial
  | importing p =>
    cases p with
    | loadRepository request cluster => exact ⟨he.cluster _ _ h.1, h.2⟩
    | loadInstallation request cluster repository =>
      obtain ⟨hcluster, hloaded, o, ho, hrepository⟩ := h
      refine ⟨he.cluster _ _ hcluster, hloaded, o, he.installation _ _ ho, fun heq ↦ ?_⟩
      refine he.repository _ _ ?_ (hrepository heq)
      rw [Handler.reliesOn, if_pos (heq ▸ ho)]
    | checkProject job | readLeaseClock job | recover job | readClaimClock job
    | claim job startedAt =>
      exact ImportJob.Authorized.extend h he rfl
    | running job claimedAt stage | renewing job claimedAt renewedAt stage =>
      exact ⟨h.1.extend he rfl, h.2.extend he⟩
    | _ => trivial
  | sync p =>
    cases p with
    | list installation todo | lookup installation next rest todo =>
      exact ⟨h.1.extend he, fun i hi ↦ (h.2 i hi).extend he⟩
    | updateFields installation id existing rest todo | updateRow installation id existing rest todo
    | create installation row rest todo =>
      exact ⟨h.1.extend he, h.2.1.extend he, fun i hi ↦ (h.2.2 i hi).extend he⟩
    | _ => trivial
  | setup p =>
    cases p with
    | update id row => exact he.installation _ _ h
    | _ => trivial
  | installation p =>
    cases p with
    | update id row => exact he.installation _ _ h
    | _ => trivial

end Extends

/-! ## The handlers -/

section Handlers

variable {codec : ManifestCodec Text} {s t : Records Text} {o : Outcome}

/-- What a webhook computes from a loaded deployment. -/
theorem editManifest_authorized {action : WebhookAction} {repository : Nat × GitHubRepository}
    {project : Nat × GitHubProject} {loaded : Deployment Text} (hs : s.Authorized)
    (h : (WebhookPhase.loadDeployment action repository project : WebhookPhase Text).Authorized s)
    (hloaded : s.deployments.get project.2.deployment = some loaded) :
    (editManifest codec action repository project loaded).Authorized s := by
  obtain ⟨hrepository, cluster, hdeployment⟩ := h
  obtain ⟨hown, hcluster⟩ := hs.loaded hloaded
  have horganization := (hdeployment.2 loaded hloaded).1
  unfold editManifest
  split
  · trivial
  · split
    · trivial
    · trivial
    · exact ⟨horganization ▸ hrepository, hown, hcluster⟩

/-- The row a webhook writes has the organization and the cluster of the stored one. -/
theorem WebhookJob.Authorized.same {job : WebhookJob Text} (h : job.Authorized s) {status : String}
    (old : Deployment Text) (hold : s.deployments.get job.project.2.deployment = some old) :
    ({ job.deployment with status := status } : Deployment Text).organization = old.organization ∧
      ({ job.deployment with status := status } : Deployment Text).cluster = old.cluster := by
  obtain ⟨ho, hc⟩ := h.deployment.2 old hold
  exact ⟨ho.symm, hc.symm⟩

theorem WebhookPhase.authorized_advance {p p' : WebhookPhase Text} (hs : s.Authorized)
    (hp : p.Authorized s) (h : p.advance codec s o = some (t, p')) :
    s.Keeps t ∧ p'.Authorized t := by
  cases p with
  | loadRepository action githubRepositoryId =>
    simp only [advance, Option.some.injEq] at h
    split at h <;> (try split at h) <;> cases h <;> exact ⟨.refl hs, trivial⟩
  | loadProject action repository =>
    simp only [advance, Option.some.injEq] at h
    split at h
    · cases h
      exact ⟨.refl hs, trivial⟩
    · split at h
      · cases h
        exact ⟨.refl hs, trivial⟩
      · next project hproject =>
        cases h
        obtain ⟨hget, hfilter⟩ := Table.first_eq_some hproject
        have hid : project.2.repository = repository.1 := by simpa using hfilter
        obtain ⟨hrepository, hdeployment⟩ := hs.projects _ _ hget
        exact ⟨.refl hs, hid ▸ hrepository, hdeployment⟩
  | loadDeployment action repository project =>
    simp only [advance, Option.some.injEq] at h
    split at h
    · cases h
      exact ⟨.refl hs, trivial⟩
    · split at h
      · cases h
        exact ⟨.refl hs, trivial⟩
      · next loaded hloaded =>
        cases h
        exact ⟨.refl hs, editManifest_authorized hs hp hloaded⟩
  | updateDeployment job =>
    simp only [advance, Option.some.injEq] at h
    split at h
    · cases h
      exact ⟨.refl hs, trivial⟩
    · cases h
      have hkeeps := Records.authorized_updateDeployment job.deployment hp.same hs
      exact ⟨hkeeps, WebhookJob.Authorized.extend hp (hkeeps.2 fun _ ↦ True) trivial⟩
  | loadCluster job =>
    simp only [advance, Option.some.injEq] at h
    split at h
    · cases h
      exact ⟨.refl hs, trivial⟩
    · split at h
      · cases h
        exact ⟨.refl hs, trivial⟩
      · next cluster hcluster =>
        have ho := hp.cluster.2 cluster hcluster
        split at h <;> cases h <;> exact ⟨.refl hs, hp, ho⟩
  | loadInstallation job cluster =>
    simp only [advance, Option.some.injEq] at h
    split at h
    · cases h
      exact ⟨.refl hs, hp.1⟩
    · split at h <;> cases h
      · exact ⟨.refl hs, hp.1⟩
      · exact ⟨.refl hs, hp⟩
  | mintToken job cluster installation =>
    simp only [advance, Option.some.injEq] at h
    split at h <;> cases h
    · exact ⟨.refl hs, hp.1⟩
    · exact ⟨.refl hs, hp⟩
  | sendCredentials job cluster token =>
    simp only [advance, Option.some.injEq] at h
    split at h <;> cases h
    · exact ⟨Records.authorized_send hs,
        hp.1.extend ((Records.authorized_send hs).2 fun _ ↦ True) trivial, hp.2⟩
    · exact ⟨.refl hs, hp.1⟩
  | sendApply job cluster =>
    simp only [advance, Option.some.injEq] at h
    split at h <;> cases h
    · exact ⟨Records.authorized_send hs, trivial⟩
    · exact ⟨.refl hs, hp.1⟩
  | markError job message =>
    simp only [advance, Option.some.injEq] at h
    split at h <;> cases h
    · exact ⟨.refl hs, trivial⟩
    · exact ⟨Records.authorized_updateDeployment _ (WebhookJob.Authorized.same hp) hs, trivial⟩
  | returned => cases h

theorem FormPhase.authorized_advance {p p' : FormPhase Text} (hs : s.Authorized)
    (hp : p.Authorized s) (h : p.advance s o = some (t, p')) : s.Keeps t ∧ p'.Authorized t := by
  cases p with
  | load organization deployment edit =>
    simp only [advance, Option.some.injEq] at h
    split at h
    · cases h
      exact ⟨.refl hs, trivial⟩
    · split at h
      · cases h
        exact ⟨.refl hs, trivial⟩
      · next loaded hloaded =>
        cases h
        exact ⟨.refl hs, (hs.loaded (Option.filter_eq_some_iff.mp hloaded).1).1⟩
  | update deployment edit loaded =>
    simp only [advance, Option.some.injEq] at h
    split at h <;> cases h
    · exact ⟨.refl hs, trivial⟩
    · exact ⟨.refl hs, trivial⟩
    · refine ⟨Records.authorized_updateDeployment _ (fun old hold ↦ ?_) hs, trivial⟩
      obtain ⟨ho, hc⟩ := hp.2 old hold
      obtain ⟨ho', hc', -⟩ := DeploymentEdit.apply_keeps _ loaded
      exact ⟨ho'.trans ho.symm, hc'.trans hc.symm⟩
  | returned => cases h

theorem SetupPhase.authorized_advance {p p' : SetupPhase} (hs : s.Authorized)
    (hp : p.Authorized s) (h : p.advance s o = some (t, p')) : s.Keeps t ∧ p'.Authorized t := by
  cases p with
  | verify organization installationId =>
    simp only [advance, Option.some.injEq] at h
    split at h <;> (try split at h) <;> cases h <;> exact ⟨.refl hs, trivial⟩
  | lookup organization installation =>
    simp only [advance, Option.some.injEq] at h
    split at h
    · cases h
      exact ⟨.refl hs, trivial⟩
    · split at h
      · next id existing hfirst =>
        split at h <;> cases h
        · exact ⟨.refl hs, trivial⟩
        · refine ⟨.refl hs, ?_⟩
          exact Option.map_eq_some_iff.mpr ⟨existing, (Table.first_eq_some hfirst).1, rfl⟩
      · cases h
        exact ⟨.refl hs, trivial⟩
  | update id row =>
    simp only [advance, Option.some.injEq] at h
    split at h <;> cases h
    · exact ⟨.refl hs, trivial⟩
    · exact ⟨Records.authorized_updateInstallation hp hs, trivial⟩
  | create row =>
    simp only [advance, Option.some.injEq] at h
    split at h
    · next hcreate =>
      cases h
      obtain rfl := Records.createInstallation_eq_some hcreate
      exact ⟨Records.authorized_installations Table.retains_add hs, trivial⟩
    · cases h
      exact ⟨.refl hs, trivial⟩
  | returned => cases h

theorem InstallationPhase.authorized_advance {p p' : InstallationPhase} (hs : s.Authorized)
    (hp : p.Authorized s) (h : p.advance s o = some (t, p')) : s.Keeps t ∧ p'.Authorized t := by
  cases p with
  | lookup installation status =>
    simp only [advance, Option.some.injEq] at h
    split at h
    · cases h
      exact ⟨.refl hs, trivial⟩
    · split at h <;> cases h
      · exact ⟨.refl hs, trivial⟩
      · next id existing hfirst =>
        refine ⟨.refl hs, ?_⟩
        exact Option.map_eq_some_iff.mpr ⟨existing, (Table.first_eq_some hfirst).1, rfl⟩
  | update id row =>
    simp only [advance, Option.some.injEq] at h
    split at h <;> cases h
    · exact ⟨.refl hs, trivial⟩
    · exact ⟨Records.authorized_updateInstallation hp hs, trivial⟩
  | returned => cases h

/-- A claimed import stays authorized up to its first outside call. -/
theorem ImportPhase.authorized_begin {job : ImportJob} {claimedAt : Timestamp}
    {p : ImportPhase Text} (h : job.Authorized s) (hp : beginImport job claimedAt = p) :
    p.Authorized s := by
  unfold beginImport at hp
  split at hp
  · subst hp
    exact ⟨h, trivial⟩
  · subst hp
    trivial

theorem ImportPhase.authorized_prepare {job : ImportJob} {claimedAt : Timestamp}
    {spec : GitHubImportSpec} {p : ImportPhase Text} (h : job.Authorized s)
    (hp : prepareImport codec job claimedAt spec = p) : p.Authorized s := by
  unfold prepareImport at hp
  dsimp only at hp
  split at hp
  · subst hp
    trivial
  · split at hp <;> subst hp <;> exact ⟨h, trivial⟩

theorem ImportStage.authorized_advance {stage : ImportStage Text} {fault : Option String}
    {job : ImportJob} {claimedAt : Timestamp} {p' : ImportPhase Text} (hs : s.Authorized)
    (hjob : job.Authorized s) (hstage : stage.Authorized s job)
    (h : stage.advance codec s fault job claimedAt = (t, p')) :
    s.Keeps t ∧ p'.Authorized t := by
  cases stage with
  | mintToken spec =>
    simp only [advance] at h
    split at h
    · cases h
      exact ⟨.refl hs, trivial⟩
    · obtain ⟨rfl, hp'⟩ := Prod.mk.inj h
      exact ⟨.refl hs, ImportPhase.authorized_prepare hjob hp'⟩
  | sendCredentials spec manifest secretName token | sendApply spec manifest =>
    simp only [advance] at h
    split at h <;> cases h
    · exact ⟨Records.authorized_send hs,
        hjob.extend ((Records.authorized_send hs).2 fun _ ↦ True) trivial, trivial⟩
    · exact ⟨.refl hs, trivial⟩
    · exact ⟨.refl hs, trivial⟩
  | createDeployment spec manifest =>
    simp only [advance] at h
    split at h
    · next hcreate =>
      cases h
      obtain ⟨rfl, rfl⟩ := Records.createDeployment_eq_some hcreate
      have hkeeps := Records.authorized_addDeployment (importedDeployment job spec manifest)
        hjob.cluster hs
      refine ⟨hkeeps, hjob.extend (hkeeps.2 fun _ ↦ True) trivial, Nat.lt_succ_self _, ?_⟩
      intro row hrow
      obtain rfl := Option.some.inj (Table.get_add_next.symm.trans hrow)
      exact ⟨rfl, rfl⟩
    · cases h
      exact ⟨.refl hs, trivial⟩
  | createProject spec deployment =>
    simp only [advance] at h
    split at h
    · next hcreate =>
      cases h
      obtain rfl := Records.createProject_eq_some hcreate
      exact ⟨Records.authorized_addProject (importedGithubProject job spec deployment)
        hjob.repository hstage hs, trivial⟩
    · cases h
      exact ⟨.refl hs, hjob, trivial⟩
  | rollBack deployment error =>
    simp only [advance] at h
    split at h <;> cases h
    · exact ⟨.refl hs, trivial⟩
    · exact ⟨Records.authorized_deleteDeployments hs, trivial⟩

theorem ImportPhase.authorized_advance {p p' : ImportPhase Text} (hs : s.Authorized)
    (hp : p.Authorized s) (h : p.advance codec s o = some (t, p')) :
    s.Keeps t ∧ p'.Authorized t := by
  cases p with
  | loadCluster request =>
    simp only [advance, Option.some.injEq] at h
    split at h
    · cases h
      exact ⟨.refl hs, trivial⟩
    · split at h
      · cases h
        exact ⟨.refl hs, trivial⟩
      · next cluster hcluster =>
        cases h
        obtain ⟨hget, hfilter⟩ := Option.filter_eq_some_iff.mp hcluster
        have ho : cluster.organization = request.organization := by
          rw [Bool.and_eq_true, decide_eq_true_eq] at hfilter
          exact hfilter.1
        refine ⟨.refl hs, ⟨Table.lt_next_of_get hget, fun row hrow ↦ ?_⟩, ho⟩
        obtain rfl := Option.some.inj (hget.symm.trans hrow)
        exact ho
  | loadRepository request cluster =>
    simp only [advance, Option.some.injEq] at h
    split at h
    · cases h
      exact ⟨.refl hs, trivial⟩
    · split at h
      · cases h
        exact ⟨.refl hs, trivial⟩
      · next repository hrepository =>
        cases h
        obtain ⟨o', ho'⟩ := hs.repositories _ _ hrepository
        refine ⟨.refl hs, hp.1, hp.2, o', ho', fun heq ↦ ?_⟩
        exact Option.bind_eq_some_iff.mpr ⟨repository, hrepository, heq ▸ ho'⟩
  | loadInstallation request cluster repository =>
    simp only [advance, Option.some.injEq] at h
    split at h
    · cases h
      exact ⟨.refl hs, trivial⟩
    · split at h
      · cases h
        exact ⟨.refl hs, trivial⟩
      · next installation hinstallation =>
        cases h
        obtain ⟨hcluster, hloaded, o', ho', hrepository⟩ := hp
        obtain ⟨hget, hfilter⟩ := Option.filter_eq_some_iff.mp hinstallation
        have ho : s.installationOrganization repository.installation = some request.organization :=
          Option.map_eq_some_iff.mpr ⟨installation, hget, by simpa using hfilter⟩
        have heq : o' = request.organization := Option.some.inj (ho'.symm.trans ho)
        exact ⟨.refl hs, hrepository heq, hcluster, hloaded⟩
  | checkProject job =>
    simp only [advance, Option.some.injEq] at h
    split at h
    · cases h
      exact ⟨.refl hs, trivial⟩
    · split at h <;> cases h
      · exact ⟨.refl hs, trivial⟩
      · exact ⟨.refl hs, hp⟩
  | readLeaseClock job =>
    simp only [advance, Option.some.injEq] at h
    split at h <;> cases h <;> exact ⟨.refl hs, hp⟩
  | recover job =>
    simp only [advance, Option.some.injEq] at h
    split at h <;> cases h
    · exact ⟨.refl hs, trivial⟩
    · have hkeeps : s.Keeps (s.recoverGithubImportClaim job.request.repositoryId
          job.repository.importClaimedAt job.repository.updatedAt).1 :=
        Records.authorized_updateRepositoryFields _ _ _ (fun _ ↦ rfl) hs
      exact ⟨hkeeps, ImportJob.Authorized.extend hp (hkeeps.2 fun _ ↦ True) trivial⟩
  | readClaimClock job =>
    cases h
    exact ⟨.refl hs, hp⟩
  | claim job startedAt =>
    have hkeeps : s.Keeps (s.claimGithubImport job.request.repositoryId startedAt).1 :=
      Records.authorized_updateRepositoryFields _ _ _ (fun _ ↦ rfl) hs
    simp only [advance, Option.some.injEq] at h
    split at h
    · cases h
      exact ⟨.refl hs, trivial⟩
    · split at h
      · next hclaim =>
        obtain ⟨rfl, hp'⟩ := Prod.mk.inj h
        rw [hclaim] at hkeeps
        have hjob := ImportJob.Authorized.extend hp (hkeeps.2 fun _ ↦ True) trivial
        exact ⟨hkeeps, ImportPhase.authorized_begin hjob hp'⟩
      · next hclaim =>
        cases h
        rw [hclaim] at hkeeps
        exact ⟨hkeeps, trivial⟩
  | running job claimedAt stage =>
    simp only [advance, Option.some.injEq] at h
    split at h
    · cases h
      exact ⟨.refl hs, hp⟩
    · exact ImportStage.authorized_advance hs hp.1 hp.2 h
  | renewing job claimedAt renewedAt stage =>
    have hkeeps : s.Keeps
        (s.renewGithubImportClaim job.request.repositoryId claimedAt renewedAt).1 :=
      Records.authorized_updateRepositoryFields _ _ _ (fun _ ↦ rfl) hs
    simp only [advance, Option.some.injEq] at h
    split at h
    · cases h
      exact ⟨.refl hs, trivial⟩
    · split at h
      · next hrenew =>
        cases h
        rw [hrenew] at hkeeps
        exact ⟨hkeeps, hp.1.extend (hkeeps.2 fun _ ↦ True) trivial,
          hp.2.extend (hkeeps.2 fun _ ↦ True)⟩
      · next hrenew =>
        cases h
        rw [hrenew] at hkeeps
        exact ⟨hkeeps, trivial⟩
  | releasing job claimedAt error =>
    simp only [advance, Option.some.injEq] at h
    split at h <;> cases h
    · exact ⟨.refl hs, trivial⟩
    · exact ⟨Records.authorized_updateRepositoryFields _ _ _ (fun _ ↦ rfl) hs, trivial⟩
  | returned => cases h

theorem SyncPhase.authorized_nextInstallation {todo : List (Nat × GitHubInstallation)}
    (h : ∀ i ∈ todo, s.Installed i.1) : (nextInstallation todo).Authorized s := by
  cases todo with
  | nil => trivial
  | cons i todo => exact ⟨h i List.mem_cons_self, fun j hj ↦ h j (List.mem_cons_of_mem i hj)⟩

theorem SyncPhase.authorized_nextRepository {installation : Nat}
    {todo : List (Nat × GitHubInstallation)} {rest : List InstallationRepository}
    (hi : s.Installed installation) (h : ∀ i ∈ todo, s.Installed i.1) :
    (nextRepository installation todo rest).Authorized s := by
  cases rest with
  | nil => exact authorized_nextInstallation h
  | cons next rest => exact ⟨hi, h⟩

/-- A step of a listing that points no row in use at another organization. -/
theorem SyncPhase.authorized_advance {p p' : SyncPhase} {P : Nat → Prop} (hs : s.Authorized)
    (hp : p.Authorized s) (hmoves : o.fault = none → ∀ w ∈ (Handler.sync p : Handler Text).repoints,
      s.installationOrganization w.2 = s.repositoryOrganization w.1 ∨
        (∀ k project, s.projects.get k = some project → project.repository ≠ w.1) ∧ ¬ P w.1)
    (h : p.advance s o = some (t, p')) : t.Authorized ∧ s.Extends t P ∧ p'.Authorized t := by
  have hsame (h : p'.Authorized s) : s.Authorized ∧ s.Extends s P ∧ p'.Authorized s :=
    ⟨hs, (Records.Keeps.refl hs).2 P, h⟩
  cases p with
  | load organization wanted =>
    simp only [advance, Option.some.injEq] at h
    split at h
    · cases h
      exact hsame trivial
    · cases h
      exact hsame trivial
    · split at h
      · cases h
        exact hsame trivial
      · next installation hinstallation =>
        cases h
        refine hsame ⟨⟨installation.organization, ?_⟩, fun _ hi ↦ by cases hi⟩
        exact Option.map_eq_some_iff.mpr
          ⟨installation, (Option.filter_eq_some_iff.mp hinstallation).1, rfl⟩
    · cases h
      refine hsame (authorized_nextInstallation fun i hi ↦ ⟨i.2.organization, ?_⟩)
      exact Option.map_eq_some_iff.mpr ⟨i.2, (Table.mem_all.mp hi).1, rfl⟩
  | list installation todo =>
    simp only [advance, Option.some.injEq] at h
    split at h <;> cases h
    · exact hsame trivial
    · exact hsame (authorized_nextRepository hp.1 hp.2)
  | lookup installation next rest todo =>
    simp only [advance, Option.some.injEq] at h
    split at h
    · cases h
      exact hsame trivial
    · split at h
      · cases h
        exact hsame ⟨hp.1, hp.1, hp.2⟩
      · split at h <;> cases h <;> exact hsame ⟨hp.1, hp.1, hp.2⟩
  | updateFields installation id existing rest todo =>
    simp only [advance, Option.some.injEq] at h
    split at h
    · cases h
      exact hsame trivial
    · next hfault =>
      cases h
      rcases s.updateRepositoryFields_cases id (fun _ ↦ true)
        (fun row ↦ refreshMetadata row existing) with heq | ⟨row, -, -, heq⟩
      · rw [heq]
        exact hsame (authorized_nextRepository hp.1 hp.2.2)
      · rw [heq]
        obtain ⟨ht, he⟩ := Records.authorized_repoint (refreshMetadata row existing)
          hp.2.1 (hmoves hfault (id, existing.installation) rfl) hs
        exact ⟨ht, he, authorized_nextRepository (hp.1.extend he) fun i hi ↦
          (hp.2.2 i hi).extend he⟩
  | updateRow installation id existing rest todo =>
    simp only [advance, Option.some.injEq] at h
    split at h
    · cases h
      exact hsame trivial
    · next hfault =>
      cases h
      obtain ⟨ht, he⟩ := Records.authorized_repoint { existing with updatedAt := s.now }
        hp.2.1 (hmoves hfault (id, existing.installation) rfl) hs
      exact ⟨ht, he, authorized_nextRepository (hp.1.extend he) fun i hi ↦
        (hp.2.2 i hi).extend he⟩
  | create installation row rest todo =>
    simp only [advance, Option.some.injEq] at h
    split at h
    · next hcreate =>
      cases h
      obtain ⟨ht, he⟩ := Records.authorized_createRepository hcreate hp.2.1 hs
      exact ⟨ht, he P, authorized_nextRepository (hp.1.extend (he P)) fun i hi ↦
        (hp.2.2 i hi).extend (he P)⟩
    · cases h
      exact hsame trivial
  | returned => cases h

/-- One step of a handler keeps the invariant, its own part of it, and what the property covers. -/
theorem Handler.authorized_advance {p p' : Handler Text} {P : Nat → Prop} (hs : s.Authorized)
    (hp : p.Authorized s) (hmoves : o.fault = none → ∀ w ∈ p.repoints,
      s.installationOrganization w.2 = s.repositoryOrganization w.1 ∨
        (∀ k project, s.projects.get k = some project → project.repository ≠ w.1) ∧ ¬ P w.1)
    (h : p.advance codec s o = some (t, p')) : t.Authorized ∧ s.Extends t P ∧ p'.Authorized t := by
  have hall {q : Handler Text} (hk : s.Keeps t ∧ q.Authorized t) :
      t.Authorized ∧ s.Extends t P ∧ q.Authorized t := ⟨hk.1.1, hk.1.2 P, hk.2⟩
  cases p with
  | webhook p =>
    obtain ⟨p'', hu, rfl⟩ := phase_advance h
    exact hall (WebhookPhase.authorized_advance hs hp hu)
  | form p =>
    obtain ⟨p'', hu, rfl⟩ := phase_advance h
    exact hall (FormPhase.authorized_advance hs hp hu)
  | delete p =>
    obtain ⟨p'', hu, rfl⟩ := phase_advance h
    rcases DeletePhase.advance_cases hu with rfl | ⟨organization, deployment, -, -, rfl⟩
    · exact hall ⟨.refl hs, trivial⟩
    · exact hall ⟨Records.authorized_deleteDeploymentTransaction organization deployment hs,
        trivial⟩
  | importing p =>
    obtain ⟨p'', hu, rfl⟩ := phase_advance h
    exact hall (ImportPhase.authorized_advance hs hp hu)
  | sync p =>
    obtain ⟨p'', hu, rfl⟩ := phase_advance h
    exact SyncPhase.authorized_advance hs hp hmoves hu
  | setup p =>
    obtain ⟨p'', hu, rfl⟩ := phase_advance h
    exact hall (SetupPhase.authorized_advance hs hp hu)
  | installation p =>
    obtain ⟨p'', hu, rfl⟩ := phase_advance h
    exact hall (InstallationPhase.authorized_advance hs hp hu)

end Handlers

/-! ## Runs -/

section Runs

variable {codec : ManifestCodec Text} {s : ServiceState Text}

theorem Request.authorized_start (s : Records Text) (r : Request) :
    (r.start : Handler Text).Authorized s := by
  cases r with
  | form organization deployment edit =>
    simp only [Request.start, FormPhase.start, Handler.Authorized]
    split <;> trivial
  | importing request =>
    simp only [Request.start, ImportPhase.start, Handler.Authorized]
    split <;> trivial
  | installation action account =>
    simp only [Request.start, InstallationPhase.start, Handler.Authorized]
    split <;> trivial
  | _ => trivial

/-- A row that is not in use has neither a project nor a handler that relies on it. -/
theorem not_inUse {id : Nat} (h : ¬ InUse s id) {q : Handler Text} (hq : q ∈ s.procs) :
    (∀ k project, s.store.projects.get k = some project → project.repository ≠ id) ∧
      ¬ q.reliesOn s.store = some id := by
  obtain ⟨hprojects, hprocs⟩ := not_or.mp h
  refine ⟨fun k project hget hid ↦ ?_, fun hrelies ↦ hprocs ⟨q, hq, hrelies⟩⟩
  have hnone := Option.not_isSome_iff_eq_none.mp hprojects
  have := Table.first_eq_none hnone hget
  simp [hid] at this

/-- Steps that move no repository in use to another organization keep the invariant. -/
theorem authority_keeps (codec : ManifestCodec Text) :
    Pool.Keeps Request.start (Handler.advance codec) recordsEvent Records.Authorized
      Handler.Authorized (fun _ _ ↦ True) StaysInOrganization where
  symm := fun _ _ _ ↦ trivial
  start := fun s r _ _ ↦ ⟨r.authorized_start s.store, fun _ _ ↦ trivial⟩
  advance := by
    intro s i p o t p' hs hp hc ht
    have hmem := List.mem_of_getElem? hp
    have hstep (q : Handler Text) (hq : q ∈ s.procs) :
        t.Authorized ∧ s.store.Extends t (fun id ↦ q.reliesOn s.store = some id) ∧
          p'.Authorized t :=
      Handler.authorized_advance hs.store (hs.procs p hmem)
        (fun hfault w hw ↦ (hc hfault p hp w hw).imp_right fun h ↦ not_inUse h hq) ht
    refine ⟨(hstep p hmem).1, (hstep p hmem).2.2, fun j q _ hq ↦ ⟨?_, trivial⟩⟩
    have hq := List.mem_of_getElem? hq
    exact (hs.procs q hq).extend (hstep q hq).2.1
  environment := by
    intro s e t hs _ ht
    have hkeeps := recordsEvent_authorized hs.store ht
    exact ⟨hkeeps.1, fun q hq ↦ (hs.procs q hq).extend (hkeeps.2 _)⟩

/-- A step keeps the organization of every installation. -/
theorem installationOrganization_step {s t : ServiceState Text} {a : ServiceAction Text}
    (hs : s.Inv Records.Authorized Handler.Authorized fun _ _ ↦ True)
    (hc : StaysInOrganization s a) (ht : serviceStep codec s a = some t) {id o : Nat}
    (h : s.store.installationOrganization id = some o) :
    t.store.installationOrganization id = some o := by
  cases a with
  | start r =>
    obtain rfl := Option.some.inj ht
    exact h
  | advance i o =>
    obtain ⟨p, u, p', hp, hu, rfl⟩ := Pool.step_advance ht
    have hmem := List.mem_of_getElem? hp
    exact (Handler.authorized_advance (P := fun id ↦ p.reliesOn s.store = some id) hs.store
      (hs.procs p hmem) (fun hfault w hw ↦ (hc hfault p hp w hw).imp_right fun h ↦ not_inUse h hmem)
      hu).2.1.installation _ _ h
  | cancel i =>
    simp only [serviceStep, Pool.step] at ht
    split at ht <;> cases ht
    exact h
  | environment e =>
    obtain ⟨u, hu, rfl⟩ := Option.map_eq_some_iff.mp ht
    exact ((recordsEvent_authorized hs.store hu).2 fun _ ↦ True).installation _ _ h

/-- A webhook changes the deployment it was led to, while all belong together. -/
theorem webhook_changes {s : ServiceState Text} {t : Records Text}
    {phase phase' : WebhookPhase Text} {o : Outcome} {id : Nat}
    (hphase : phase.Authorized s.store) (ht : phase.advance codec s.store o = some (t, phase'))
    (hne : t.deployments.get id ≠ s.store.deployments.get id) :
    ∃ repository row, phase.repository = some repository ∧
      s.store.deployments.get id = some row ∧
      s.store.repositoryOrganization repository = some row.organization ∧
      s.store.ClusterIs row.cluster row.organization := by
  rcases WebhookPhase.advance_deployments ht with hsame | ⟨job, status, hwrite, hset⟩
  · rw [hsame] at hne
    exact absurd rfl hne
  · have hjob : job.Authorized s.store ∧ phase.repository = some job.repository.1 := by
      rcases hwrite with rfl | ⟨message, rfl⟩
      · exact ⟨hphase, rfl⟩
      · exact ⟨hphase, rfl⟩
    rw [hset, Table.get_set] at hne
    by_cases hid : id = job.project.2.deployment
    · subst hid
      cases hrow : s.store.deployments.get job.project.2.deployment with
      | none => simp [hrow] at hne
      | some row =>
        obtain ⟨ho, hcluster⟩ := hjob.1.deployment.2 row hrow
        exact ⟨_, row, hjob.2, rfl, ho ▸ hjob.1.repository, hcluster ▸ ho ▸ hjob.1.cluster⟩
    · rw [if_neg hid] at hne
      exact absurd rfl hne

/-- Credentials are sent only by a handler that is about to. -/
theorem credentials_of_sent {s t : Records Text} {p p' : Handler Text} {o : Outcome}
    (ht : p.advance codec s o = some (t, p')) {cluster : Nat} {projectName ns secretName : String}
    {token : InstallationToken} (h : t.outbox = s.outbox ++
      [.applyGitCredentialsSecret cluster projectName ns secretName token]) :
    p.credentials.isSome := by
  have hquiet (hsame : t.outbox = s.outbox) : p.credentials.isSome := by
    rw [hsame] at h
    simp at h
  have hother {c : AgentCommand Text} (hsent : t.outbox = s.outbox ++ [c])
      (hc : c ≠ .applyGitCredentialsSecret cluster projectName ns secretName token) :
      p.credentials.isSome := by
    rw [hsent] at h
    simp [hc] at h
  cases p with
  | webhook p =>
    obtain ⟨p'', hu, rfl⟩ := Handler.phase_advance ht
    rcases WebhookPhase.advance_outbox hu with hsame | ⟨job, cluster, token, rfl⟩ |
      ⟨job, cluster, -, hsent⟩
    · exact hquiet hsame
    · rfl
    · exact hother hsent (by simp)
  | form p =>
    obtain ⟨p'', hu, rfl⟩ := Handler.phase_advance ht
    exact hquiet (by rw [FormPhase.advance_frame hu])
  | delete p =>
    obtain ⟨p'', hu, rfl⟩ := Handler.phase_advance ht
    rcases DeletePhase.advance_cases hu with rfl | ⟨organization, deployment, -, -, rfl⟩
    · exact hquiet rfl
    · exact hquiet (by rw [Records.deleteDeploymentTransaction_frame])
  | importing p =>
    obtain ⟨p'', hu, rfl⟩ := Handler.phase_advance ht
    have hupdate {id : Nat} {filters : GitHubRepository → Bool}
        {assign : GitHubRepository → GitHubRepository} {u : Records Text} {n : Nat}
        (hu : s.updateRepositoryFields id filters assign = (u, n)) : u.outbox = s.outbox := by
      obtain rfl : (s.updateRepositoryFields id filters assign).1 = u := congrArg Prod.fst hu
      rw [Records.updateRepositoryFields_frame]
    rcases ImportPhase.advance_cases hu with ⟨rfl, -, -⟩ | ⟨job, claimedAt, stage, rfl, hstage⟩ |
      ⟨job, -, -, rfl⟩ | ⟨job, startedAt, -, -, -, hclaim⟩ |
      ⟨job, claimedAt, renewedAt, stage, -, -, hrenew⟩ | ⟨job, claimedAt, error, -, -, rfl⟩
    · exact hquiet rfl
    · rcases ImportStage.advance_outbox hstage with hsame |
        ⟨spec, manifest, secretName, token, rfl⟩ | ⟨spec, manifest, hsent⟩
      · exact hquiet hsame
      · rfl
      · exact hother hsent (by simp)
    · exact hquiet (hupdate rfl)
    · exact hquiet (hupdate hclaim)
    · exact hquiet (hupdate hrenew)
    · exact hquiet (hupdate rfl)
  | sync p =>
    obtain ⟨p'', hu, rfl⟩ := Handler.phase_advance ht
    exact hquiet (by rw [SyncPhase.advance_frame hu])
  | setup p =>
    obtain ⟨p'', hu, rfl⟩ := Handler.phase_advance ht
    exact hquiet (by rw [SetupPhase.advance_frame hu])
  | installation p =>
    obtain ⟨p'', hu, rfl⟩ := Handler.phase_advance ht
    exact hquiet (by rw [InstallationPhase.advance_frame hu])

/-- A handler about to mint or send credentials is authorized for them. -/
theorem Handler.Authorized.credentials {s : Records Text} {p : Handler Text}
    (h : p.Authorized s) {c : Nat × Nat × Cluster} (hc : p.credentials = some c) :
    s.repositoryOrganization c.1 = some c.2.1 ∧ c.2.2.organization = c.2.1 := by
  cases p with
  | webhook p =>
    cases p with
    | mintToken job cluster installation =>
      cases hc
      exact ⟨h.1.repository, h.2⟩
    | sendCredentials job cluster token =>
      cases hc
      exact ⟨h.1.repository, h.2⟩
    | _ => cases hc
  | importing p =>
    cases p with
    | running job claimedAt stage =>
      cases stage with
      | mintToken spec =>
        cases hc
        exact ⟨h.1.repository, h.1.loaded⟩
      | sendCredentials spec manifest secretName token =>
        cases hc
        exact ⟨h.1.repository, h.1.loaded⟩
      | _ => cases hc
    | _ => cases hc
  | _ => cases hc

/-- In every interleaving in which no listing moves a repository in use to an installation of
another organization, installations keep their organization, and webhooks and credentials stay
within one. -/
theorem github_authority_within_organization (codec : ManifestCodec Text) (now : Timestamp)
    {tr : List (ServiceTransition Text)} {s : ServiceState Text}
    (h : Run (serviceStep codec) ⟨Records.empty Text now, []⟩ tr s)
    (hstays : ∀ x ∈ tr, StaysInOrganization x.before x.action) :
    ∀ x ∈ tr, WithinOrganization x := by
  have hinit : (Records.empty Text now).Authorized :=
    ⟨fun _ _ h ↦ (nomatch h), fun _ _ h ↦ (nomatch h), fun _ _ h ↦ (nomatch h)⟩
  intro x hx
  obtain ⟨hbefore, hstep, -⟩ := ((authority_keeps codec).run hinit h hstays).2 x hx
  refine ⟨fun id o ho ↦ installationOrganization_step hbefore (hstays x hx) hstep ho, ?_, ?_, ?_⟩
  · intro i o phase id ha hphase hne
    rw [ha] at hstep
    obtain ⟨p, t, p', hp, ht, hafter⟩ := Pool.step_advance hstep
    obtain rfl := Option.some.inj (hphase.symm.trans hp)
    obtain ⟨phase', hu, -⟩ := Handler.phase_advance ht
    rw [hafter] at hne
    exact webhook_changes (hbefore.procs _ (List.mem_of_getElem? hphase)) hu hne
  · intro i o p cluster projectName ns secretName token ha hp hsent
    rw [ha] at hstep
    obtain ⟨q, t, q', hq, ht, hafter⟩ := Pool.step_advance hstep
    obtain rfl := Option.some.inj (hp.symm.trans hq)
    rw [hafter] at hsent
    exact credentials_of_sent ht hsent
  · intro i o p c ha hp hc
    exact (hbefore.procs p (List.mem_of_getElem? hp)).credentials hc

end Runs

/-! ## A repository that changes hands -/

instance (s : ServiceState Text) (id : Nat) : Decidable (InUse s id) :=
  inferInstanceAs (Decidable ((s.store.projects.first fun p ↦ p.repository = id).isSome = true ∨
    ∃ p ∈ s.procs, p.reliesOn s.store = some id))

instance (s : ServiceState Text) : (a : ServiceAction Text) → Decidable (StaysInOrganization s a)
  | .advance i o => inferInstanceAs (Decidable (o.fault = none → ∀ p ∈ s.procs[i]?,
      ∀ w ∈ p.repoints,
        s.store.installationOrganization w.2 = s.store.repositoryOrganization w.1 ∨ ¬ InUse s w.1))
  | .start _ => .isTrue trivial
  | .cancel _ => .isTrue trivial
  | .environment _ => .isTrue trivial

/-- A setup of an installation by an organization. -/
def setUp (i organization installationId : Nat) : List (ServiceAction Manifest) :=
  [.start (.setup organization installationId),
    .advance i { Outcome.success with
      accessible := [⟨installationId, installationId, "acme", "Organization"⟩] }] ++ goesOn i 2

/-- A listing by an organization whose installation reports the private repository. -/
def listShop (i organization : Nat) : List (ServiceAction Manifest) :=
  [.start (.sync organization none), .advance i .success,
    .advance i { Outcome.success with
      listed := [⟨500, "acme/shop", "acme", "shop", "main", true⟩] }] ++ goesOn i 2

/-- The first organization imports the repository to its cluster. -/
def importShop : List (ServiceAction Manifest) :=
  [.environment (.createCluster ⟨1, "prod", "https://k8s", true⟩)] ++
    setUp 0 1 70 ++ setUp 1 2 80 ++
  listShop 2 1 ++ [.start (.importing ⟨1, 0, 0, "", "registry/shop"⟩)] ++ goesOn 3 12

/-- A push to it, up to the token. -/
def pushShop (i : Nat) : List (ServiceAction Manifest) :=
  [.start (.webhook (.buildTrigger "main" "0123456789abcdef") 500)] ++ goesOn i 6

/-- The second organization's installation takes the repository over, and the next push still builds
in the first one's cluster, with a token of the second one's repository. -/
theorem push_crosses_organizations : ∃ tr s, Run (serviceStep plainCodec)
    ⟨Records.empty Manifest 0, []⟩ tr s ∧ ∃ x ∈ tr, ¬ WithinOrganization x := by
  have hstate : (execute (serviceStep plainCodec) ⟨Records.empty Manifest 0, []⟩
      (importShop ++ listShop 4 2 ++ pushShop 5)).map (fun s ↦
        ((s.procs[5]?.bind Handler.credentials).map fun c ↦
          (s.store.repositoryOrganization c.1, c.2.1),
        (serviceStep plainCodec s (.advance 5 .success)).isSome)) =
      some (some (some 2, 1), true) := by decide
  obtain ⟨s, hs, hc⟩ := Option.map_eq_some_iff.mp hstate
  rw [Prod.mk.injEq] at hc
  obtain ⟨hcredentials, hnext⟩ := hc
  obtain ⟨c, hbind, horganizations⟩ := Option.map_eq_some_iff.mp hcredentials
  obtain ⟨p, hp, hpc⟩ := Option.bind_eq_some_iff.mp hbind
  obtain ⟨t, ht⟩ := Option.isSome_iff_exists.mp hnext
  refine ⟨_, t, (Run.of_execute _ hs).snoc ht, _, List.mem_append_right _ List.mem_cons_self,
    fun h ↦ ?_⟩
  have hsame := (h.credentials 5 .success p c rfl hp hpc).1
  rw [Prod.mk.injEq] at horganizations
  rw [horganizations.1, horganizations.2] at hsame
  cases hsame

/-- As long as the repository stays with its organization, the push stays within it. -/
theorem push_within_organization : ∃ tr s, Run (serviceStep plainCodec)
    ⟨Records.empty Manifest 0, []⟩ tr s ∧ s.store.repositoryOrganization 0 = some 1 ∧
      s.store.outbox.length = 4 ∧ ∀ x ∈ tr, WithinOrganization x := by
  have hstate : (execute (serviceStep plainCodec) ⟨Records.empty Manifest 0, []⟩
      (importShop ++ listShop 4 1 ++ pushShop 5 ++ goesOn 5 3)).map
        (fun s ↦ (s.store.repositoryOrganization 0, s.store.outbox.length)) =
      some (some 1, 4) := by decide
  obtain ⟨s, hs, hc⟩ := Option.map_eq_some_iff.mp hstate
  rw [Prod.mk.injEq] at hc
  have hrun := Run.of_execute _ hs
  exact ⟨_, s, hrun, hc.1, hc.2, github_authority_within_organization plainCodec 0 hrun (by decide)⟩

end ReinhardtCloud.Dashboard

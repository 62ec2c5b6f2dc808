import ReinhardtCloud.Dashboard.Service

/-!
# Which organization owns what

Library `Dashboard`. Installations, deployments and clusters belong to an organization, and a
repository to the one whose installation its row references. The tables are in order when projects,
deployments and clusters agree; each query keeps that as long as it moves no row to another
owner.
-/

namespace ReinhardtCloud.Dashboard

open ReinhardtCloud.Base

variable {Text : Type}

namespace Records

/-- The organization of an installation row. -/
def installationOrganization (s : Records Text) (id : Nat) : Option Nat :=
  (s.installations.get id).map fun row ↦ row.organization

/-- The organization of the installation that a repository row references. -/
def repositoryOrganization (s : Records Text) (id : Nat) : Option Nat :=
  (s.repositories.get id).bind fun row ↦ s.installationOrganization row.installation

/-- The id is a deployment's of this organization on this cluster, as long as it is stored. -/
def DeploymentIs (s : Records Text) (id organization cluster : Nat) : Prop :=
  id < s.deployments.next ∧ ∀ row, s.deployments.get id = some row →
    row.organization = organization ∧ row.cluster = cluster

/-- The id is a cluster's of this organization, as long as it is stored. -/
def ClusterIs (s : Records Text) (id organization : Nat) : Prop :=
  id < s.clusters.next ∧ ∀ row, s.clusters.get id = some row → row.organization = organization

end Records

/-- The installation row is stored. -/
def Records.Installed (s : Records Text) (id : Nat) : Prop :=
  ∃ o, s.installationOrganization id = some o

/-- Every repository references a stored installation, every project belongs to the organization of
its repository's installation and of its deployment, and every deployment to that of its
cluster. -/
structure Records.Authorized (s : Records Text) : Prop where
  repositories : ∀ id row, s.repositories.get id = some row →
    ∃ o, s.installationOrganization row.installation = some o
  projects : ∀ k row, s.projects.get k = some row →
    s.repositoryOrganization row.repository = some row.organization ∧
      ∃ cluster, s.DeploymentIs row.deployment row.organization cluster
  deployments : ∀ id row, s.deployments.get id = some row →
    s.ClusterIs row.cluster row.organization

/-- Ownership in `s` is kept in `t`, for repositories as far as they have the property. -/
structure Records.Extends (s t : Records Text) (P : Nat → Prop) : Prop where
  installation : ∀ id o, s.installationOrganization id = some o →
    t.installationOrganization id = some o
  repository : ∀ id o, P id → s.repositoryOrganization id = some o →
    t.repositoryOrganization id = some o
  deployment : ∀ id o c, s.DeploymentIs id o c → t.DeploymentIs id o c
  cluster : ∀ id o, s.ClusterIs id o → t.ClusterIs id o

/-! ## What a change of the tables keeps -/

section Queries

variable {s t : Records Text} {P : Nat → Prop}

theorem Records.Installed.extend {id : Nat} (h : s.Installed id) (he : s.Extends t P) :
    t.Installed id := by
  obtain ⟨o, ho⟩ := h
  exact ⟨o, he.installation id o ho⟩

/-- A later state of the tables extends ownership when no row changes its owner. -/
theorem Records.extends_of_tables
    (hinstallations : s.installations.Retains (fun row ↦ row.organization) t.installations)
    (hrepositories : s.repositories.Retains (fun row ↦ row.installation) t.repositories)
    (hdeployments : s.deployments.Refreshes (fun row ↦ (row.organization, row.cluster))
      t.deployments)
    (hclusters : s.clusters.Refreshes (fun row ↦ row.organization) t.clusters) :
    s.Extends t P := by
  have hinstallation (id o : Nat) (h : s.installationOrganization id = some o) :
      t.installationOrganization id = some o := by
    obtain ⟨row, hrow, rfl⟩ := Option.map_eq_some_iff.mp h
    obtain ⟨row', hrow', ho⟩ := hinstallations id row hrow
    exact Option.map_eq_some_iff.mpr ⟨row', hrow', ho⟩
  refine ⟨hinstallation, ?_, ?_, ?_⟩
  · intro id o _ h
    obtain ⟨row, hrow, ho⟩ := Option.bind_eq_some_iff.mp h
    obtain ⟨row', hrow', hi⟩ := hrepositories id row hrow
    have hi : row'.installation = row.installation := hi
    exact Option.bind_eq_some_iff.mpr ⟨row', hrow', hi ▸ hinstallation _ _ ho⟩
  · intro id o c h
    refine ⟨Nat.lt_of_lt_of_le h.1 hdeployments.1, fun row hrow ↦ ?_⟩
    obtain ⟨old, hold, heq⟩ := hdeployments.2 id row h.1 hrow
    rw [Prod.mk.injEq] at heq
    exact ⟨heq.1 ▸ (h.2 old hold).1, heq.2 ▸ (h.2 old hold).2⟩
  · intro id o h
    refine ⟨Nat.lt_of_lt_of_le h.1 hclusters.1, fun row hrow ↦ ?_⟩
    obtain ⟨old, hold, heq⟩ := hclusters.2 id row h.1 hrow
    exact heq.symm.trans (h.2 old hold)

/-- Kept ownership of all that projects use keeps the invariant, when new rows meet it. -/
theorem Records.Authorized.extend (hs : s.Authorized)
    (he : s.Extends t fun id ↦ ∃ k row, s.projects.get k = some row ∧ row.repository = id)
    (hrepositories : ∀ id row, t.repositories.get id = some row →
      (∃ old, s.repositories.get id = some old ∧ old.installation = row.installation) ∨
        t.Installed row.installation)
    (hprojects : ∀ k row, t.projects.get k = some row → s.projects.get k = some row ∨
      t.repositoryOrganization row.repository = some row.organization ∧
        ∃ cluster, t.DeploymentIs row.deployment row.organization cluster)
    (hdeployments : ∀ id row, t.deployments.get id = some row →
      (∃ old, s.deployments.get id = some old ∧ old.organization = row.organization ∧
        old.cluster = row.cluster) ∨ t.ClusterIs row.cluster row.organization) :
    t.Authorized := by
  constructor
  · intro id row hrow
    rcases hrepositories id row hrow with ⟨old, hold, hi⟩ | hnew
    · rw [← hi]
      exact Records.Installed.extend (hs.repositories id old hold) he
    · exact hnew
  · intro k row hrow
    rcases hprojects k row hrow with hold | hnew
    · obtain ⟨hrepository, cluster, hdeployment⟩ := hs.projects k row hold
      exact ⟨he.repository _ _ ⟨k, row, hold, rfl⟩ hrepository, cluster,
        he.deployment _ _ _ hdeployment⟩
    · exact hnew
  · intro id row hrow
    rcases hdeployments id row hrow with ⟨old, hold, ho, hc⟩ | hnew
    · rw [← ho, ← hc]
      exact he.cluster _ _ (hs.deployments id old hold)
    · exact hnew

/-- An update of a deployment that leaves its organization and its cluster. -/
theorem Records.authorized_updateDeployment {id : Nat} (row : Deployment Text)
    (h : ∀ old, s.deployments.get id = some old →
      row.organization = old.organization ∧ row.cluster = old.cluster) (hs : s.Authorized) :
    (s.updateDeployment id row).Authorized ∧ ∀ P, s.Extends (s.updateDeployment id row) P := by
  have hset : s.deployments.Refreshes (fun row ↦ (row.organization, row.cluster))
      (s.deployments.set id row) :=
    Table.refreshes_set fun old hold ↦ Prod.ext (h old hold).1 (h old hold).2
  have he (P : Nat → Prop) : s.Extends (s.updateDeployment id row) P :=
    extends_of_tables .refl .refl hset .refl
  refine ⟨hs.extend (he _) (fun _ row' hrow ↦ .inl ⟨row', hrow, rfl⟩) (fun _ _ hrow ↦ .inl hrow)
    fun j row' hrow ↦ .inl ?_, he⟩
  have hj : j < s.deployments.next := by
    have := Table.lt_next_of_get hrow
    rwa [Records.updateDeployment, Table.next_set] at this
  obtain ⟨old, hold, heq⟩ := hset.2 j row' hj hrow
  rw [Prod.mk.injEq] at heq
  exact ⟨old, hold, heq⟩

/-- A new deployment on a cluster of its organization. -/
theorem Records.authorized_addDeployment (row : Deployment Text)
    (h : s.ClusterIs row.cluster row.organization) (hs : s.Authorized) :
    ({ s with deployments := s.deployments.add row } : Records Text).Authorized ∧
      ∀ P, s.Extends { s with deployments := s.deployments.add row } P := by
  have he (P : Nat → Prop) : s.Extends { s with deployments := s.deployments.add row } P :=
    extends_of_tables .refl .refl Table.refreshes_add .refl
  refine ⟨hs.extend (he _) (fun _ row' hrow ↦ .inl ⟨row', hrow, rfl⟩) (fun _ _ hrow ↦ .inl hrow)
    fun j row' hrow ↦ ?_, he⟩
  rw [Table.get_add] at hrow
  split at hrow
  · obtain rfl := Option.some.inj hrow
    exact .inr h
  · exact .inl ⟨row', hrow, rfl, rfl⟩

/-- A new project of the organization of its repository and its deployment. -/
theorem Records.authorized_addProject (row : GitHubProject)
    (hrepository : s.repositoryOrganization row.repository = some row.organization)
    {cluster : Nat} (hdeployment : s.DeploymentIs row.deployment row.organization cluster)
    (hs : s.Authorized) :
    ({ s with projects := s.projects.add row } : Records Text).Authorized ∧
      ∀ P, s.Extends { s with projects := s.projects.add row } P := by
  have he (P : Nat → Prop) : s.Extends { s with projects := s.projects.add row } P :=
    extends_of_tables .refl .refl .refl .refl
  refine ⟨hs.extend (he _) (fun _ row' hrow ↦ .inl ⟨row', hrow, rfl⟩) (fun k row' hrow ↦ ?_)
    (fun _ row' hrow ↦ .inl ⟨row', hrow, rfl, rfl⟩), he⟩
  rw [Table.get_add] at hrow
  split at hrow
  · obtain rfl := Option.some.inj hrow
    exact .inr ⟨hrepository, cluster, hdeployment⟩
  · exact .inl hrow

/-- An update of repository columns other than the installation. -/
theorem Records.authorized_updateRepositoryFields (id : Nat) (filters : GitHubRepository → Bool)
    (assign : GitHubRepository → GitHubRepository)
    (h : ∀ row, (assign row).installation = row.installation) (hs : s.Authorized) :
    (s.updateRepositoryFields id filters assign).1.Authorized ∧
      ∀ P, s.Extends (s.updateRepositoryFields id filters assign).1 P := by
  rcases s.updateRepositoryFields_cases id filters assign with heq | ⟨row, hrow, -, heq⟩
  · rw [heq]
    exact ⟨hs, fun _ ↦ extends_of_tables .refl .refl .refl .refl⟩
  · rw [heq]
    have hold (old : GitHubRepository) (hold : s.repositories.get id = some old) :
        (assign row).installation = old.installation := by
      obtain rfl := Option.some.inj (hrow.symm.trans hold)
      exact h row
    have he (P : Nat → Prop) :
        s.Extends { s with repositories := s.repositories.set id (assign row) } P :=
      extends_of_tables .refl (Table.retains_set hold) .refl .refl
    refine ⟨hs.extend (he _) (fun j row' hrow' ↦ ?_) (fun _ _ hrow ↦ .inl hrow)
      (fun _ row' hrow ↦ .inl ⟨row', hrow, rfl, rfl⟩), he⟩
    rw [Table.get_set] at hrow'
    split at hrow'
    · next hj =>
      obtain ⟨old, hget, rfl⟩ := Option.map_eq_some_iff.mp hrow'
      exact .inl ⟨old, hj ▸ hget, (hold old hget).symm⟩
    · exact .inl ⟨row', hrow', rfl⟩

/-- Deleted deployments take their projects along. -/
theorem Records.authorized_deleteDeployments {p : Nat → Deployment Text → Bool}
    (hs : s.Authorized) :
    (s.deleteDeployments p).Authorized ∧ ∀ P, s.Extends (s.deleteDeployments p) P := by
  have he (P : Nat → Prop) : s.Extends (s.deleteDeployments p) P :=
    extends_of_tables .refl .refl Table.refreshes_deleteWhere .refl
  exact ⟨hs.extend (he _) (fun _ row hrow ↦ .inl ⟨row, hrow, rfl⟩)
    (fun _ _ hrow ↦ .inl (Table.get_deleteWhere.mp hrow).1)
    (fun _ row hrow ↦ .inl ⟨row, (Table.get_deleteWhere.mp hrow).1, rfl, rfl⟩), he⟩

theorem Records.Extends.trans {u : Records Text} (h : s.Extends t P) (h' : t.Extends u P) :
    s.Extends u P where
  installation := fun id o ho ↦ h'.installation id o (h.installation id o ho)
  repository := fun id o hP ho ↦ h'.repository id o hP (h.repository id o hP ho)
  deployment := fun id o c hd ↦ h'.deployment id o c (h.deployment id o c hd)
  cluster := fun id o hc ↦ h'.cluster id o (h.cluster id o hc)

/-- The transaction of a deletion. -/
theorem Records.authorized_deleteDeploymentTransaction (organization id : Nat)
    (hs : s.Authorized) :
    (s.deleteDeploymentTransaction organization id).Authorized ∧
      ∀ P, s.Extends (s.deleteDeploymentTransaction organization id) P := by
  unfold Records.deleteDeploymentTransaction
  dsimp only
  split
  · next k project hfirst =>
    obtain ⟨hreleased, hextends⟩ := Records.authorized_updateRepositoryFields project.repository
      (fun _ ↦ true) (fun row ↦ { row with selected := false, importClaimedAt := none })
      (fun _ ↦ rfl) hs
    obtain ⟨hdeleted, hextends'⟩ := Records.authorized_deleteDeployments
      (p := fun k row ↦ k = id && row.organization = organization) hreleased
    exact ⟨hdeleted, fun P ↦ (hextends P).trans (hextends' P)⟩
  · exact Records.authorized_deleteDeployments hs

/-- A listing points a row at a stored installation, of the same organization or when neither a
project nor a relying handler uses the row. -/
theorem Records.authorized_repoint {id : Nat} (row : GitHubRepository)
    (hinstalled : s.Installed row.installation)
    (hsame : s.installationOrganization row.installation = s.repositoryOrganization id ∨
      (∀ k project, s.projects.get k = some project → project.repository ≠ id) ∧ ¬ P id)
    (hs : s.Authorized) :
    ({ s with repositories := s.repositories.set id row } : Records Text).Authorized ∧
      s.Extends { s with repositories := s.repositories.set id row } P := by
  have hget (j : Nat) (hj : j ≠ id ∨
      s.installationOrganization row.installation = s.repositoryOrganization id) (o : Nat)
      (ho : s.repositoryOrganization j = some o) :
      Records.repositoryOrganization { s with repositories := s.repositories.set id row } j =
        some o := by
    obtain ⟨old, hold, ho'⟩ := Option.bind_eq_some_iff.mp ho
    by_cases hid : j = id
    · subst hid
      refine Option.bind_eq_some_iff.mpr ⟨row, Table.get_set_self hold, ?_⟩
      rcases hj with hj | hj
      · exact absurd rfl hj
      · exact hj.trans ho
    · exact Option.bind_eq_some_iff.mpr ⟨old, (Table.get_set_of_ne hid).trans hold, ho'⟩
  have he (Q : Nat → Prop)
      (hQ : s.installationOrganization row.installation = s.repositoryOrganization id ∨ ¬ Q id) :
      s.Extends { s with repositories := s.repositories.set id row } Q := by
    refine ⟨fun _ _ h ↦ h, fun j o hj ho ↦ hget j ?_ o ho, fun _ _ _ h ↦ h, fun _ _ h ↦ h⟩
    by_cases hid : j = id
    · subst hid
      exact .inr (hQ.resolve_right fun hn ↦ hn hj)
    · exact .inl hid
  refine ⟨hs.extend (he _ ?_) (fun j row' hrow' ↦ ?_) (fun _ _ hrow ↦ .inl hrow)
    (fun _ row' hrow ↦ .inl ⟨row', hrow, rfl, rfl⟩), he P (hsame.imp_right fun h ↦ h.2)⟩
  · refine hsame.imp_right fun h hex ↦ ?_
    obtain ⟨k, project, hproject, hid⟩ := hex
    exact h.1 k project hproject hid
  · rw [Table.get_set] at hrow'
    split at hrow'
    · obtain ⟨old, -, rfl⟩ := Option.map_eq_some_iff.mp hrow'
      exact .inr hinstalled
    · exact .inl ⟨row', hrow', rfl⟩

/-- A new repository of a stored installation. -/
theorem Records.authorized_createRepository {row : GitHubRepository}
    (h : s.createRepository row = some t) (hinstalled : s.Installed row.installation)
    (hs : s.Authorized) : t.Authorized ∧ ∀ P, s.Extends t P := by
  obtain rfl := createRepository_eq_some h
  have he (P : Nat → Prop) : s.Extends
      { s with repositories := s.repositories.add { row with updatedAt := s.now } } P :=
    extends_of_tables .refl Table.retains_add .refl .refl
  refine ⟨hs.extend (he _) (fun j row' hrow' ↦ ?_) (fun _ _ hrow ↦ .inl hrow)
    (fun _ row' hrow ↦ .inl ⟨row', hrow, rfl, rfl⟩), he⟩
  rw [Table.get_add] at hrow'
  split at hrow'
  · obtain rfl := Option.some.inj hrow'
    exact .inr hinstalled
  · exact .inl ⟨row', hrow', rfl⟩

/-- A changed installations table in which no row changes its organization. -/
theorem Records.authorized_installations {installations : Table GitHubInstallation}
    (h : s.installations.Retains (fun row ↦ row.organization) installations)
    (hs : s.Authorized) :
    ({ s with installations := installations } : Records Text).Authorized ∧
      ∀ P, s.Extends { s with installations := installations } P := by
  have he (P : Nat → Prop) : s.Extends { s with installations := installations } P :=
    extends_of_tables h .refl .refl .refl
  exact ⟨hs.extend (he _) (fun _ row hrow ↦ .inl ⟨row, hrow, rfl⟩) (fun _ _ hrow ↦ .inl hrow)
    (fun _ row hrow ↦ .inl ⟨row, hrow, rfl, rfl⟩), he⟩

/-- A row written back with the organization that is stored. -/
theorem Records.authorized_updateInstallation {id : Nat} {row : GitHubInstallation}
    (h : s.installationOrganization id = some row.organization) (hs : s.Authorized) :
    (s.updateInstallation id row).Authorized ∧
      ∀ P, s.Extends (s.updateInstallation id row) P := by
  refine Records.authorized_installations (Table.retains_set fun old hold ↦ ?_) hs
  rw [installationOrganization, hold] at h
  exact (Option.some.inj h).symm

/-- A changed clusters table in which no row changes its organization. -/
theorem Records.authorized_clusters {clusters : Table Cluster}
    (h : s.clusters.Refreshes (fun row ↦ row.organization) clusters) (hs : s.Authorized) :
    ({ s with clusters := clusters } : Records Text).Authorized ∧
      ∀ P, s.Extends { s with clusters := clusters } P := by
  have he (P : Nat → Prop) : s.Extends { s with clusters := clusters } P :=
    extends_of_tables .refl .refl .refl h
  exact ⟨hs.extend (he _) (fun _ row hrow ↦ .inl ⟨row, hrow, rfl⟩) (fun _ _ hrow ↦ .inl hrow)
    (fun _ row hrow ↦ .inl ⟨row, hrow, rfl, rfl⟩), he⟩

/-- Commands have no owner. -/
theorem Records.authorized_send {command : AgentCommand Text} (hs : s.Authorized) :
    (s.send command).Authorized ∧ ∀ P, s.Extends (s.send command) P := by
  have he (P : Nat → Prop) : s.Extends (s.send command) P :=
    extends_of_tables .refl .refl .refl .refl
  exact ⟨hs.extend (he _) (fun _ row hrow ↦ .inl ⟨row, hrow, rfl⟩) (fun _ _ hrow ↦ .inl hrow)
    (fun _ row hrow ↦ .inl ⟨row, hrow, rfl, rfl⟩), he⟩

/-- A changed state that keeps the invariant and all ownership. -/
def Records.Keeps (s t : Records Text) : Prop := t.Authorized ∧ ∀ P, s.Extends t P

theorem Records.Keeps.refl (hs : s.Authorized) : s.Keeps s :=
  ⟨hs, fun _ ↦ extends_of_tables .refl .refl .refl .refl⟩

/-- A loaded deployment is its own organization's and on its organization's cluster. -/
theorem Records.Authorized.loaded (hs : s.Authorized) {id : Nat} {row : Deployment Text}
    (h : s.deployments.get id = some row) :
    s.DeploymentIs id row.organization row.cluster ∧ s.ClusterIs row.cluster row.organization := by
  refine ⟨⟨Table.lt_next_of_get h, fun row' hrow' ↦ ?_⟩, hs.deployments id row h⟩
  obtain rfl := Option.some.inj (h.symm.trans hrow')
  exact ⟨rfl, rfl⟩

/-- Events beside the handlers leave every organization. -/
theorem recordsEvent_authorized {s t : Records Text} {e : RecordsEvent Text} (hs : s.Authorized)
    (h : recordsEvent s e = some t) : s.Keeps t := by
  cases e with
  | tick n =>
    cases h
    have he (P : Nat → Prop) : s.Extends { s with now := s.now + n } P :=
      Records.extends_of_tables .refl .refl .refl .refl
    exact ⟨hs.extend (he _) (fun _ row hrow ↦ .inl ⟨row, hrow, rfl⟩) (fun _ _ hrow ↦ .inl hrow)
      (fun _ row hrow ↦ .inl ⟨row, hrow, rfl, rfl⟩), he⟩
  | createCluster cluster =>
    cases h
    exact Records.authorized_clusters Table.refreshes_add hs
  | editCluster id name apiUrl isActive =>
    obtain ⟨cluster, hcluster, rfl⟩ := Option.map_eq_some_iff.mp h
    refine Records.authorized_clusters (Table.refreshes_set fun old hold ↦ ?_) hs
    obtain rfl := Option.some.inj (hcluster.symm.trans hold)
    rfl
  | deleteCluster id =>
    simp only [recordsEvent] at h
    split at h <;> cases h
    exact Records.authorized_clusters Table.refreshes_deleteWhere hs
  | addDeployment row =>
    obtain ⟨cluster, hcluster, rfl⟩ := Option.map_eq_some_iff.mp h
    obtain ⟨hget, ho⟩ := Option.filter_eq_some_iff.mp hcluster
    refine Records.authorized_addDeployment _ ⟨Table.lt_next_of_get hget, fun row' hrow' ↦ ?_⟩ hs
    obtain rfl := Option.some.inj (hget.symm.trans hrow')
    simpa using ho

end Queries

end ReinhardtCloud.Dashboard

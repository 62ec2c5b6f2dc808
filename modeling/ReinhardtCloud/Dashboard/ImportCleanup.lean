import ReinhardtCloud.Dashboard.ImportLease

/-!
# What a failed import leaves

Library `Dashboard`. One import among all other requests (`apps/github/server_fn.rs:31–92,229–240,
597–759`): what it has inserted, queued and claimed when it returns. Its compensation covers the
failed insert of the GitHub project only, and only the Deployment row; nothing takes back the
Project manifest. The import leaves nothing behind as long as nothing fails once the manifest is
queued.
-/

namespace ReinhardtCloud.Dashboard

open ReinhardtCloud.Base

variable {Text : Type}

/-! ## One import at work -/

/-- An import and, beside it, the records with all other requests. -/
structure ImportCall (Text : Type) where
  others : ServiceState Text
  phase : ImportPhase Text

/-- The import goes on, or another request or the surroundings do. -/
inductive ImportTurn (Text : Type) where
  | go (outcome : Outcome)
  | others (action : ServiceAction Text)

/-- The records. -/
def ImportCall.store (s : ImportCall Text) : Records Text := s.others.store

/-- An import comes in. -/
def ImportCall.start (records : Records Text) (request : ImportRequest) : ImportCall Text :=
  ⟨⟨records, []⟩, .start request⟩

/-- One step. -/
def importStep (codec : ManifestCodec Text) (s : ImportCall Text) :
    ImportTurn Text → Option (ImportCall Text)
  | .go o => (s.phase.advance codec s.store o).map fun r ↦ ⟨{ s.others with store := r.1 }, r.2⟩
  | .others a => (serviceStep codec s.others a).map fun t ↦ { s with others := t }

abbrev ImportTransition (Text : Type) := Transition (ImportCall Text) (ImportTurn Text)

/-! ## What it leaves -/

/-- The import itself took the transition. -/
def Own (x : ImportTransition Text) : Prop := ∃ o, x.action = .go o

/-- The import has inserted the Deployment row under the id. -/
def InsertedDeployment (tr : List (ImportTransition Text)) (id : Nat) : Prop :=
  ∃ x ∈ tr, Own x ∧ x.before.store.deployments.get id = none ∧
    (x.after.store.deployments.get id).isSome = true

/-- The import has inserted the GitHub project row under the id. -/
def InsertedProject (tr : List (ImportTransition Text)) (id : Nat) : Prop :=
  ∃ x ∈ tr, Own x ∧ x.before.store.projects.get id = none ∧
    (x.after.store.projects.get id).isSome = true

/-- The import has queued the manifest of a Project. -/
def QueuedProject (tr : List (ImportTransition Text)) (cluster : Nat) (projectName : String)
    (yaml : Text) : Prop :=
  ∃ x ∈ tr, Own x ∧ x.after.store.outbox = x.before.store.outbox ++
    [.applyProject cluster projectName yaml]

/-- While the import held the repository, the row came to carry the lease of another import. -/
def TakenOver (tr : List (ImportTransition Text)) (id : Nat) : Prop :=
  ∃ x ∈ tr, (x.after.phase.lease.map Prod.fst = some id) ∧ ∃ p ∈ x.after.others.procs,
    ∃ claimedAt row, p.lease = some (id, claimedAt) ∧ x.after.store.repositories.get id = some row ∧
      row.selected = true ∧ row.importClaimedAt = some claimedAt

/-- The import has claimed the repository. -/
def Claimed (tr : List (ImportTransition Text)) (id : Nat) : Prop :=
  ∃ x ∈ tr, x.after.phase.lease.map Prod.fst = some id

/-- A failed import leaves nothing behind: its own steps have changed neither table in the end, the
repository is claimable again or another import has it, and every manifest it has queued is
represented by a Deployment row. -/
structure LeavesNothing (tr : List (ImportTransition Text)) (s : ImportCall Text) (id : Nat) :
    Prop where
  /-- The rows the import has inserted are gone. -/
  inserted : ∀ k, (InsertedDeployment tr k → s.store.deployments.get k = none) ∧
    (InsertedProject tr k → s.store.projects.get k = none)
  /-- Its steps leave the rows that it has not inserted. -/
  kept : ∀ x ∈ tr, Own x → ∀ k, (¬ InsertedDeployment tr k →
      x.after.store.deployments.get k = x.before.store.deployments.get k) ∧
    (¬ InsertedProject tr k → x.after.store.projects.get k = x.before.store.projects.get k)
  claimable : ∃ row, s.store.repositories.get id = some row ∧
    (row.selected = false ∨ TakenOver tr id)
  represented : ∀ cluster projectName yaml, QueuedProject tr cluster projectName yaml →
    ∃ k row, s.store.deployments.get k = some row ∧ row.cluster = cluster ∧
      row.projectName = projectName

/-- A completed import leaves exactly one GitHub project of its repository, with its Deployment. -/
def LeavesProject (request : ImportRequest) (s : ImportCall Text) (project : GitHubProject) :
    Prop :=
  project.repository = request.repositoryId ∧
  (∃ k, s.store.projects.get k = some project ∧ ∀ k' project',
    s.store.projects.get k' = some project' → project'.repository = project.repository → k' = k) ∧
    (s.store.deployments.get project.deployment).isSome = true

/-- The manifest is queued and the rows are still to be inserted. -/
def ImportStage.inserts : ImportStage Text → Bool
  | .createDeployment _ _ => true
  | .createProject _ _ => true
  | _ => false

/-- Once the manifest is queued nothing fails: both inserts succeed, and a renewal finds the
lease. -/
def ImportPhase.KeepsGoing (s : Records Text) (o : Outcome) : ImportPhase Text → Prop
  | .running job _ (.createDeployment _ _) => o.heartbeat = false →
    o.fault = none ∧ (s.clusters.get job.request.clusterId).isSome = true
  | .running job _ (.createProject _ deployment) => o.heartbeat = false →
    o.fault = none ∧ (s.projects.first fun p ↦
      p.repository = job.request.repositoryId || p.deployment = deployment) = none ∧
    (s.repositories.get job.request.repositoryId).isSome = true ∧
    (s.deployments.get deployment).isSome = true
  | .renewing job claimedAt _ stage => stage.inserts = true →
    o.fault = none ∧ (s.repositories.get job.request.repositoryId).any
      (fun row ↦ row.selected && row.importClaimedAt = some claimedAt) = true
  | _ => True

/-- The release and the rollback succeed. -/
def ImportPhase.CleansUp (o : Outcome) : ImportPhase Text → Prop
  | .releasing _ _ _ => o.fault = none
  | .running _ _ (.rollBack _ _) => o.heartbeat = false → o.fault = none
  | _ => True

/-- The import's steps of a run meet the condition. -/
def ImportSteps (C : Records Text → Outcome → ImportPhase Text → Prop)
    (tr : List (ImportTransition Text)) : Prop :=
  ∀ x ∈ tr, ∀ o, x.action = .go o → C x.before.store o x.before.phase

/-! ## Before and after the manifest is queued -/

/-- The manifest has been queued and the import goes on, or has completed. -/
def ImportPhase.late : ImportPhase Text → Bool
  | .running _ _ stage => stage.inserts
  | .renewing _ _ _ stage => stage.inserts
  | .returned (.ok _) => true
  | _ => false

/-- The manifest has not been queued. -/
def ImportPhase.early : ImportPhase Text → Bool
  | .running _ _ (.rollBack _ _) => false
  | .renewing _ _ _ (.rollBack _ _) => false
  | p => !p.late

/-- The step changes neither table and queues no manifest. -/
structure Quiet (s t : Records Text) : Prop where
  deployments : t.deployments = s.deployments
  projects : t.projects = s.projects
  outbox : ∀ cluster projectName yaml,
    t.outbox ≠ s.outbox ++ [.applyProject cluster projectName yaml]

section Steps

variable {codec : ManifestCodec Text} {s t : Records Text} {o : Outcome} {p p' : ImportPhase Text}

theorem Quiet.refl : Quiet s s where
  deployments := rfl
  projects := rfl
  outbox := fun _ _ _ h ↦ absurd (congrArg List.length h) (by simp)

theorem quiet_updateRepositoryFields {id : Nat} {filters : GitHubRepository → Bool}
    {assign : GitHubRepository → GitHubRepository} :
    Quiet s (s.updateRepositoryFields id filters assign).1 := by
  rw [Records.updateRepositoryFields_frame]
  exact ⟨rfl, rfl, Quiet.refl.outbox⟩

theorem early_beginImport (job : ImportJob) (claimedAt : Timestamp) :
    (beginImport job claimedAt : ImportPhase Text).early = true := by
  unfold beginImport
  split <;> rfl

theorem early_prepareImport (codec : ManifestCodec Text) (job : ImportJob) (claimedAt : Timestamp)
    (spec : GitHubImportSpec) : (prepareImport codec job claimedAt spec).early = true := by
  unfold prepareImport
  dsimp only
  split
  · rfl
  · split <;> rfl

/-- A stage before the inserts queues the manifest and goes on to them, or changes nothing. -/
theorem ImportStage.early_step {job : ImportJob} {claimedAt : Timestamp}
    {stage : ImportStage Text} (hearly : (ImportPhase.running job claimedAt stage).early = true)
    (h : stage.advance codec s o.fault job claimedAt = (t, p')) :
    p'.late = true ∨ p'.early = true ∧ Quiet s t := by
  cases stage with
  | mintToken spec =>
    simp only [advance] at h
    split at h <;> cases h
    · exact .inr ⟨rfl, .refl⟩
    · exact .inr ⟨early_prepareImport codec job claimedAt spec, .refl⟩
  | sendCredentials spec manifest secretName token =>
    simp only [advance] at h
    split at h <;> cases h
    · refine .inr ⟨rfl, rfl, rfl, ?_⟩
      intro cluster projectName yaml hout
      have hlast := List.append_cancel_left hout
      cases hlast
    · exact .inr ⟨rfl, .refl⟩
    · exact .inr ⟨rfl, .refl⟩
  | sendApply spec manifest =>
    simp only [advance] at h
    split at h <;> cases h
    · exact .inl rfl
    · exact .inr ⟨rfl, .refl⟩
    · exact .inr ⟨rfl, .refl⟩
  | createDeployment | createProject | rollBack => cases hearly

/-- A step before the manifest is queued queues it, or changes neither table. -/
theorem ImportPhase.early_step (hearly : p.early = true) (h : p.advance codec s o = some (t, p')) :
    p'.late = true ∨ p'.early = true ∧ Quiet s t := by
  cases p with
  | loadCluster | loadRepository | loadInstallation | checkProject =>
    simp only [advance, Option.some.injEq] at h
    split at h <;> (try split at h) <;> cases h <;> exact .inr ⟨rfl, .refl⟩
  | readLeaseClock job =>
    simp only [advance, Option.some.injEq] at h
    split at h <;> cases h <;> exact .inr ⟨rfl, .refl⟩
  | readClaimClock job =>
    cases h
    exact .inr ⟨rfl, .refl⟩
  | recover job =>
    simp only [advance, Option.some.injEq] at h
    split at h <;> cases h
    · exact .inr ⟨rfl, .refl⟩
    · exact .inr ⟨rfl, quiet_updateRepositoryFields⟩
  | claim job startedAt =>
    simp only [advance, Option.some.injEq] at h
    split at h
    · cases h
      exact .inr ⟨rfl, .refl⟩
    · have hquiet {u : Records Text} {n : Nat}
          (hclaim : s.claimGithubImport job.request.repositoryId startedAt = (u, n)) :
            Quiet s u := by
        obtain rfl : (s.claimGithubImport job.request.repositoryId startedAt).1 = u :=
          congrArg Prod.fst hclaim
        exact quiet_updateRepositoryFields
      split at h
      · next hclaim =>
        cases h
        exact .inr ⟨early_beginImport job startedAt, hquiet hclaim⟩
      · next hclaim =>
        cases h
        exact .inr ⟨rfl, hquiet hclaim⟩
  | running job claimedAt stage =>
    simp only [advance, Option.some.injEq] at h
    split at h
    · cases h
      refine .inr ⟨?_, .refl⟩
      cases stage <;> first | rfl | cases hearly
    · exact ImportStage.early_step hearly h
  | renewing job claimedAt renewedAt stage =>
    simp only [advance, Option.some.injEq] at h
    split at h
    · cases h
      exact .inr ⟨rfl, .refl⟩
    · have hquiet {u : Records Text} {n : Nat} (hrenew : s.renewGithubImportClaim
          job.request.repositoryId claimedAt renewedAt = (u, n)) : Quiet s u := by
        obtain rfl :
            (s.renewGithubImportClaim job.request.repositoryId claimedAt renewedAt).1 = u :=
          congrArg Prod.fst hrenew
        exact quiet_updateRepositoryFields
      split at h
      · next hrenew =>
        cases h
        refine .inr ⟨?_, hquiet hrenew⟩
        cases stage <;> first | rfl | cases hearly
      · next hrenew =>
        cases h
        exact .inr ⟨rfl, hquiet hrenew⟩
  | releasing job claimedAt error =>
    simp only [advance, Option.some.injEq] at h
    split at h <;> cases h
    · exact .inr ⟨rfl, .refl⟩
    · exact .inr ⟨rfl, quiet_updateRepositoryFields⟩
  | returned => cases h

/-- The repository that an import is about, or has imported. -/
def ImportPhase.repositoryId : ImportPhase Text → Option Nat
  | .loadCluster request | .loadRepository request _ | .loadInstallation request _ _ =>
    some request.repositoryId
  | .checkProject job | .readLeaseClock job | .recover job | .readClaimClock job | .claim job _
  | .running job _ _ | .renewing job _ _ _ | .releasing job _ _ => some job.request.repositoryId
  | .returned (.ok project) => some project.repository
  | .returned (.error _) => none

theorem repositoryId_beginImport (job : ImportJob) (claimedAt : Timestamp) :
    (beginImport job claimedAt : ImportPhase Text).repositoryId =
      some job.request.repositoryId := by
  unfold beginImport
  split <;> rfl

theorem repositoryId_prepareImport (codec : ManifestCodec Text) (job : ImportJob)
    (claimedAt : Timestamp) (spec : GitHubImportSpec) :
    (prepareImport codec job claimedAt spec).repositoryId = some job.request.repositoryId := by
  unfold prepareImport
  dsimp only
  split
  · rfl
  · split <;> rfl

theorem ImportStage.repositoryId_step {job : ImportJob} {claimedAt : Timestamp}
    {stage : ImportStage Text} (h : stage.advance codec s o.fault job claimedAt = (t, p')) :
    p'.repositoryId = some job.request.repositoryId := by
  cases stage with
  | mintToken spec =>
    simp only [advance] at h
    split at h <;> cases h
    · rfl
    · exact repositoryId_prepareImport codec job claimedAt spec
  | sendCredentials | sendApply | createDeployment | createProject | rollBack =>
    simp only [advance] at h
    split at h <;> cases h <;> rfl

/-- An import stays with its repository, until it returns. -/
theorem ImportPhase.repositoryId_step (h : p.advance codec s o = some (t, p')) :
    p'.repositoryId = p.repositoryId ∨ p'.repositoryId = none := by
  cases p with
  | loadCluster | loadRepository | loadInstallation | checkProject | recover =>
    simp only [advance, Option.some.injEq] at h
    split at h <;> (try split at h) <;> cases h <;> first | exact .inl rfl | exact .inr rfl
  | readLeaseClock job =>
    simp only [advance, Option.some.injEq] at h
    split at h <;> cases h <;> exact .inl rfl
  | readClaimClock job =>
    cases h
    exact .inl rfl
  | claim job startedAt =>
    simp only [advance, Option.some.injEq] at h
    split at h
    · cases h
      exact .inr rfl
    · split at h <;> cases h
      · exact .inl (repositoryId_beginImport job startedAt)
      · exact .inr rfl
  | running job claimedAt stage =>
    simp only [advance, Option.some.injEq] at h
    split at h
    · cases h
      exact .inl rfl
    · exact .inl (ImportStage.repositoryId_step h)
  | renewing job claimedAt renewedAt stage =>
    simp only [advance, Option.some.injEq] at h
    split at h
    · cases h
      exact .inl rfl
    · split at h <;> cases h <;> exact .inl rfl
  | releasing job claimedAt error =>
    simp only [advance, Option.some.injEq] at h
    split at h <;> cases h <;> exact .inr rfl
  | returned => cases h

/-- An inserted project is the only one of its repository, and its Deployment is stored. -/
theorem leavesProject_of_createProject {row : GitHubProject} (h : s.createProject row = some t) :
    (∃ k, t.projects.get k = some row ∧ ∀ k' project', t.projects.get k' = some project' →
      project'.repository = row.repository → k' = k) ∧
      (t.deployments.get row.deployment).isSome = true := by
  unfold Records.createProject at h
  split at h
  · cases h
  · next hguard =>
    cases h
    simp only [Bool.or_eq_true, not_or, Option.not_isSome_iff_eq_none,
      Option.isNone_iff_eq_none] at hguard
    obtain ⟨⟨hfirst, -⟩, hdeployment⟩ := hguard
    refine ⟨⟨s.projects.next, Table.get_add_next, ?_⟩, Option.isSome_iff_ne_none.mpr hdeployment⟩
    intro k' project' hget hrepository
    by_contra hne
    rw [Table.get_add, if_neg hne] at hget
    have hother := Table.first_eq_none hfirst hget
    simp [hrepository] at hother

/-- Only the insert of the GitHub project completes an import. -/
theorem ImportPhase.completed {project : GitHubProject}
    (h : p.advance codec s o = some (t, .returned (.ok project))) :
    s.createProject project = some t := by
  cases p with
  | running job claimedAt stage =>
    simp only [advance, Option.some.injEq] at h
    split at h
    · cases h
    · cases stage with
      | createProject spec deployment =>
        simp only [ImportStage.advance] at h
        split at h
        · next hcreate =>
          cases h
          exact hcreate
        · cases h
      | mintToken spec =>
        simp only [ImportStage.advance] at h
        split at h
        · cases h
        · have hlease := lease_prepareImport codec job claimedAt spec
          rw [(Prod.mk.inj h).2] at hlease
          cases hlease
      | createDeployment spec manifest =>
        simp only [ImportStage.advance] at h
        split at h <;> cases h
      | sendCredentials | sendApply | rollBack =>
        simp only [ImportStage.advance] at h
        split at h <;> cases h
  | claim job startedAt =>
    simp only [advance, Option.some.injEq] at h
    split at h
    · cases h
    · split at h
      · have hlease : (beginImport job startedAt : ImportPhase Text).lease = _ :=
          lease_beginImport job startedAt
        rw [(Prod.mk.inj h).2] at hlease
        cases hlease
      · cases h
  | readClaimClock | returned => cases h
  | loadCluster | loadRepository | loadInstallation | checkProject | readLeaseClock | recover
  | renewing | releasing =>
    simp only [advance, Option.some.injEq] at h
    split at h <;> (try split at h) <;> cases h

/-- When nothing fails, an import whose manifest is queued goes on until it completes. -/
theorem ImportPhase.late_step (hgo : p.KeepsGoing s o) (hlate : p.late = true)
    (h : p.advance codec s o = some (t, p')) : p'.late = true := by
  cases p with
  | running job claimedAt stage =>
    simp only [advance, Option.some.injEq] at h
    split at h
    · cases h
      exact hlate
    · next hheartbeat =>
      have hheartbeat : o.heartbeat = false := by simpa using hheartbeat
      cases stage with
      | createDeployment spec manifest =>
        obtain ⟨hfault, hcluster⟩ := hgo hheartbeat
        have hinsert : s.createDeployment (importedDeployment job spec manifest) =
            some ({ s with
                deployments := s.deployments.add (importedDeployment job spec manifest) },
              s.deployments.next) := by
          rw [Records.createDeployment, if_neg]
          rw [Bool.not_eq_true, Option.isNone_eq_false_iff]
          exact hcluster
        simp only [ImportStage.advance, hfault, hinsert] at h
        cases h
        rfl
      | createProject spec deployment =>
        obtain ⟨hfault, hunique, hrepository, hdeployment⟩ := hgo hheartbeat
        have hinsert : s.createProject (importedGithubProject job spec deployment) =
            some { s with
              projects := s.projects.add (importedGithubProject job spec deployment) } := by
          rw [Records.createProject, if_neg]
          simp only [Bool.or_eq_true, not_or, Option.not_isSome_iff_eq_none,
            Option.isNone_iff_eq_none, ← ne_eq, ← Option.isSome_iff_ne_none]
          exact ⟨⟨hunique, hrepository⟩, hdeployment⟩
        simp only [ImportStage.advance, hfault, hinsert] at h
        cases h
        rfl
      | mintToken | sendCredentials | sendApply | rollBack => cases hlate
  | renewing job claimedAt renewedAt stage =>
    obtain ⟨hfault, hheld⟩ := hgo hlate
    obtain ⟨row, hrow, hlease⟩ := (Option.any_eq_true _ _).mp hheld
    simp only [advance, hfault, Records.renewGithubImportClaim, Records.updateRepositoryFields,
      hrow, hlease, if_true, Option.some.injEq] at h
    cases h
    exact hlate
  | returned result => cases h
  | loadCluster | loadRepository | loadInstallation | checkProject | readLeaseClock | recover
  | readClaimClock | claim | releasing => cases hlate

/-! ## The row of the repository -/

/-- A listing about to write a row back whole has read it unselected. -/
def Handler.WritesUnselected (h : Handler Text) : Prop :=
  ∀ id existing, h.wholeWrite = some (id, existing) → existing.selected = false

/-- The row carries the lease of the handler. -/
def Handler.Holds (h : Handler Text) (id : Nat) (row : GitHubRepository) : Prop :=
  ∃ claimedAt, h.lease = some (id, claimedAt) ∧ row.selected = true ∧
    row.importClaimedAt = some claimedAt

/-- After a handler's step a row is unselected, as it was, or held by the handler. -/
def RowStep (t : Records Text) (h' : Handler Text) (id : Nat) (row : GitHubRepository) : Prop :=
  ∃ row', t.repositories.get id = some row' ∧
    (row'.selected = false ∨ SameLease row row' ∨ h'.Holds id row')

variable {id : Nat} {row : GitHubRepository} {h h' : Handler Text}

private theorem rowStep_same (hrow : s.repositories.get id = some row)
    (hsame : t.repositories = s.repositories) : RowStep t h' id row :=
  ⟨row, hsame ▸ hrow, .inr (.inl ⟨rfl, rfl⟩)⟩

/-- An update of some columns. -/
private theorem rowStep_update {r : Nat} {filters : GitHubRepository → Bool}
    {assign : GitHubRepository → GitHubRepository} (hrow : s.repositories.get id = some row)
    (hassign : id = r → filters row = true → (assign row).selected = false ∨
      SameLease row (assign row) ∨ h'.Holds id (assign row)) :
    RowStep (s.updateRepositoryFields r filters assign).1 h' id row := by
  by_cases hid : id = r
  · by_cases hfilter : filters row = true
    · refine ⟨assign row, ?_, hassign hid hfilter⟩
      rw [Records.get_updateRepositoryFields, if_pos hid, ← hid, hrow, Option.map_some,
        if_pos hfilter]
    · refine ⟨row, ?_, .inr (.inl ⟨rfl, rfl⟩)⟩
      rw [Records.get_updateRepositoryFields, if_pos hid, ← hid, hrow, Option.map_some,
        if_neg hfilter]
  · refine ⟨row, ?_, .inr (.inl ⟨rfl, rfl⟩)⟩
    rw [Records.get_updateRepositoryFields, if_neg hid, hrow]

theorem ImportPhase.row_step (hrow : s.repositories.get id = some row)
    (hp : p.advance codec s o = some (t, p')) : RowStep t (.importing p') id row := by
  rcases advance_cases hp with ⟨rfl, -, -⟩ | ⟨job, claimedAt, stage, -, hstage⟩ | ⟨job, -, -, rfl⟩ |
    ⟨job, startedAt, -, -, hlease, hclaim⟩ |
    ⟨job, claimedAt, renewedAt, stage, -, hlease, hrenew⟩ | ⟨job, claimedAt, error, -, -, rfl⟩
  · exact rowStep_same hrow rfl
  · exact rowStep_same hrow (by rw [ImportStage.advance_frame hstage])
  · exact rowStep_update hrow fun _ _ ↦ .inl rfl
  · obtain rfl : (s.claimGithubImport job.request.repositoryId startedAt).1 = t :=
      congrArg Prod.fst hclaim
    apply rowStep_update hrow
    rintro rfl -
    exact .inr (.inr ⟨startedAt, hlease, rfl, rfl⟩)
  · obtain rfl : (s.renewGithubImportClaim job.request.repositoryId claimedAt renewedAt).1 = t :=
      congrArg Prod.fst hrenew
    apply rowStep_update hrow
    rintro rfl hfilter
    rw [Bool.and_eq_true] at hfilter
    exact .inr (.inr ⟨renewedAt, hlease, hfilter.1, rfl⟩)
  · exact rowStep_update hrow fun _ _ ↦ .inl rfl

theorem SyncPhase.row_step {q q' : SyncPhase}
    (hwrites : (Handler.sync q : Handler Text).WritesUnselected)
    (hrow : s.repositories.get id = some row) (hq : q.advance s o = some (t, q')) :
    RowStep t (.sync q') id row := by
  rcases advance_cases hq with ⟨rfl, -⟩ | ⟨installation, r, existing, rest, todo, -, -, rfl⟩ |
    ⟨installation, r, existing, rest, todo, rfl, -, rfl⟩ |
      ⟨installation, new, rest, todo, -, -, hcreate⟩
  · exact rowStep_same hrow rfl
  · exact rowStep_update hrow fun _ _ ↦ .inr (.inl ⟨rfl, rfl⟩)
  · by_cases hid : id = r
    · subst hid
      exact ⟨_, Table.get_set_self hrow, .inl (hwrites id existing rfl)⟩
    · exact ⟨row, (Table.get_set_of_ne hid).trans hrow, .inr (.inl ⟨rfl, rfl⟩)⟩
  · obtain rfl := Records.createRepository_eq_some hcreate
    exact ⟨row, Table.get_add_of_get hrow, .inr (.inl ⟨rfl, rfl⟩)⟩

theorem DeletePhase.row_step {q q' : DeletePhase} (hrow : s.repositories.get id = some row)
    (hq : q.advance s o = some (t, q')) : RowStep t (.delete q') id row := by
  rcases advance_cases hq with rfl | ⟨organization, deployment, -, -, rfl⟩
  · exact rowStep_same hrow rfl
  · by_cases hproject : ((s.projects.first fun p ↦
        p.deployment = deployment && p.organization = organization).any
          fun p ↦ p.2.repository = id) = true
    · refine ⟨{ row with selected := false, importClaimedAt := none }, ?_, .inl rfl⟩
      rw [Records.get_deleteDeploymentTransaction, if_pos hproject, hrow, Option.map_some]
    · refine ⟨row, ?_, .inr (.inl ⟨rfl, rfl⟩)⟩
      rw [Records.get_deleteDeploymentTransaction, if_neg hproject, hrow]

/-- What one step of any handler does to a row. -/
theorem Handler.row_step (hwrites : h.WritesUnselected) (hrow : s.repositories.get id = some row)
    (ht : h.advance codec s o = some (t, h')) : RowStep t h' id row := by
  cases h with
  | webhook q =>
    obtain ⟨q', hq, rfl⟩ := phase_advance ht
    exact rowStep_same hrow (by rw [WebhookPhase.advance_frame hq])
  | form q =>
    obtain ⟨q', hq, rfl⟩ := phase_advance ht
    exact rowStep_same hrow (by rw [FormPhase.advance_frame hq])
  | delete q =>
    obtain ⟨q', hq, rfl⟩ := phase_advance ht
    exact DeletePhase.row_step hrow hq
  | importing q =>
    obtain ⟨q', hq, rfl⟩ := phase_advance ht
    exact ImportPhase.row_step hrow hq
  | sync q =>
    obtain ⟨q', hq, rfl⟩ := phase_advance ht
    exact SyncPhase.row_step hwrites hrow hq
  | setup q =>
    obtain ⟨q', hq, rfl⟩ := phase_advance ht
    exact rowStep_same hrow (by rw [SetupPhase.advance_frame hq])
  | installation q =>
    obtain ⟨q', hq, rfl⟩ := phase_advance ht
    exact rowStep_same hrow (by rw [InstallationPhase.advance_frame hq])

/-- A listing writes back whole only what it has read unselected. -/
theorem Handler.writesUnselected_step (ht : h.advance codec s o = some (t, h')) :
    h'.WritesUnselected := by
  cases h with
  | sync q =>
    obtain ⟨q', hq, rfl⟩ := phase_advance ht
    intro r existing hwhole
    rcases SyncPhase.advance_cases hq with
      ⟨-, hread⟩ | ⟨installation, _, _, rest, todo, -, rfl, -⟩ |
      ⟨installation, _, _, rest, todo, -, rfl, -⟩ | ⟨installation, _, rest, todo, -, rfl, -⟩
    · cases q' with
      | updateRow installation r' existing' rest todo =>
        cases hwhole
        exact (hread _ _ _ _ _ rfl).1
      | _ => cases hwhole
    · cases (wholeWrite_nextRepository installation todo rest).symm.trans hwhole
    · cases (wholeWrite_nextRepository installation todo rest).symm.trans hwhole
    · cases (wholeWrite_nextRepository installation todo rest).symm.trans hwhole
  | webhook q | form q | delete q | importing q | setup q | installation q =>
    obtain ⟨q', -, rfl⟩ := phase_advance ht
    exact fun _ _ hwhole ↦ nomatch hwhole

/-- An import that holds a lease after its step has left the repositories, or has just written the
lease to its row. -/
theorem ImportPhase.own_row {claimedAt : Timestamp} (hp : p.advance codec s o = some (t, p'))
    (hlease : p'.lease = some (id, claimedAt)) :
    (p.lease = some (id, claimedAt) ∧ t.repositories = s.repositories) ∨
      ∃ row, t.repositories.get id = some row ∧ row.selected = true ∧
        row.importClaimedAt = some claimedAt := by
  rcases advance_cases hp with ⟨rfl, hsame | hnone, -⟩ | ⟨job, c, stage, rfl, hstage⟩ |
    ⟨job, -, rfl, -⟩ | ⟨job, startedAt, -, -, hnew, hclaim⟩ |
    ⟨job, c, renewedAt, stage, -, hnew, hrenew⟩ | ⟨job, c, error, -, rfl, -⟩
  · exact .inl ⟨hsame.symm.trans hlease, rfl⟩
  · cases hnone.symm.trans hlease
  · rcases ImportStage.advance_next hstage with hnext | ⟨result, rfl⟩
    · exact .inl ⟨hnext.symm.trans hlease, by rw [ImportStage.advance_frame hstage]⟩
    · cases hlease
  · cases hlease
  · cases hnew.symm.trans hlease
    rcases Records.updateRepositoryFields_eq_one hclaim with ⟨-, row, hrow, hfilter⟩ | ⟨hzero, -⟩
    · obtain rfl : (s.claimGithubImport job.request.repositoryId claimedAt).1 = t :=
        congrArg Prod.fst hclaim
      refine .inr ⟨{ row with
        selected := true, importClaimedAt := some claimedAt, updatedAt := claimedAt }, ?_, rfl, rfl⟩
      rw [Records.claimGithubImport, Records.get_updateRepositoryFields, if_pos rfl, hrow,
        Option.map_some, if_pos hfilter]
    · cases hzero
  · cases hnew.symm.trans hlease
    rcases Records.updateRepositoryFields_eq_one hrenew with ⟨-, row, hrow, hfilter⟩ | ⟨hzero, -⟩
    · obtain rfl : (s.renewGithubImportClaim job.request.repositoryId c claimedAt).1 = t :=
        congrArg Prod.fst hrenew
      have hselected : row.selected = true := ((Bool.and_eq_true _ _).mp hfilter).1
      refine .inr ⟨{ row with importClaimedAt := some claimedAt, updatedAt := claimedAt }, ?_,
        hselected, rfl⟩
      rw [Records.renewGithubImportClaim, Records.get_updateRepositoryFields, if_pos rfl, hrow,
        Option.map_some, if_pos hfilter]
    · cases hzero
  · cases hlease

/-- An import gives up its repository only when it returns. -/
theorem ImportPhase.keeps_lease (hp : p.advance codec s o = some (t, p'))
    (hlease : p.lease.map Prod.fst = some id) :
    p'.lease.map Prod.fst = some id ∨ ∃ result, p' = .returned result := by
  cases p with
  | running job claimedAt stage =>
    simp only [advance, Option.some.injEq] at hp
    split at hp
    · cases hp
      exact .inl hlease
    · rcases ImportStage.advance_next hp with hnext | hreturned
      · rw [hnext]
        exact .inl hlease
      · exact .inr hreturned
  | renewing job claimedAt renewedAt stage =>
    simp only [advance, Option.some.injEq] at hp
    split at hp
    · cases hp
      exact .inl hlease
    · split at hp <;> cases hp <;> exact .inl hlease
  | releasing job claimedAt error =>
    simp only [advance, Option.some.injEq] at hp
    split at hp <;> cases hp <;> exact .inr ⟨_, rfl⟩
  | _ => cases hlease

/-- An import that holds a repository returns an error only by releasing it. -/
theorem ImportPhase.releasing_of_error {claimedAt : Timestamp} {error : ServerFnError}
    (hp : p.advance codec s o = some (t, .returned (.error error)))
    (hlease : p.lease = some (id, claimedAt)) : ∃ job, job.request.repositoryId = id ∧
      p = .releasing job claimedAt error ∧
      (o.fault = none → t = (s.releaseGithubImportClaim id claimedAt).1) := by
  cases p with
  | running job c stage =>
    simp only [advance, Option.some.injEq] at hp
    split at hp
    · cases hp
    · cases stage with
      | mintToken spec =>
        simp only [ImportStage.advance] at hp
        split at hp
        · cases hp
        · have hprepared := lease_prepareImport codec job c spec
          rw [(Prod.mk.inj hp).2] at hprepared
          cases hprepared
      | sendCredentials | sendApply | createDeployment | createProject | rollBack =>
        simp only [ImportStage.advance] at hp
        split at hp <;> cases hp
  | renewing job c renewedAt stage =>
    simp only [advance, Option.some.injEq] at hp
    split at hp
    · cases hp
    · split at hp <;> cases hp
  | releasing job c e =>
    cases hlease
    simp only [advance, Option.some.injEq] at hp
    split at hp
    · next hfault =>
      cases hp
      refine ⟨job, rfl, rfl, fun hnone ↦ ?_⟩
      rw [hnone] at hfault
      cases hfault
    · cases hp
      exact ⟨job, rfl, rfl, fun _ ↦ rfl⟩
  | _ => cases hlease

end Steps

/-! ## Whole runs -/

section Runs

variable {codec : ManifestCodec Text} {id : Nat}

/-- What the other requests and the surroundings do to a row. -/
theorem serviceStep_row (id : Nat) {s t : ServiceState Text} {a : ServiceAction Text}
    (h : serviceStep codec s a = some t) (hwrites : ∀ p ∈ s.procs, p.WritesUnselected) :
    (∀ p ∈ t.procs, p.WritesUnselected) ∧ ∀ row, s.store.repositories.get id = some row →
      ∃ row', t.store.repositories.get id = some row' ∧
        (row'.selected = false ∨ SameLease row row' ∨ ∃ p ∈ t.procs, p.Holds id row') := by
  cases a with
  | start r =>
    cases h
    refine ⟨fun p hp ↦ ?_, fun row hrow ↦ ⟨row, hrow, .inr (.inl ⟨rfl, rfl⟩)⟩⟩
    rcases List.mem_append.mp hp with hp | hp
    · exact hwrites p hp
    · rw [List.mem_singleton.mp hp]
      cases r <;> exact fun _ _ hwhole ↦ nomatch hwhole
  | cancel i =>
    simp only [serviceStep, Pool.step] at h
    split at h
    · cases h
      exact ⟨fun p hp ↦ hwrites p (List.mem_of_mem_eraseIdx hp),
        fun row hrow ↦ ⟨row, hrow, .inr (.inl ⟨rfl, rfl⟩)⟩⟩
    · cases h
  | environment e =>
    obtain ⟨u, hu, rfl⟩ := Option.map_eq_some_iff.mp h
    refine ⟨hwrites, fun row hrow ↦ ⟨row, ?_, .inr (.inl ⟨rfl, rfl⟩)⟩⟩
    rw [(recordsEvent_frame hu).repositories]
    exact hrow
  | advance i o =>
    obtain ⟨p, u, p', hp, hu, rfl⟩ := Pool.step_advance h
    have hi : i < s.procs.length := (List.getElem?_eq_some_iff.mp hp).1
    refine ⟨fun q hq ↦ ?_, fun row hrow ↦ ?_⟩
    · rcases List.mem_or_eq_of_mem_set hq with hq | rfl
      · exact hwrites q hq
      · exact Handler.writesUnselected_step hu
    · obtain ⟨row', hrow', hcases⟩ :=
        Handler.row_step (hwrites p (List.mem_of_getElem? hp)) hrow hu
      refine ⟨row', hrow', ?_⟩
      rcases hcases with hunselected | hsame | hholds
      · exact .inl hunselected
      · exact .inr (.inl hsame)
      · exact .inr (.inr ⟨p', List.mem_set hi p', hholds⟩)

/-- What holds of an import at work, by what the run has done so far. -/
structure CleanupInv (tr : List (ImportTransition Text)) (s : ImportCall Text) : Prop where
  writes : ∀ p ∈ s.others.procs, p.WritesUnselected
  /-- Until the manifest is queued the import has changed neither table. -/
  queued : s.phase.late = true ∨
    s.phase.early = true ∧ ∀ x ∈ tr, Own x → Quiet x.before.store x.after.store
  claimed : ∀ id, Claimed tr id → s.phase.lease.map Prod.fst = some id ∨
    ∃ result, s.phase = .returned result
  /-- The claimed row is unselected, carries the lease, or was taken over. -/
  row : ∀ id claimedAt, s.phase.lease = some (id, claimedAt) →
    ∃ row, s.store.repositories.get id = some row ∧
      (row.selected = false ∨ row.importClaimedAt = some claimedAt ∨ TakenOver tr id)

theorem TakenOver.append {tr : List (ImportTransition Text)} (h : TakenOver tr id)
    (tr' : List (ImportTransition Text)) : TakenOver (tr ++ tr') id := by
  obtain ⟨x, hx, hrest⟩ := h
  exact ⟨x, List.mem_append_left _ hx, hrest⟩

theorem claimed_snoc {tr : List (ImportTransition Text)} {x : ImportTransition Text} :
    Claimed (tr ++ [x]) id ↔ Claimed tr id ∨ x.after.phase.lease.map Prod.fst = some id := by
  constructor
  · rintro ⟨y, hy, hlease⟩
    rcases List.mem_append.mp hy with hy | hy
    · exact .inl ⟨y, hy, hlease⟩
    · rw [List.mem_singleton.mp hy] at hlease
      exact .inr hlease
  · rintro (⟨y, hy, hlease⟩ | hlease)
    · exact ⟨y, List.mem_append_left _ hy, hlease⟩
    · exact ⟨x, by simp, hlease⟩

variable {tr : List (ImportTransition Text)} {s t : ImportCall Text}

theorem CleanupInv.others_step {a : ServiceAction Text} {u : ServiceState Text}
    (hs : CleanupInv tr s) (ha : serviceStep codec s.others a = some u) :
    CleanupInv (tr ++ [⟨s, .others a, { s with others := u }⟩]) { s with others := u } := by
  obtain ⟨hwrites, -⟩ := serviceStep_row 0 ha hs.writes
  refine ⟨hwrites, ?_, fun id hclaimed ↦ ?_, fun id claimedAt hlease ↦ ?_⟩
  · rcases hs.queued with hlate | ⟨hearly, hquiet⟩
    · exact .inl hlate
    · refine .inr ⟨hearly, fun x hx hown ↦ ?_⟩
      rcases List.mem_append.mp hx with hx | hx
      · exact hquiet x hx hown
      · rw [List.mem_singleton.mp hx] at hown
        obtain ⟨o, ho⟩ := hown
        cases ho
  · rcases claimed_snoc.mp hclaimed with hbefore | hnow
    · exact hs.claimed id hbefore
    · exact .inl hnow
  · obtain ⟨row, hrow, hcases⟩ := hs.row id claimedAt hlease
    obtain ⟨-, hrows⟩ := serviceStep_row id ha hs.writes
    obtain ⟨row', hrow', hstep⟩ := hrows row hrow
    refine ⟨row', hrow', ?_⟩
    rcases hstep with hunselected | ⟨hselected, hclaimed⟩ | ⟨p, hp, c, hheld, hselected, hclaimed⟩
    · exact .inl hunselected
    · rw [hselected, hclaimed]
      exact hcases.imp_right (Or.imp_right fun htaken ↦ htaken.append _)
    · refine .inr (.inr ⟨⟨s, .others a, { s with others := u }⟩, by simp, ?_, p, hp, c, row', hheld,
        hrow', hselected, hclaimed⟩)
      rw [show s.phase.lease = some (id, claimedAt) from hlease, Option.map_some]

theorem CleanupInv.own_step {o : Outcome} {store : Records Text} {phase : ImportPhase Text}
    (hs : CleanupInv tr s) (hgo : s.phase.KeepsGoing s.store o)
    (ho : s.phase.advance codec s.store o = some (store, phase)) :
    CleanupInv (tr ++ [⟨s, .go o, ⟨{ s.others with store := store }, phase⟩⟩])
      ⟨{ s.others with store := store }, phase⟩ := by
  refine ⟨hs.writes, ?_, fun id hclaimed ↦ ?_, fun id claimedAt hlease ↦ ?_⟩
  · rcases hs.queued with hlate | ⟨hearly, hquiet⟩
    · exact .inl (ImportPhase.late_step hgo hlate ho)
    · rcases ImportPhase.early_step hearly ho with hlate | ⟨hstill, hstep⟩
      · exact .inl hlate
      · refine .inr ⟨hstill, fun x hx hown ↦ ?_⟩
        rcases List.mem_append.mp hx with hx | hx
        · exact hquiet x hx hown
        · rw [List.mem_singleton.mp hx]
          exact hstep
  · rcases claimed_snoc.mp hclaimed with hbefore | hnow
    · rcases hs.claimed id hbefore with hheld | ⟨result, hreturned⟩
      · exact ImportPhase.keeps_lease ho hheld
      · rw [hreturned] at ho
        cases ho
    · exact .inl hnow
  · rcases ImportPhase.own_row ho hlease with ⟨hheld, hsame⟩ | ⟨row, hrow, -, hclaimed⟩
    · obtain ⟨row, hrow, hcases⟩ := hs.row id claimedAt hheld
      refine ⟨row, ?_, hcases.imp_right (Or.imp_right fun htaken ↦ htaken.append _)⟩
      rw [← hrow]
      exact congrArg (fun table ↦ Table.get table id) hsame
    · exact ⟨row, hrow, .inr (.inl hclaimed)⟩

/-- A request holds nothing before its first query. -/
theorem early_start (request : ImportRequest) :
    (ImportPhase.start request : ImportPhase Text).early = true ∧
      (ImportPhase.start request : ImportPhase Text).lease = none := by
  unfold ImportPhase.start
  split <;> exact ⟨rfl, rfl⟩

/-- It holds after every run whose steps keep going. -/
theorem CleanupInv.run {records : Records Text} {request : ImportRequest}
    (hrun : Run (importStep codec) (.start records request) tr s)
    (hgo : ImportSteps ImportPhase.KeepsGoing tr) : CleanupInv tr s := by
  induction hrun with
  | nil =>
    obtain ⟨hearly, hnone⟩ : (ImportPhase.start request : ImportPhase Text).early = true ∧ _ :=
      early_start request
    refine ⟨fun p hp ↦ absurd hp List.not_mem_nil,
      .inr ⟨hearly, fun x hx ↦ absurd hx List.not_mem_nil⟩, ?_, fun id claimedAt hlease ↦ ?_⟩
    · rintro id ⟨x, hx, -⟩
      cases hx
    · cases hnone.symm.trans hlease
  | @snoc tr s t a _ ht ih =>
    have hprev := ih fun x hx ↦ hgo x (List.mem_append_left _ hx)
    cases a with
    | go o =>
      obtain ⟨⟨store, phase⟩, ho, rfl⟩ := Option.map_eq_some_iff.mp ht
      have hlast : s.phase.KeepsGoing s.store o :=
        hgo ⟨s, .go o, _⟩ (List.mem_append_right _ List.mem_cons_self) o rfl
      exact hprev.own_step hlast ho
    | others a =>
      obtain ⟨u, hu, rfl⟩ := Option.map_eq_some_iff.mp ht
      exact hprev.others_step hu

/-- A release leaves the row unselected, unless it no longer carries the lease. -/
theorem released_row (claimedAt : Timestamp) {r : Records Text} {row : GitHubRepository}
    (hrow : r.repositories.get id = some row) :
    ∃ row', (r.releaseGithubImportClaim id claimedAt).1.repositories.get id = some row' ∧
      (row'.selected = false ∨ row' = row ∧ row.importClaimedAt ≠ some claimedAt) := by
  rw [Records.releaseGithubImportClaim, Records.get_updateRepositoryFields, if_pos rfl, hrow,
    Option.map_some]
  refine ⟨_, rfl, ?_⟩
  split
  · exact .inl rfl
  · next hfilter =>
    rw [Bool.and_eq_true, decide_eq_true_eq, not_and_or, Bool.not_eq_true] at hfilter
    exact hfilter.imp_right fun hother ↦ ⟨rfl, hother⟩

/-- The repository of an import that returns an error is claimable, unless another has it. -/
theorem CleanupInv.claimable {o : Outcome} {store : Records Text} {error : ServerFnError}
    (hs : CleanupInv tr s) (hclean : s.phase.CleansUp o)
    (ho : s.phase.advance codec s.store o = some (store, .returned (.error error)))
    (hclaimed : Claimed tr id) : ∃ row, store.repositories.get id = some row ∧
      (row.selected = false ∨ TakenOver tr id) := by
  rcases hs.claimed id hclaimed with hheld | ⟨result, hreturned⟩
  · obtain ⟨⟨repositoryId, claimedAt⟩, hlease, hid⟩ := Option.map_eq_some_iff.mp hheld
    obtain rfl : repositoryId = id := hid
    obtain ⟨job, -, hreleasing, hreleased⟩ := ImportPhase.releasing_of_error ho hlease
    rw [hreleasing] at hclean
    rw [hreleased hclean]
    obtain ⟨row, hrow, hcases⟩ := hs.row _ claimedAt hlease
    obtain ⟨row', hrow', hunselected | ⟨rfl, hother⟩⟩ := released_row claimedAt hrow
    · exact ⟨row', hrow', .inl hunselected⟩
    · refine ⟨row', hrow', ?_⟩
      rcases hcases with hunselected | hlost | htaken
      · exact .inl hunselected
      · exact absurd hlost hother
      · exact .inr htaken
  · rw [hreturned] at ho
    cases ho

/-- Without own changes there is nothing to take back. -/
theorem leavesNothing_of_quiet (hquiet : ∀ x ∈ tr, Own x → Quiet x.before.store x.after.store)
    (hclaimable : ∃ row, s.store.repositories.get id = some row ∧
      (row.selected = false ∨ TakenOver tr id)) : LeavesNothing tr s id where
  inserted := by
    intro k
    constructor
    · rintro ⟨x, hx, hown, hnone, hsome⟩
      rw [(hquiet x hx hown).deployments, hnone] at hsome
      cases hsome
    · rintro ⟨x, hx, hown, hnone, hsome⟩
      rw [(hquiet x hx hown).projects, hnone] at hsome
      cases hsome
  kept := by
    intro x hx hown k
    rw [(hquiet x hx hown).deployments, (hquiet x hx hown).projects]
    exact ⟨fun _ ↦ rfl, fun _ ↦ rfl⟩
  claimable := hclaimable
  represented := by
    rintro cluster projectName yaml ⟨x, hx, hown, hqueued⟩
    exact absurd hqueued ((hquiet x hx hown).outbox cluster projectName yaml)

/-- An import is about the repository of its request. -/
theorem repositoryId_of_run {request : ImportRequest} {records : Records Text}
    (h : Run (importStep codec) (.start records request) tr s) :
    ∀ id ∈ s.phase.repositoryId, id = request.repositoryId := by
  refine h.invariant (I := fun s ↦ ∀ id ∈ s.phase.repositoryId, id = request.repositoryId) ?_ ?_
  · intro id hid
    simp only [ImportCall.start, ImportPhase.start] at hid
    split at hid <;> cases hid
    rfl
  · intro s a t hs ht id hid
    cases a with
    | go o =>
      obtain ⟨⟨store, phase⟩, ho, rfl⟩ := Option.map_eq_some_iff.mp ht
      rcases ImportPhase.repositoryId_step ho with hsame | hnone
      · exact hs id (hsame ▸ hid)
      · cases hnone.symm.trans hid
    | others a =>
      obtain ⟨u, -, rfl⟩ := Option.map_eq_some_iff.mp ht
      exact hs id hid

/-- In every run in which nothing fails once the manifest is queued, an import that returns an error
leaves nothing behind, and one that completes leaves its project. -/
theorem import_cleans_up (codec : ManifestCodec Text) (records : Records Text)
    (request : ImportRequest) {x : ImportTransition Text} (hown : Own x)
    (hrun : Run (importStep codec) (.start records request) (tr ++ [x]) s)
    (hclean : ImportSteps (fun _ o p ↦ p.CleansUp o) (tr ++ [x]))
    (hgo : ImportSteps ImportPhase.KeepsGoing (tr ++ [x])) :
    (∀ error id, s.phase = .returned (.error error) → Claimed (tr ++ [x]) id →
      LeavesNothing (tr ++ [x]) s id) ∧
    ∀ project, s.phase = .returned (.ok project) → LeavesProject request s project := by
  have hlast : x ∈ tr ++ [x] := List.mem_append_right _ List.mem_cons_self
  have hstep : importStep codec x.before x.action = some x.after :=
    ((hrun.forall_before (I := fun _ ↦ True) trivial fun _ _ _ _ _ ↦ trivial) x hlast).2
  obtain ⟨hbefore, rfl⟩ := Run.of_snoc hrun
  have hinv := CleanupInv.run hbefore fun y hy ↦ hgo y (List.mem_append_left _ hy)
  obtain ⟨o, ho⟩ := hown
  rw [ho] at hstep
  obtain ⟨⟨store, phase⟩, hadvance, hafter⟩ := Option.map_eq_some_iff.mp hstep
  refine ⟨fun error id hreturned hclaimed ↦ ?_, fun project hreturned ↦ ?_⟩
  · rw [← hafter] at hreturned
    obtain rfl : phase = .returned (.error error) := hreturned
    apply leavesNothing_of_quiet
    · rcases (CleanupInv.run hrun hgo).queued with hlate | ⟨-, hquiet⟩
      · rw [← hafter] at hlate
        cases hlate
      · exact hquiet
    · rcases claimed_snoc.mp hclaimed with hclaimed | hnow
      · obtain ⟨row, hrow, hcases⟩ := hinv.claimable (hclean x hlast o ho) hadvance hclaimed
        refine ⟨row, ?_, hcases.imp_right fun htaken ↦ htaken.append _⟩
        rw [← hafter]
        exact hrow
      · rw [← hafter] at hnow
        cases hnow
  · have hrepository := repositoryId_of_run hrun project.repository
    rw [hreturned] at hrepository
    rw [← hafter] at hreturned ⊢
    obtain rfl : phase = .returned (.ok project) := hreturned
    exact ⟨hrepository rfl, leavesProject_of_createProject (ImportPhase.completed hadvance)⟩

end Runs

/-! ## Fixed runs -/

instance (o : Outcome) (s : Records Text) : (p : ImportPhase Text) → Decidable (p.KeepsGoing s o)
  | .running _ _ (.createDeployment _ _) => inferInstanceAs (Decidable (_ → _ ∧ _))
  | .running _ _ (.createProject _ _) => inferInstanceAs (Decidable (_ → _ ∧ _ ∧ _ ∧ _))
  | .renewing _ _ _ _ => inferInstanceAs (Decidable (_ → _ ∧ _))
  | .running _ _ (.mintToken _) => .isTrue trivial
  | .running _ _ (.sendCredentials _ _ _ _) => .isTrue trivial
  | .running _ _ (.sendApply _ _) => .isTrue trivial
  | .running _ _ (.rollBack _ _) => .isTrue trivial
  | .loadCluster _ => .isTrue trivial
  | .loadRepository _ _ => .isTrue trivial
  | .loadInstallation _ _ _ => .isTrue trivial
  | .checkProject _ => .isTrue trivial
  | .readLeaseClock _ => .isTrue trivial
  | .recover _ => .isTrue trivial
  | .readClaimClock _ => .isTrue trivial
  | .claim _ _ => .isTrue trivial
  | .releasing _ _ _ => .isTrue trivial
  | .returned _ => .isTrue trivial

instance (o : Outcome) : (p : ImportPhase Text) → Decidable (p.CleansUp o)
  | .releasing _ _ _ => inferInstanceAs (Decidable (_ = _))
  | .running _ _ (.rollBack _ _) => inferInstanceAs (Decidable (_ → _))
  | .running _ _ (.createDeployment _ _) => .isTrue trivial
  | .running _ _ (.createProject _ _) => .isTrue trivial
  | .running _ _ (.mintToken _) => .isTrue trivial
  | .running _ _ (.sendCredentials _ _ _ _) => .isTrue trivial
  | .running _ _ (.sendApply _ _) => .isTrue trivial
  | .loadCluster _ => .isTrue trivial
  | .loadRepository _ _ => .isTrue trivial
  | .loadInstallation _ _ _ => .isTrue trivial
  | .checkProject _ => .isTrue trivial
  | .readLeaseClock _ => .isTrue trivial
  | .recover _ => .isTrue trivial
  | .readClaimClock _ => .isTrue trivial
  | .claim _ _ => .isTrue trivial
  | .renewing _ _ _ _ => .isTrue trivial
  | .returned _ => .isTrue trivial

instance (C : Records Text → Outcome → ImportPhase Text → Prop) [∀ s o p, Decidable (C s o p)]
    (x : ImportTransition Text) :
    Decidable (∀ o, x.action = .go o → C x.before.store o x.before.phase) :=
  match x.action with
  | .others _ => .isTrue fun _ h ↦ nomatch h
  | .go o => decidable_of_iff (C x.before.store o x.before.phase)
    ⟨fun h _ ho ↦ ImportTurn.go.inj ho ▸ h, fun h ↦ h o rfl⟩

instance (C : Records Text → Outcome → ImportPhase Text → Prop) [∀ s o p, Decidable (C s o p)]
    (tr : List (ImportTransition Text)) : Decidable (ImportSteps C tr) :=
  inferInstanceAs (Decidable (∀ x ∈ tr, ∀ o, x.action = .go o → C x.before.store o x.before.phase))

/-- An import of the repository of `shopRecords`. -/
def shopRequest : ImportRequest := ⟨1, 0, 0, "", "registry/shop"⟩

/-- The import claims the repository and queues the manifest; then `later`. -/
def importRun (later : List Outcome) : List (ImportTurn Manifest) :=
  (List.replicate 9 Outcome.success ++ later).map .go

/-- The insert of the Deployment row fails, and the claim is released. -/
def unstoredRun : List (ImportTurn Manifest) :=
  importRun [{ Outcome.success with fault := some "pool timed out" }]

/-- The manifest is queued, and no Deployment row stands for it when the import has returned. -/
theorem import_leaves_manifest : ∃ tr x s error, Own x ∧
    Run (importStep plainCodec) (.start shopRecords shopRequest) (tr ++ [x]) s ∧
    ImportSteps (fun _ o p ↦ p.CleansUp o) (tr ++ [x]) ∧ s.phase = .returned (.error error) ∧
    Claimed (tr ++ [x]) 0 ∧ ¬ LeavesNothing (tr ++ [x]) s 0 := by
  have hrun : ∃ u s error manifest, execute (importStep plainCodec) (.start shopRecords shopRequest)
      unstoredRun = some u ∧ importStep plainCodec u (.go .success) = some s ∧
      s.phase = .returned (.error error) ∧ s.store.deployments = .empty ∧
      Claimed (transitions (importStep plainCodec) (.start shopRecords shopRequest) unstoredRun) 0 ∧
      QueuedProject (transitions (importStep plainCodec) (.start shopRecords shopRequest)
        unstoredRun) 0 "shop" manifest ∧
      ImportSteps (fun _ o p ↦ p.CleansUp o) (transitions (importStep plainCodec)
        (.start shopRecords shopRequest) unstoredRun ++ [⟨u, .go .success, s⟩]) :=
    ⟨_, _, _, _, rfl, rfl, rfl, rfl, ⟨_, List.mem_of_getElem? (i := 8) rfl, rfl⟩,
      ⟨_, List.mem_of_getElem? (i := 8) rfl, ⟨_, rfl⟩, rfl⟩, by decide⟩
  obtain ⟨u, s, error, manifest, hexecute, hlast, hphase, hempty, hclaimed, hqueued, hclean⟩ := hrun
  refine ⟨_, ⟨u, .go .success, s⟩, s, error, ⟨_, rfl⟩, (Run.of_execute _ hexecute).snoc hlast,
    hclean, hphase, claimed_snoc.mpr (.inl hclaimed), fun hnothing ↦ ?_⟩
  obtain ⟨x, hx, hown, hout⟩ := hqueued
  obtain ⟨k, row, hrow, -⟩ := hnothing.represented 0 "shop" manifest
    ⟨x, List.mem_append_left _ hx, hown, hout⟩
  rw [hempty] at hrow
  cases hrow

/-- When both inserts succeed the import leaves its project. -/
theorem import_leaves_project : ∃ tr x s project, Own x ∧
    Run (importStep plainCodec) (.start shopRecords shopRequest) (tr ++ [x]) s ∧
    ImportSteps ImportPhase.KeepsGoing (tr ++ [x]) ∧ s.phase = .returned (.ok project) ∧
    project.projectName = "shop" ∧ LeavesProject shopRequest s project := by
  have hrun : ∃ u s project, execute (importStep plainCodec) (.start shopRecords shopRequest)
      (importRun [.success]) = some u ∧ importStep plainCodec u (.go .success) = some s ∧
      s.phase = .returned (.ok project) ∧ project.projectName = "shop" ∧
      ImportSteps (fun _ o p ↦ p.CleansUp o) (transitions (importStep plainCodec)
        (.start shopRecords shopRequest) (importRun [.success]) ++ [⟨u, .go .success, s⟩]) ∧
      ImportSteps ImportPhase.KeepsGoing (transitions (importStep plainCodec)
        (.start shopRecords shopRequest) (importRun [.success]) ++ [⟨u, .go .success, s⟩]) :=
    ⟨_, _, _, rfl, rfl, rfl, rfl, by decide, by decide⟩
  obtain ⟨u, s, project, hexecute, hlast, hphase, hname, hclean, hgo⟩ := hrun
  have hsnoc := (Run.of_execute _ hexecute).snoc hlast
  exact ⟨_, ⟨u, .go .success, s⟩, s, project, ⟨_, rfl⟩, hsnoc, hgo, hphase, hname,
    (import_cleans_up plainCodec shopRecords shopRequest ⟨_, rfl⟩ hsnoc hclean hgo).2 project
      hphase⟩

end ReinhardtCloud.Dashboard

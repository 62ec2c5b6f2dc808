import ReinhardtCloud.Dashboard.DeploymentObjects
import ReinhardtCloud.Dashboard.SpecChecks

/-!
# The columns of a row and its manifest

Library `Dashboard`. Everything that writes a deployment row at work together: the creation form
(`apps/deployments/server_fn.rs:328–393`), submissions, imports, the editing forms and webhooks. A
row goes on saying what its manifest says as long as the two forms see to it; the others see to it
themselves.
-/

namespace ReinhardtCloud.Dashboard

open ReinhardtCloud.Base ReinhardtCloud.Operator

variable {Text : Type}

/-! ## `create_deployment_for_current_org`, `server_fn.rs:328–393` -/

/-- `CreateDeploymentFormRequest` with its user's organization. The cluster is absent when its text
is no number, the manifest when its text is blank. -/
structure CreateDeploymentForm (Text : Type) where
  organization : Nat
  projectName : String
  cluster : Option Nat
  image : String
  projectYaml : Option Text
  deriving DecidableEq

/-- `normalized`. -/
def CreateDeploymentForm.normalized (form : CreateDeploymentForm Text) :
    CreateDeploymentForm Text :=
  { form with projectName := trim form.projectName, image := trim form.image }

/-- The row of a form for this cluster. -/
def CreateDeploymentForm.row (form : CreateDeploymentForm Text) (cluster : Nat) :
    Deployment Text where
  organization := form.organization
  projectName := form.projectName
  cluster := cluster
  status := "pending"
  image := form.image
  projectYaml := form.projectYaml

/-- The awaited step of a creation. -/
inductive CreatePhase (Text : Type) where
  | checkCluster (form : CreateDeploymentForm Text) (cluster : Nat)
  | createDeployment (row : Deployment Text)
  | returned (result : Except ServerFnError (Nat × Deployment Text))

/-- A creation up to its first query. The length limits of the fields are checked by code that a
macro of the framework derives. -/
def CreatePhase.start (limits : CreateDeploymentForm Text → Option ServerFnError)
    (typed : CreateDeploymentForm Text) : CreatePhase Text :=
  let form := typed.normalized
  match limits form with
  | some e => .returned (.error e)
  | none =>
    if form.projectName = "" then
      .returned (.error (.validation "project_name" "Project name cannot be blank"))
    else if form.image = "" then
      .returned (.error (.validation "image" "Image cannot be blank"))
    else match form.cluster with
      | none => .returned (.error (.validation "cluster_id" "Select a valid cluster"))
      | some cluster => .checkCluster form cluster

/-- One awaited step of a creation. -/
def CreatePhase.advance (codec : ManifestCodec Text) (s : Records Text) (o : Outcome) :
    CreatePhase Text → Option (Records Text × CreatePhase Text)
  | .checkCluster form cluster => some <|
    match o.fault with
    | some e => (s, .returned (.error (.application s!"Failed to check cluster: {e}")))
    | none =>
      match (s.clusters.get cluster).filter fun c ↦ c.organization = form.organization with
      | none => (s, .returned (.error (.validation "cluster_id"
          "The selected cluster is not available")))
      | some _ =>
        match validateProjectManifest codec Manifest.specErrors form.projectYaml with
        | .error e => (s, .returned (.error (.validation "project_yaml" e)))
        | .ok _ => (s, .createDeployment (form.row cluster))
  | .createDeployment row => some <|
    match o.fault, s.createDeployment row with
    | none, some (t, id) => (t, .returned (.ok (id, row)))
    | e, _ => (s, .returned (.error (.application
        ("Failed to create deployment: " ++ e.getD "constraint"))))
  | .returned _ => none

/-! ## The six operations at work -/

/-- A running handler that writes deployment rows. -/
inductive RowHandler (Text : Type) where
  | creating (phase : CreatePhase Text)
  | submitting (phase : SubmissionPhase Text)
  | importing (phase : ImportPhase Text)
  | editing (phase : FormPhase Text)
  | webhook (phase : WebhookPhase Text)

/-- A request to one of them. -/
inductive RowRequest (Text : Type) where
  | create (form : CreateDeploymentForm Text)
  | submit (input : Submission Text)
  | importing (request : ImportRequest)
  | edit (organization deployment : Nat) (edit : DeploymentEdit)
  | webhook (action : WebhookAction) (githubRepositoryId : Nat)

/-- The handler of a request at its first query. -/
def RowHandler.start (limits : CreateDeploymentForm Text → Option ServerFnError) :
    RowRequest Text → RowHandler Text
  | .create form => .creating (.start limits form)
  | .submit input => .submitting (.loadCluster input)
  | .importing request => .importing (.start request)
  | .edit organization deployment edit => .editing (.start organization deployment edit)
  | .webhook action githubRepositoryId => .webhook (.loadRepository action githubRepositoryId)

/-- One awaited step of a handler. -/
def RowHandler.advance (codec : ManifestCodec Text) (s : Records Text) (p : RowHandler Text)
    (o : Outcome) : Option (Records Text × RowHandler Text) :=
  match p with
  | .creating p => (p.advance codec s o).map fun r ↦ (r.1, .creating r.2)
  | .submitting p =>
    (p.advance codec Manifest.specErrors s o).map fun r ↦ (r.1, .submitting r.2)
  | .importing p => (p.advance codec s o).map fun r ↦ (r.1, .importing r.2)
  | .editing p => (p.advance s o).map fun r ↦ (r.1, .editing r.2)
  | .webhook p => (p.advance codec s o).map fun r ↦ (r.1, .webhook r.2)

/-- What else happens: everything but the deployments and the commands may change, and deployments
are deleted. -/
def rowEvent (s : Records Text) : DeskEvent Text → Option (Records Text)
  | .change records => some { records with deployments := s.deployments, outbox := s.outbox }
  | .delete p => some (s.deleteDeployments p)

abbrev RowState (Text : Type) := Pool (Records Text) (RowHandler Text)

abbrev RowAction (Text : Type) := PoolAction (RowRequest Text) Outcome (DeskEvent Text)

abbrev RowTransition (Text : Type) := Transition (RowState Text) (RowAction Text)

/-- One step of the handlers and their surroundings. -/
abbrev rowStep (codec : ManifestCodec Text)
    (limits : CreateDeploymentForm Text → Option ServerFnError) :
    RowState Text → RowAction Text → Option (RowState Text) :=
  Pool.step (RowHandler.start limits) (RowHandler.advance codec) rowEvent

/-! ## What a row says -/

section Describes

variable (codec : ManifestCodec Text)

/-- The manifest names this project and image. -/
def NamesManifest (yaml : Text) (projectName image : String) : Prop :=
  ∀ m, codec.ofText yaml = .ok m → trim m.name = projectName ∧ trim m.spec.image = image

/-- A manifest that parses and is valid. -/
def ValidManifest (yaml : Text) : Prop := ∃ m, codec.ofText yaml = .ok m ∧ m.specErrors = []

/-- The manifest of the row, if it has one, is valid and names its project and image. -/
def Deployment.Describes (row : Deployment Text) : Prop :=
  ∀ yaml ∈ row.projectYaml, ValidManifest codec yaml ∧
    NamesManifest codec yaml row.projectName row.image

/-- Every stored row describes its manifest. -/
def Records.Described (s : Records Text) : Prop :=
  ∀ id row, s.deployments.get id = some row → row.Describes codec

/-- Of the two forms, a creation that can store its row names its manifest's project and image, and
an edit of a stored deployment with a manifest repeats both names. -/
def RowHandler.Agrees (s : Records Text) : RowHandler Text → Prop
  | .creating (.createDeployment row) => (s.clusters.get row.cluster).isSome →
      ∀ yaml ∈ row.projectYaml, NamesManifest codec yaml row.projectName row.image
  | .editing (.update deployment (.details projectName image _) loaded) =>
      (s.deployments.get deployment).isSome → loaded.projectYaml.isSome →
        projectName = loaded.projectName ∧ image = loaded.image
  | _ => True

/-- A step that reaches the database does so for a form that agrees. -/
def Agrees (s : RowState Text) : RowAction Text → Prop
  | .advance i o => o.fault = none → ∀ p ∈ s.procs[i]?, p.Agrees codec s.store
  | _ => True

end Describes

/-! ## Manifests that the handlers make -/

section Manifests

variable {codec : ManifestCodec Text}

/-- A registry of an import has no white space. -/
theorem registry_of_importSpec {repository : GitHubRepository} {projectName registry : String}
    {spec : GitHubImportSpec} (h : importSpecFromRepository repository projectName registry =
      .ok spec) :
    trim spec.projectName = spec.projectName ∧
      ∀ c ∈ spec.registry.toList, isWhiteSpace c = false := by
  unfold importSpecFromRepository at h
  simp only [bind, Except.bind, pure, Except.pure] at h
  split at h
  · cases h
  · next name hname =>
    split at h
    · cases h
    · next checked hregistry =>
      cases h
      refine ⟨by rw [validateProjectName_ok hname, trim_trim], fun c hc ↦ ?_⟩
      unfold validateRegistry at hregistry
      simp only at hregistry
      split at hregistry
      · cases hregistry
      · split at hregistry
        · cases hregistry
        · next hnone =>
          obtain rfl := Except.ok.inj hregistry
          rw [String.toList_ofList, List.mem_reverse] at hc
          have hmem := List.mem_reverse.mp ((List.dropWhile_sublist _).subset hc)
          rw [List.any_eq_true] at hnone
          by_cases hspace : isWhiteSpace c = true
          · exact absurd ⟨c, hmem, hspace⟩ hnone
          · exact Bool.not_eq_true _ ▸ hspace

theorem trim_pendingImage {registry : String}
    (h : ∀ c ∈ registry.toList, isWhiteSpace c = false) :
    trim s!"{registry}:pending" = s!"{registry}:pending" := by
  apply trim_eq_self
  intro c hc
  have himage : (s!"{registry}:pending").toList = registry.toList ++ ":pending".toList := by
    rw [← String.toList_append]
    rfl
  rw [himage, List.mem_append] at hc
  rcases hc with hc | hc
  · exact h c hc
  · have hall : ":pending".toList.all (fun c ↦ !isWhiteSpace c) = true := by decide
    simpa using List.all_eq_true.mp hall c hc

/-- The row of an import describes the manifest that is written for it. -/
theorem describes_importedDeployment (hcodec : codec.RoundTrips) {spec : GitHubImportSpec}
    (hname : trim spec.projectName = spec.projectName)
    (hregistry : ∀ c ∈ spec.registry.toList, isWhiteSpace c = false) {manifest : Text}
    (h : sourceProjectYaml codec spec = .ok manifest) (job : ImportJob) :
    (importedDeployment job spec manifest).Describes codec := by
  intro yaml hyaml
  obtain rfl := Option.some.inj hyaml
  have hread := ofText_sourceProjectYaml hcodec h
  have hvalid : sourceSpecErrors (importedSource spec) = [] := by
    unfold sourceProjectYaml at h
    split at h
    · next hnone => exact hnone
    · cases h
  refine ⟨⟨_, hread, (specErrors_importedManifest spec).trans hvalid⟩, fun m hm ↦ ?_⟩
  obtain rfl := Except.ok.inj (hread.symm.trans hm)
  exact ⟨hname, trim_pendingImage hregistry⟩

/-- The row of a submission describes its manifest. -/
theorem describes_submittedDeployment {input : Submission Text} {cluster : Nat × Cluster}
    {row : Deployment Text}
    (h : submittedDeployment codec Manifest.specErrors input cluster = .ok row) :
    row.Describes codec := by
  obtain ⟨⟨text, m, htext, hread, herrors, -, hname, himage, -⟩, -⟩ := submittedDeployment_ok h
  intro yaml hyaml
  obtain rfl := Option.some.inj (htext.symm.trans hyaml)
  refine ⟨⟨m, hread, herrors⟩, fun read hm ↦ ?_⟩
  obtain rfl := Except.ok.inj (hread.symm.trans hm)
  exact ⟨hname, himage⟩

/-- A manifest that a form submits parses and is valid. -/
theorem validManifest_of_validate {yaml : Text} {result : Option Manifest}
    (h : validateProjectManifest codec Manifest.specErrors (some yaml) = .ok result) :
    ValidManifest codec yaml := by
  cases result with
  | none =>
    unfold validateProjectManifest at h
    split at h
    · next hnone => cases hnone
    · split at h
      · cases h
      · split at h <;> cases h
  | some m =>
    obtain ⟨⟨text, htext, hread⟩, herrors⟩ := validateProjectManifest_ok h
    obtain rfl := Option.some.inj htext
    exact ⟨m, hread, herrors⟩

/-- The status says nothing about the manifest. -/
theorem Deployment.Describes.withStatus {row : Deployment Text} (h : row.Describes codec)
    (status : String) : ({ row with status := status } : Deployment Text).Describes codec := h

/-- An action changes the annotations of a manifest and nothing else. -/
theorem ofText_applyWebhookActionToManifest (hcodec : codec.RoundTrips) {yaml text : Text}
    {action : WebhookAction} {productionBranch : String} {m : Manifest}
    (hm : codec.ofText yaml = .ok m)
    (h : applyWebhookActionToManifest codec yaml action productionBranch = .ok (some text)) :
    ∃ a, codec.ofText text = .ok { m with annotations := a } := by
  cases hchanges : action.changes productionBranch with
  | false =>
    exact absurd h (applyWebhookActionToManifest_of_not_changes codec yaml text hchanges)
  | true =>
    obtain ⟨text', htext', hread⟩ := applyWebhookActionToManifest_of_changes hcodec hm hchanges
    obtain rfl := Option.some.inj (Except.ok.inj (htext'.symm.trans h))
    exact ⟨_, hread⟩

/-- The row that a webhook writes describes its manifest when the loaded one does. -/
theorem describes_editManifest (hcodec : codec.RoundTrips) {action : WebhookAction}
    {repository : Nat × GitHubRepository} {project : Nat × GitHubProject}
    {loaded : Deployment Text} {job : WebhookJob Text} (hloaded : loaded.Describes codec)
    (h : editManifest codec action repository project loaded = .updateDeployment job) :
    job.deployment.Describes codec := by
  unfold editManifest at h
  split at h
  · cases h
  · next current hcurrent =>
    obtain ⟨⟨m, hm, herrors⟩, hnames⟩ := hloaded current hcurrent
    split at h
    · cases h
    · cases h
    · next next hnext =>
      cases h
      intro yaml hyaml
      obtain rfl := Option.some.inj hyaml
      obtain ⟨a, hread⟩ := ofText_applyWebhookActionToManifest hcodec hm hnext
      refine ⟨⟨_, hread, herrors⟩, fun read hreadAgain ↦ ?_⟩
      obtain rfl := Except.ok.inj (hread.symm.trans hreadAgain)
      exact hnames m hm

end Manifests

/-! ## What the handlers hold -/

/-- The row that a submission is about to store or has stored. -/
def SubmissionPhase.row : SubmissionPhase Text → Option (Deployment Text)
  | .createDeployment _ row => some row
  | .sendApply _ _ row => some row
  | .markError _ row _ => some row
  | _ => none

/-- What a webhook writes or has written. -/
def WebhookPhase.job : WebhookPhase Text → Option (WebhookJob Text)
  | .updateDeployment job => some job
  | .loadCluster job => some job
  | .loadInstallation job _ => some job
  | .mintToken job _ _ => some job
  | .sendCredentials job _ _ => some job
  | .sendApply job _ => some job
  | .markError job _ => some job
  | _ => none

section Sound

variable (codec : ManifestCodec Text)

/-- A stage whose names are trimmed, and whose manifest is described by the row to come. -/
def ImportStage.Describes : ImportStage Text → Prop
  | .mintToken spec => trim spec.projectName = spec.projectName ∧
      ∀ c ∈ spec.registry.toList, isWhiteSpace c = false
  | .sendCredentials spec manifest _ _ =>
      ∀ job, (importedDeployment job spec manifest).Describes codec
  | .sendApply spec manifest => ∀ job, (importedDeployment job spec manifest).Describes codec
  | .createDeployment spec manifest =>
      ∀ job, (importedDeployment job spec manifest).Describes codec
  | .createProject _ _ => True
  | .rollBack _ _ => True

def ImportPhase.Describes : ImportPhase Text → Prop
  | .running _ _ stage => stage.Describes codec
  | .renewing _ _ _ stage => stage.Describes codec
  | _ => True

/-- The manifest of a creation is valid; the rows of the others describe theirs. -/
def RowHandler.Sound : RowHandler Text → Prop
  | .creating (.createDeployment row) => ∀ yaml ∈ row.projectYaml, ValidManifest codec yaml
  | .creating _ => True
  | .submitting p => ∀ row ∈ p.row, row.Describes codec
  | .importing p => p.Describes codec
  | .editing (.update _ _ loaded) => loaded.Describes codec
  | .editing _ => True
  | .webhook p => ∀ job ∈ p.job, job.deployment.Describes codec

/-- The deployments stay, some are deleted, or one that describes its manifest is written. -/
def Writes (s t : Records Text) : Prop :=
  t.deployments = s.deployments ∨ (∃ p, t.deployments = s.deployments.deleteWhere p) ∨
    ∃ row, row.Describes codec ∧
      (t.deployments = s.deployments.add row ∨ ∃ id, t.deployments = s.deployments.set id row)

end Sound

/-! ## One step -/

section Steps

variable {codec : ManifestCodec Text} {s t : Records Text} {o : Outcome}

theorem Records.Described.of_writes (hs : s.Described codec) (h : Writes codec s t) :
    t.Described codec := by
  intro k found hfound
  rcases h with hd | ⟨p, hd⟩ | ⟨row, hrow, hd | ⟨id, hd⟩⟩
  · rw [hd] at hfound
    exact hs k found hfound
  · rw [hd] at hfound
    exact hs k found (Table.get_deleteWhere.mp hfound).1
  · rw [hd, Table.get_add] at hfound
    split at hfound
    · obtain rfl := Option.some.inj hfound
      exact hrow
    · exact hs k found hfound
  · rw [hd, Table.get_set] at hfound
    split at hfound
    · obtain ⟨old, -, rfl⟩ := Option.map_eq_some_iff.mp hfound
      exact hrow
    · exact hs k found hfound

/-- A row that is added describes its manifest if all rows do after it. -/
theorem Records.Described.of_add {row : Deployment Text}
    (h : ({ s with deployments := s.deployments.add row } : Records Text).Described codec) :
    row.Describes codec :=
  h s.deployments.next row Table.get_add_next

/-- So does a row that replaces a stored one. -/
theorem Records.Described.of_set {row : Deployment Text} {id : Nat}
    (hstored : (s.deployments.get id).isSome) (h : (s.updateDeployment id row).Described codec) :
    row.Describes codec := by
  obtain ⟨old, hold⟩ := Option.isSome_iff_exists.mp hstored
  exact h id row (Table.get_set_self hold)

/-- A submission stores a row that describes its manifest. -/
theorem SubmissionPhase.advance_writes {p p' : SubmissionPhase Text}
    (hp : ∀ row ∈ p.row, row.Describes codec)
    (h : p.advance codec Manifest.specErrors s o = some (t, p')) :
    (∀ row ∈ p'.row, row.Describes codec) ∧ Writes codec s t := by
  have hanswer (e : SubmitProjectDeploymentError) :
      ∀ row ∈ (deploymentErrorResponse e : SubmissionPhase Text).row, row.Describes codec := by
    cases e <;> exact fun _ hnone ↦ absurd hnone (Option.not_mem_none _)
  have hnone : ∀ row ∈ (none : Option (Deployment Text)), row.Describes codec :=
    fun row hrow ↦ absurd hrow (Option.not_mem_none row)
  cases p with
  | loadCluster input =>
    simp only [advance, Option.some.injEq] at h
    split at h
    · cases h
      exact ⟨hnone, .inl rfl⟩
    · split at h
      · cases h
        exact ⟨hnone, .inl rfl⟩
      · split at h <;> cases h
        · exact ⟨hanswer _, .inl rfl⟩
        · next row hrow =>
          refine ⟨fun stored hstored ↦ ?_, .inl rfl⟩
          obtain rfl := Option.some.inj hstored
          exact describes_submittedDeployment hrow
  | createDeployment cluster row =>
    simp only [advance, Option.some.injEq] at h
    split at h
    · next hcreate =>
      cases h
      obtain ⟨rfl, -⟩ := Records.createDeployment_eq_some hcreate
      exact ⟨hp, .inr (.inr ⟨row, hp row rfl, .inl rfl⟩)⟩
    · cases h
      exact ⟨hanswer _, .inl rfl⟩
  | sendApply cluster id row =>
    simp only [advance, Option.some.injEq] at h
    split at h <;> cases h
    · exact ⟨hanswer _, .inl rfl⟩
    · exact ⟨hnone, .inl rfl⟩
    · refine ⟨fun stored hstored ↦ ?_, .inl rfl⟩
      obtain rfl := Option.some.inj hstored
      exact (hp row rfl).withStatus "error"
  | markError id row message =>
    cases h
    split
    · exact ⟨hanswer _, .inl rfl⟩
    · exact ⟨hanswer _, .inr (.inr ⟨row, hp row rfl, .inr ⟨id, rfl⟩⟩)⟩
  | returned => cases h

/-- An import stores the row of its manifest, or rolls it back. -/
theorem ImportStage.advance_writes (hcodec : codec.RoundTrips) {fault : Option String}
    {job : ImportJob} {claimedAt : Timestamp} {stage : ImportStage Text} {p' : ImportPhase Text}
    (hstage : stage.Describes codec)
    (h : stage.advance codec s fault job claimedAt = (t, p')) :
    p'.Describes codec ∧ Writes codec s t := by
  cases stage with
  | mintToken spec =>
    simp only [advance] at h
    split at h
    · cases h
      exact ⟨trivial, .inl rfl⟩
    · obtain ⟨rfl, rfl⟩ := Prod.mk.inj h
      refine ⟨?_, .inl rfl⟩
      unfold prepareImport
      dsimp only
      split
      · trivial
      · next manifest hmanifest =>
        have hrow (other : ImportJob) : (importedDeployment other
            (enrichImportSpec spec job.repository) manifest).Describes codec := by
          apply describes_importedDeployment hcodec _ _ hmanifest
          · exact hstage.1
          · exact hstage.2
        split <;> exact hrow
  | sendCredentials spec manifest secretName token =>
    simp only [advance] at h
    split at h <;> cases h
    · exact ⟨hstage, .inl rfl⟩
    · exact ⟨trivial, .inl rfl⟩
    · exact ⟨trivial, .inl rfl⟩
  | sendApply spec manifest =>
    simp only [advance] at h
    split at h <;> cases h
    · exact ⟨hstage, .inl rfl⟩
    · exact ⟨trivial, .inl rfl⟩
    · exact ⟨trivial, .inl rfl⟩
  | createDeployment spec manifest =>
    simp only [advance] at h
    split at h
    · next hcreate =>
      cases h
      obtain ⟨rfl, -⟩ := Records.createDeployment_eq_some hcreate
      exact ⟨trivial, .inr (.inr ⟨_, hstage job, .inl rfl⟩)⟩
    · cases h
      exact ⟨trivial, .inl rfl⟩
  | createProject spec deployment =>
    simp only [advance] at h
    split at h
    · next hcreate =>
      cases h
      rw [Records.createProject_eq_some hcreate]
      exact ⟨trivial, .inl rfl⟩
    · cases h
      exact ⟨trivial, .inl rfl⟩
  | rollBack deployment error =>
    simp only [advance] at h
    split at h <;> cases h
    · exact ⟨trivial, .inl rfl⟩
    · exact ⟨trivial, .inr (.inl ⟨fun k _ ↦ k = deployment, rfl⟩)⟩

theorem describes_beginImport {job : ImportJob} {claimedAt : Timestamp} {p : ImportPhase Text}
    (hp : beginImport job claimedAt = p) : p.Describes codec := by
  unfold beginImport at hp
  split at hp <;> subst hp
  · next spec hspec => exact registry_of_importSpec hspec
  · trivial

theorem ImportPhase.advance_describes (hcodec : codec.RoundTrips) {p p' : ImportPhase Text}
    (hp : p.Describes codec) (h : p.advance codec s o = some (t, p')) : p'.Describes codec := by
  cases p with
  | loadCluster | loadRepository | loadInstallation | checkProject =>
    simp only [advance, Option.some.injEq] at h
    split at h <;> (try split at h) <;> cases h <;> trivial
  | readLeaseClock job =>
    simp only [advance, Option.some.injEq] at h
    split at h <;> cases h <;> trivial
  | readClaimClock job =>
    cases h
    trivial
  | recover job =>
    simp only [advance, Option.some.injEq] at h
    split at h <;> cases h <;> trivial
  | claim job startedAt =>
    simp only [advance, Option.some.injEq] at h
    split at h
    · cases h
      trivial
    · split at h
      · exact describes_beginImport (Prod.mk.inj h).2
      · cases h
        trivial
  | running job claimedAt stage =>
    simp only [advance, Option.some.injEq] at h
    split at h
    · cases h
      exact hp
    · exact (ImportStage.advance_writes hcodec hp h).1
  | renewing job claimedAt renewedAt stage =>
    simp only [advance, Option.some.injEq] at h
    split at h
    · cases h
      trivial
    · split at h <;> cases h
      · exact hp
      · trivial
  | releasing job claimedAt error =>
    simp only [advance, Option.some.injEq] at h
    split at h <;> cases h <;> trivial
  | returned => cases h

theorem ImportPhase.advance_writes (hcodec : codec.RoundTrips) {p p' : ImportPhase Text}
    (hp : p.Describes codec) (h : p.advance codec s o = some (t, p')) : Writes codec s t := by
  have hupdate {id : Nat} {filters : GitHubRepository → Bool}
      {assign : GitHubRepository → GitHubRepository} {u : Records Text} {n : Nat}
      (hu : s.updateRepositoryFields id filters assign = (u, n)) : Writes codec s u := by
    obtain rfl : (s.updateRepositoryFields id filters assign).1 = u := congrArg Prod.fst hu
    rw [Records.updateRepositoryFields_frame]
    exact .inl rfl
  rcases ImportPhase.advance_cases h with ⟨rfl, -, -⟩ | ⟨job, claimedAt, stage, rfl, hstage⟩ |
    ⟨job, -, -, rfl⟩ | ⟨job, startedAt, -, -, -, hclaim⟩ |
    ⟨job, claimedAt, renewedAt, stage, -, -, hrenew⟩ | ⟨job, claimedAt, error, -, -, rfl⟩
  · exact .inl rfl
  · exact (ImportStage.advance_writes hcodec hp hstage).2
  · exact hupdate rfl
  · exact hupdate hclaim
  · exact hupdate hrenew
  · exact hupdate rfl

/-- What a webhook writes it has made of the row that it has loaded. -/
theorem WebhookPhase.advance_job {p p' : WebhookPhase Text} (h : p.advance codec s o = some (t, p'))
    {job : WebhookJob Text} (hjob : p'.job = some job) :
    p.job = some job ∨ ∃ action repository project loaded id,
      s.deployments.get id = some loaded ∧
        editManifest codec action repository project loaded = .updateDeployment job := by
  cases p with
  | loadRepository | loadProject =>
    simp only [advance, Option.some.injEq] at h
    split at h <;> (try split at h) <;> cases h <;> cases hjob
  | loadDeployment action repository project =>
    simp only [advance, Option.some.injEq] at h
    split at h
    · cases h
      cases hjob
    · split at h
      · cases h
        cases hjob
      · next loaded hloaded =>
        obtain ⟨-, rfl⟩ := Prod.mk.inj h
        refine .inr ⟨action, repository, project, loaded, _, hloaded, ?_⟩
        unfold editManifest at hjob ⊢
        split at hjob
        · cases hjob
        · split at hjob <;> cases hjob
          rfl
  | updateDeployment | loadInstallation | mintToken | sendCredentials | sendApply =>
    simp only [advance, Option.some.injEq] at h
    split at h <;> (try split at h) <;> cases h <;> first | exact .inl hjob | cases hjob
  | loadCluster =>
    simp only [advance, Option.some.injEq] at h
    split at h <;> (try split at h) <;> (try split at h) <;> cases h <;>
      first | exact .inl hjob | cases hjob
  | markError =>
    simp only [advance, Option.some.injEq] at h
    split at h <;> cases h <;> cases hjob
  | returned => cases h

/-- A webhook stores a row that describes its manifest. -/
theorem WebhookPhase.advance_writes (hcodec : codec.RoundTrips) {p p' : WebhookPhase Text}
    (hs : s.Described codec) (hp : ∀ job ∈ p.job, job.deployment.Describes codec)
    (h : p.advance codec s o = some (t, p')) :
    (∀ job ∈ p'.job, job.deployment.Describes codec) ∧ Writes codec s t := by
  constructor
  · intro job hjob
    rcases advance_job h hjob with hold | ⟨action, repository, project, loaded, id, hget, hedit⟩
    · exact hp job hold
    · exact describes_editManifest hcodec (hs id loaded hget) hedit
  · rcases advance_deployments h with hsame | ⟨job, status, hwrite, hset⟩
    · exact .inl hsame
    · have hjob : p.job = some job := by
        rcases hwrite with rfl | ⟨message, rfl⟩ <;> rfl
      exact .inr (.inr ⟨_, (hp job hjob).withStatus status, .inr ⟨_, hset⟩⟩)

/-- A creation stores a row that describes its manifest exactly when the form agrees with it. -/
theorem CreatePhase.advance_described {p p' : CreatePhase Text} (hs : s.Described codec)
    (hp : (RowHandler.creating p).Sound codec) (h : p.advance codec s o = some (t, p')) :
    (RowHandler.creating p').Sound codec ∧
      (t.Described codec ↔ (o.fault = none → (RowHandler.creating p).Agrees codec s)) := by
  have hkept : s.Described codec ↔ (o.fault = none → True) := iff_of_true hs fun _ ↦ trivial
  cases p with
  | checkCluster form cluster =>
    simp only [advance, Option.some.injEq] at h
    split at h
    · cases h
      exact ⟨trivial, hkept⟩
    · split at h
      · cases h
        exact ⟨trivial, hkept⟩
      · split at h <;> cases h
        · exact ⟨trivial, hkept⟩
        · next hvalid =>
          refine ⟨fun yaml hyaml ↦ ?_, hkept⟩
          have hform : form.projectYaml = some yaml := hyaml
          rw [hform] at hvalid
          exact validManifest_of_validate hvalid
  | createDeployment row =>
    simp only [advance, Option.some.injEq] at h
    split at h
    · next u id hfault hcreate =>
      cases h
      refine ⟨trivial, fun ht _ _ yaml hyaml ↦ ?_, fun hagrees ↦ ?_⟩
      · obtain ⟨rfl, -⟩ := Records.createDeployment_eq_some hcreate
        exact (ht.of_add yaml hyaml).2
      · have hcluster : (s.clusters.get row.cluster).isSome := by
          unfold Records.createDeployment at hcreate
          split at hcreate
          · cases hcreate
          · next hstored =>
            rw [Option.isNone_iff_eq_none] at hstored
            exact Option.isSome_iff_ne_none.mpr hstored
        obtain ⟨rfl, -⟩ := Records.createDeployment_eq_some hcreate
        have hrow : row.Describes codec := fun yaml hyaml ↦
          ⟨hp yaml hyaml, hagrees hfault hcluster yaml hyaml⟩
        exact hs.of_writes (.inr (.inr ⟨row, hrow, .inl rfl⟩))
    · next hother =>
      cases h
      refine ⟨trivial, iff_of_true hs fun hfault hcluster ↦ ?_⟩
      have hstored : ¬ (s.clusters.get row.cluster).isNone := by
        rw [Option.isNone_iff_eq_none]
        exact Option.isSome_iff_ne_none.mp hcluster
      have hcreate : s.createDeployment row =
          some ({ s with deployments := s.deployments.add row }, s.deployments.next) := by
        rw [Records.createDeployment, if_neg hstored]
      exact absurd hcreate (hother _ _ hfault)
  | returned => cases h

/-- An edit stores a row that describes its manifest exactly when it repeats the names of one that
has a manifest. -/
theorem FormPhase.advance_described {p p' : FormPhase Text} (hs : s.Described codec)
    (hp : (RowHandler.editing p).Sound codec) (h : p.advance s o = some (t, p')) :
    (RowHandler.editing p').Sound codec ∧
      (t.Described codec ↔ (o.fault = none → (RowHandler.editing p).Agrees codec s)) := by
  have hkept : s.Described codec ↔ (o.fault = none → True) := iff_of_true hs fun _ ↦ trivial
  cases p with
  | load organization deployment edit =>
    simp only [advance, Option.some.injEq] at h
    split at h
    · cases h
      exact ⟨trivial, hkept⟩
    · split at h <;> cases h
      · exact ⟨trivial, hkept⟩
      · next loaded hloaded =>
        exact ⟨hs deployment loaded (Option.filter_eq_some_iff.mp hloaded).1, hkept⟩
  | update deployment edit loaded =>
    cases hfault : o.fault with
    | some e =>
      cases edit <;> simp only [advance, hfault, Option.some.injEq] at h <;> cases h <;>
        exact ⟨trivial, iff_of_true hs fun hnone ↦ absurd hnone (Option.some_ne_none e)⟩
    | none =>
      simp only [advance, hfault, Option.some.injEq] at h
      cases h
      refine ⟨trivial, ?_⟩
      cases edit with
      | statusOnly status =>
        have hrow := Deployment.Describes.withStatus hp status
        exact iff_of_true (hs.of_writes (.inr (.inr ⟨_, hrow, .inr ⟨deployment, rfl⟩⟩)))
          fun _ ↦ trivial
      | details projectName image status =>
        constructor
        · intro ht _ hstored hyaml
          obtain ⟨yaml, hyaml⟩ := Option.isSome_iff_exists.mp hyaml
          obtain ⟨⟨m, hm, -⟩, hnames⟩ := hp yaml hyaml
          obtain ⟨hname, himage⟩ := hnames m hm
          obtain ⟨hname', himage'⟩ := (ht.of_set hstored yaml hyaml).2 m hm
          exact ⟨hname'.symm.trans hname, himage'.symm.trans himage⟩
        · intro hagrees
          by_cases hstored : (s.deployments.get deployment).isSome
          · have hrow : ((DeploymentEdit.details projectName image status).apply loaded).Describes
                codec := by
              intro yaml hyaml
              have hloaded : loaded.projectYaml = some yaml := hyaml
              obtain ⟨rfl, rfl⟩ := hagrees rfl hstored (Option.isSome_of_eq_some hloaded)
              exact hp yaml hloaded
            exact hs.of_writes (.inr (.inr ⟨_, hrow, .inr ⟨deployment, rfl⟩⟩))
          · intro k row hrow
            have hget : (s.deployments.set deployment _).get k = some row := hrow
            rw [Table.get_set] at hget
            split at hget
            · rw [Option.not_isSome_iff_eq_none.mp hstored] at hget
              cases hget
            · exact hs k row hget
  | returned => cases h

/-- One step of a handler keeps what it holds, and keeps the rows exactly when it agrees. -/
theorem RowHandler.advance_described (hcodec : codec.RoundTrips) {p p' : RowHandler Text}
    (hs : s.Described codec) (hp : p.Sound codec) (h : p.advance codec s o = some (t, p')) :
    p'.Sound codec ∧ (t.Described codec ↔ (o.fault = none → p.Agrees codec s)) := by
  have hwritten (hw : Writes codec s t) : t.Described codec ↔ (o.fault = none → True) :=
    iff_of_true (hs.of_writes hw) fun _ ↦ trivial
  cases p with
  | creating p =>
    obtain ⟨⟨u, q⟩, hu, he⟩ := Option.map_eq_some_iff.mp h
    cases he
    exact CreatePhase.advance_described hs hp hu
  | submitting p =>
    obtain ⟨⟨u, q⟩, hu, he⟩ := Option.map_eq_some_iff.mp h
    cases he
    obtain ⟨hsound, hw⟩ := SubmissionPhase.advance_writes hp hu
    exact ⟨hsound, hwritten hw⟩
  | importing p =>
    obtain ⟨⟨u, q⟩, hu, he⟩ := Option.map_eq_some_iff.mp h
    cases he
    exact ⟨ImportPhase.advance_describes hcodec hp hu,
      hwritten (ImportPhase.advance_writes hcodec hp hu)⟩
  | editing p =>
    obtain ⟨⟨u, q⟩, hu, he⟩ := Option.map_eq_some_iff.mp h
    cases he
    exact FormPhase.advance_described hs hp hu
  | webhook p =>
    obtain ⟨⟨u, q⟩, hu, he⟩ := Option.map_eq_some_iff.mp h
    cases he
    obtain ⟨hsound, hw⟩ := WebhookPhase.advance_writes hcodec hs hp hu
    exact ⟨hsound, hwritten hw⟩

theorem rowEvent_described {e : DeskEvent Text} (hs : s.Described codec)
    (h : rowEvent s e = some t) : t.Described codec := by
  cases e with
  | change records =>
    cases h
    exact hs
  | delete p =>
    cases h
    exact hs.of_writes (.inr (.inl ⟨p, rfl⟩))

theorem RowHandler.start_sound {limits : CreateDeploymentForm Text → Option ServerFnError}
    (r : RowRequest Text) : (RowHandler.start limits r).Sound codec := by
  cases r with
  | create form =>
    simp only [start, CreatePhase.start]
    split
    · trivial
    · split
      · trivial
      · split
        · trivial
        · split <;> trivial
  | submit input => exact fun row hrow ↦ absurd hrow (Option.not_mem_none row)
  | importing request =>
    simp only [start, ImportPhase.start]
    split <;> trivial
  | edit organization deployment edit =>
    simp only [start, FormPhase.start]
    split <;> trivial
  | webhook action id => exact fun job hjob ↦ absurd hjob (Option.not_mem_none job)

end Steps

/-! ## Every run -/

section Runs

variable {codec : ManifestCodec Text} {limits : CreateDeploymentForm Text → Option ServerFnError}

/-- The rows describe their manifests, and the handlers hold what they rely on. -/
abbrev RowInv (codec : ManifestCodec Text) : RowState Text → Prop :=
  Pool.Inv (Records.Described codec) (fun _ p ↦ p.Sound codec) fun _ _ ↦ True

/-- A step keeps the rows exactly when it agrees. -/
theorem rowStep_described_iff (hcodec : codec.RoundTrips) {s t : RowState Text}
    {a : RowAction Text} (hs : RowInv codec s) (h : rowStep codec limits s a = some t) :
    t.store.Described codec ↔ Agrees codec s a := by
  cases a with
  | start r =>
    obtain rfl := Option.some.inj h
    exact iff_of_true hs.store trivial
  | advance i o =>
    obtain ⟨p, u, p', hp, hu, rfl⟩ := Pool.step_advance h
    have hsound := hs.procs p (List.mem_of_getElem? hp)
    rw [(RowHandler.advance_described hcodec hs.store hsound hu).2]
    constructor
    · intro hagrees hfault q hq
      obtain rfl := Option.some.inj (hp.symm.trans hq)
      exact hagrees hfault
    · exact fun hagrees hfault ↦ hagrees hfault p hp
  | cancel i =>
    simp only [rowStep, Pool.step] at h
    split at h
    · obtain rfl := Option.some.inj h
      exact iff_of_true hs.store trivial
    · cases h
  | environment e =>
    obtain ⟨u, hu, rfl⟩ := Option.map_eq_some_iff.mp h
    exact iff_of_true (rowEvent_described hs.store hu) trivial

theorem rows_keep (hcodec : codec.RoundTrips) :
    Pool.Keeps (RowHandler.start limits) (RowHandler.advance codec) rowEvent
      (Records.Described codec) (fun _ p ↦ p.Sound codec) (fun _ _ ↦ True)
      (Agrees codec) where
  symm := fun _ _ h ↦ h
  start := fun _ r _ _ ↦ ⟨RowHandler.start_sound r, fun _ _ ↦ trivial⟩
  advance := by
    intro s i p o t p' hs hp hagrees h
    obtain ⟨hsound, hrows⟩ := RowHandler.advance_described hcodec hs.store
      (hs.procs p (List.mem_of_getElem? hp)) h
    exact ⟨hrows.mpr fun hfault ↦ hagrees hfault p hp, hsound,
      fun j q _ hq ↦ ⟨hs.procs q (List.mem_of_getElem? hq), trivial⟩⟩
  environment := fun s e t hs _ h ↦ ⟨rowEvent_described hs.store h, hs.procs⟩

/-- In a run that begins without deployments every row describes its manifest in every state
exactly when each step agrees. -/
theorem rows_describe_iff (hcodec : codec.RoundTrips) (init : Records Text)
    {tr : List (RowTransition Text)} {s : RowState Text}
    (h : Run (rowStep codec limits) ⟨{ init with deployments := .empty }, []⟩ tr s) :
    (∀ x ∈ tr, x.after.store.Described codec) ↔ ∀ x ∈ tr, Agrees codec x.before x.action := by
  have hempty : ({ init with deployments := .empty } : Records Text).Described codec := by
    intro id row hrow
    cases hrow
  have hinit : RowInv codec ⟨{ init with deployments := .empty }, []⟩ :=
    ⟨hempty, by simp, fun i j p q _ hp _ ↦ by simp at hp⟩
  constructor
  · intro hall x hx
    have hstep (s : RowState Text) (a : RowAction Text) (t : RowState Text)
        (hs : RowInv codec s) (ht : rowStep codec limits s a = some t)
        (hrows : t.store.Described codec) : RowInv codec t ∧ Agrees codec s a := by
      have hagrees := (rowStep_described_iff hcodec hs ht).mp hrows
      exact ⟨(rows_keep hcodec).step hs hagrees ht, hagrees⟩
    exact ((h.safe_of_condition (C := fun x ↦ x.after.store.Described codec)
      (P := fun x ↦ Agrees codec x.before x.action) hinit hstep hall).2 x hx).2
  · intro hall x hx
    have hstep (s : RowState Text) (a : RowAction Text) (t : RowState Text)
        (hs : RowInv codec s) (ht : rowStep codec limits s a = some t)
        (hagrees : Agrees codec s a) : RowInv codec t ∧ t.store.Described codec :=
      ⟨(rows_keep hcodec).step hs hagrees ht,
        (rowStep_described_iff hcodec hs ht).mpr hagrees⟩
    exact ((h.safe_of_condition (C := fun x ↦ Agrees codec x.before x.action)
      (P := fun x ↦ x.after.store.Described codec) hinit hstep hall).2 x hx).2

end Runs

/-! ## A row that says something else -/

section Decidable

variable (codec : ManifestCodec Text)

instance (yaml : Text) (projectName image : String) :
    Decidable (NamesManifest codec yaml projectName image) :=
  match hread : codec.ofText yaml with
  | .ok m => decidable_of_iff (trim m.name = projectName ∧ trim m.spec.image = image) <| by
      constructor
      · intro h read hm
        obtain rfl := Except.ok.inj (hread.symm.trans hm)
        exact h
      · exact fun h ↦ h m hread
  | .error e => .isTrue <| by
      intro m hm
      rw [hread] at hm
      cases hm

instance (s : Records Text) : (p : RowHandler Text) → Decidable (p.Agrees codec s)
  | .creating (.createDeployment row) => inferInstanceAs (Decidable
      ((s.clusters.get row.cluster).isSome →
        ∀ yaml ∈ row.projectYaml, NamesManifest codec yaml row.projectName row.image))
  | .editing (.update deployment (.details projectName image _) loaded) => inferInstanceAs
      (Decidable ((s.deployments.get deployment).isSome → loaded.projectYaml.isSome →
        projectName = loaded.projectName ∧ image = loaded.image))
  | .creating (.checkCluster _ _) => .isTrue trivial
  | .creating (.returned _) => .isTrue trivial
  | .submitting _ => .isTrue trivial
  | .importing _ => .isTrue trivial
  | .editing (.load _ _ _) => .isTrue trivial
  | .editing (.update _ (.statusOnly _) _) => .isTrue trivial
  | .editing (.returned _) => .isTrue trivial
  | .webhook _ => .isTrue trivial

instance (s : RowState Text) : (a : RowAction Text) → Decidable (Agrees codec s a)
  | .advance i o => inferInstanceAs (Decidable
      (o.fault = none → ∀ p ∈ s.procs[i]?, p.Agrees codec s.store))
  | .start _ => .isTrue trivial
  | .cancel _ => .isTrue trivial
  | .environment _ => .isTrue trivial

end Decidable

/-- The limits on the length of the form's names. -/
def formLimits (form : CreateDeploymentForm Manifest) : Option ServerFnError :=
  if 63 < form.projectName.length then
    some (.validation "project_name" "Length must be at most 63")
  else if 512 < form.image.length then some (.validation "image" "Length must be at most 512")
  else none

/-- The manifest of the project shop. -/
def shopManifest : Manifest :=
  ⟨"shop", "default", ⟨none, none, none, none⟩, { image := "registry/shop:1" }, {}⟩

/-- A creation under this name, and an edit to it, each with the manifest's image. -/
def createAs (projectName : String) : RowRequest Manifest :=
  .create ⟨1, projectName, some 0, "registry/shop:1", some shopManifest⟩

def renameTo (projectName : String) : RowRequest Manifest :=
  .edit 1 0 (.details projectName "registry/shop:1" "running")

/-- A creation and then an edit. -/
def createAndEdit (created edited : String) : List (RowAction Manifest) :=
  [.start (createAs created), .advance 0 .success, .advance 0 .success,
    .start (renameTo edited), .advance 1 .success, .advance 1 .success]

/-- The project of a stored row and that of its manifest. -/
def rowAndManifest (s : RowState Manifest) (id : Nat) : Option (String × Option String) :=
  (s.store.deployments.get id).map fun row ↦
    (row.projectName, row.projectYaml.map fun m ↦ trim m.name)

/-- The row of web with the manifest of shop is not described. -/
theorem not_described_of_web {s : RowState Manifest}
    (h : rowAndManifest s 0 = some ("web", some "shop")) : ¬ s.store.Described plainCodec := by
  intro hs
  obtain ⟨row, hrow, hnames⟩ := Option.map_eq_some_iff.mp h
  obtain ⟨hname, hmanifest⟩ := Prod.mk.inj hnames
  obtain ⟨m, hm, hshop⟩ := Option.map_eq_some_iff.mp hmanifest
  have hsame := ((hs 0 row hrow m hm).2 m rfl).1
  rw [hshop, hname] at hsame
  exact absurd hsame (by decide)

/-- The forms store the project web with the manifest of shop: the one as a new row, the other over
a row that was right. -/
theorem not_rows_describe : (∃ tr s,
    Run (rowStep plainCodec formLimits) ⟨{ deskRecords with deployments := .empty }, []⟩ tr s ∧
      ¬ s.store.Described plainCodec) ∧
    ∃ tr s t, Run (rowStep plainCodec formLimits)
      ⟨{ deskRecords with deployments := .empty }, []⟩ tr s ∧
      rowAndManifest s 0 = some ("shop", some "shop") ∧
      rowStep plainCodec formLimits s (.advance 1 .success) = some t ∧
      ¬ t.store.Described plainCodec := by
  have hcreated : ((execute (rowStep plainCodec formLimits)
      ⟨{ deskRecords with deployments := .empty }, []⟩
      ((createAndEdit "web" "web").take 3)).map fun s ↦ rowAndManifest s 0) =
        some (some ("web", some "shop")) := by decide
  have hedited : ((execute (rowStep plainCodec formLimits)
      ⟨{ deskRecords with deployments := .empty }, []⟩
      ((createAndEdit "shop" "web").take 5)).map fun s ↦ (rowAndManifest s 0,
        (rowStep plainCodec formLimits s (.advance 1 .success)).map fun t ↦ rowAndManifest t 0)) =
        some (some ("shop", some "shop"), some (some ("web", some "shop"))) := by decide
  obtain ⟨s, hs, hweb⟩ := Option.map_eq_some_iff.mp hcreated
  obtain ⟨s', hs', hboth⟩ := Option.map_eq_some_iff.mp hedited
  obtain ⟨hshop, hafter⟩ := Prod.mk.inj hboth
  obtain ⟨t, ht, hrenamed⟩ := Option.map_eq_some_iff.mp hafter
  exact ⟨⟨_, s, Run.of_execute _ hs, not_described_of_web hweb⟩,
    _, s', t, Run.of_execute _ hs', hshop, ht, not_described_of_web hrenamed⟩

/-- A creation under the manifest's name and an edit that repeats it keep the row as it should
be. -/
theorem rows_describe_shop : ∃ tr s,
    Run (rowStep plainCodec formLimits) ⟨{ deskRecords with deployments := .empty }, []⟩ tr s ∧
      rowAndManifest s 0 = some ("shop", some "shop") ∧
      ∀ x ∈ tr, x.after.store.Described plainCodec := by
  have hstate : ((execute (rowStep plainCodec formLimits)
      ⟨{ deskRecords with deployments := .empty }, []⟩ (createAndEdit "shop" "shop")).map
        fun s ↦ rowAndManifest s 0) = some (some ("shop", some "shop")) := by decide
  obtain ⟨s, hs, hshop⟩ := Option.map_eq_some_iff.mp hstate
  have hrun := Run.of_execute _ hs
  exact ⟨_, s, hrun, hshop,
    (rows_describe_iff plainCodec_roundTrips deskRecords hrun).mpr (by decide)⟩

end ReinhardtCloud.Dashboard

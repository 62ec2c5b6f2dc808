import Mathlib.Data.List.DropRight
import ReinhardtCloud.Dashboard.Submissions
import ReinhardtCloud.Dashboard.Onboarding
import ReinhardtCloud.Dashboard.WebhookReading

/-!
# Which cluster object a deployment drives

Library `Dashboard`. Imports and submissions at work on the records, each stored deployment with the
request it was made for. No handler looks for a deployment of the object that its request names, so
two requests for one object make two rows that drive it.
-/

namespace ReinhardtCloud.Dashboard

open ReinhardtCloud.Base ReinhardtCloud.Operator

variable {Text : Type}

/-! ## Names -/

private theorem dropWhile_trimmed {α : Type} (p : α → Bool) (l : List α) :
    (((l.dropWhile p).reverse.dropWhile p).reverse).dropWhile p =
      ((l.dropWhile p).reverse.dropWhile p).reverse := by
  cases hl : l.dropWhile p with
  | nil => rfl
  | cons a rest =>
    have ha : p a = false := by
      have hhead := List.head_dropWhile_not p (l := l) (by simp [hl])
      simpa [hl] using hhead
    have hend : ((a :: rest).reverse.dropWhile p) = rest.reverse.dropWhile p ++ [a] := by
      rw [List.reverse_cons, List.dropWhile_append]
      split
      · next hempty => simp [List.isEmpty_iff.mp hempty, ha]
      · rfl
    rw [hend, List.reverse_append, List.reverse_singleton, List.singleton_append,
      List.dropWhile_cons_of_neg (by simp [ha])]

/-- Trimming twice is trimming. -/
theorem trim_trim (s : String) : trim (trim s) = trim s := by
  simp only [trim, String.toList_ofList, dropWhile_trimmed, List.reverse_reverse]
  rw [List.dropWhile_idempotent]

theorem trim_eq_self {s : String} (h : ∀ c ∈ s.toList, isWhiteSpace c = false) : trim s = s := by
  have hdrop (l : List Char) (hl : ∀ c ∈ l, isWhiteSpace c = false) :
      l.dropWhile isWhiteSpace = l := by
    cases l with
    | nil => rfl
    | cons c rest => rw [List.dropWhile_cons_of_neg (by simp [hl c])]
  rw [trim, hdrop _ h, hdrop _ fun c hc ↦ h c (List.mem_reverse.mp hc), List.reverse_reverse,
    String.ofList_toList]

/-- The characters of a sanitised name. -/
def isNameChar (c : Char) : Bool := c.isLower || c.isDigit || c = '-'

theorem isWhiteSpace_of_isNameChar {c : Char} (h : isNameChar c = true) :
    isWhiteSpace c = false := by
  simp only [isNameChar, Bool.or_eq_true, decide_eq_true_eq] at h
  have hrange : 97 ≤ c.toNat ∧ c.toNat ≤ 122 ∨ 48 ≤ c.toNat ∧ c.toNat ≤ 57 ∨ c.toNat = 45 := by
    rcases h with (h | h) | rfl
    · have hlower : c.isLower = (decide (97 ≤ c.toNat) && decide (c.toNat ≤ 122)) := rfl
      rw [hlower, Bool.and_eq_true, decide_eq_true_eq, decide_eq_true_eq] at h
      exact .inl h
    · exact .inr (.inl (Char.isDigit_iff_toNat.mp h))
    · exact .inr (.inr rfl)
  simp only [isWhiteSpace, Bool.or_eq_false_iff, Bool.and_eq_false_iff, decide_eq_false_iff_not]
  omega

theorem sanitizeLoop_nameChars {out l : List Char} {previousHyphen : Bool}
    (hout : ∀ c ∈ out, isNameChar c = true) :
    ∀ c ∈ sanitizeLoop out previousHyphen l, isNameChar c = true := by
  induction l generalizing out previousHyphen with
  | nil => exact hout
  | cons c rest ih =>
    rw [sanitizeLoop]
    split
    · exact ih hout
    · next next hnext =>
      have hname : isNameChar next = true := by
        unfold sanitizedChar at hnext
        split at hnext
        · next hc =>
          obtain rfl := Option.some.inj hnext
          simp only [isNameChar, hc, Bool.true_or]
        · split at hnext
          · obtain rfl := Option.some.inj hnext
            rfl
          · cases hnext
      have hcons : ∀ c ∈ next :: out, isNameChar c = true := by
        intro c hc
        rcases List.mem_cons.mp hc with rfl | hc
        · exact hname
        · exact hout c hc
      split
      · exact ih hout
      · split
        · exact hcons
        · exact ih hcons

/-- A sanitised name is trimmed. -/
theorem trim_sanitizeProjectName (raw : String) :
    trim (sanitizeProjectName raw) = sanitizeProjectName raw := by
  apply trim_eq_self
  intro c hc
  apply isWhiteSpace_of_isNameChar
  simp only [sanitizeProjectName] at hc
  split at hc
  · have hall : "app".toList.all isNameChar = true := by decide
    exact List.all_eq_true.mp hall c hc
  · rw [String.toList_ofList, List.mem_reverse] at hc
    exact sanitizeLoop_nameChars (by simp) c ((List.dropWhile_sublist _).subset hc)

/-! ## Requests and the objects they name -/

/-- The name of an import's Project: the typed one, or the default of its repository. -/
def importName (typed : String) (repository : GitHubRepository) : String :=
  if trim typed = "" then defaultProjectName repository else trim typed

/-- What a deployment was requested with: the request of an import and its repository, or a
submission and the cluster it has found. -/
inductive DeploymentOrigin (Text : Type) where
  | imported (request : ImportRequest) (repository : GitHubRepository)
  | submitted (input : Submission Text) (cluster : Nat)

/-- An object on a cluster, by its namespace and name. -/
structure ClusterObject where
  cluster : Nat
  ns : String
  name : String
  deriving DecidableEq

/-- The namespace that a manifest is applied in. -/
def Manifest.appliedNs (m : Manifest) : String := (nonBlank m.ns).getD "default"

/-- The object that a request names. A submission names it by its project name and the namespace of
its manifest. -/
def DeploymentOrigin.object (codec : ManifestCodec Text) :
    DeploymentOrigin Text → Option ClusterObject
  | .imported request repository =>
    some ⟨request.clusterId, "default", importName request.projectName repository⟩
  | .submitted input cluster =>
    input.projectYaml.bind fun yaml ↦ (codec.ofText yaml).toOption.map fun m ↦
      ⟨cluster, m.appliedNs, trim input.projectName⟩

/-- The object that a manifest drives on a cluster. -/
def drivenObject (codec : ManifestCodec Text) (cluster : Nat) (yaml : Text) :
    Option ClusterObject :=
  (codec.ofText yaml).toOption.map fun m ↦ ⟨cluster, m.appliedNs, trim m.name⟩

/-- The object that a deployment drives. -/
def Deployment.object (codec : ManifestCodec Text) (row : Deployment Text) :
    Option ClusterObject :=
  row.projectYaml.bind (drivenObject codec row.cluster)

/-- The manifest drives the object that the request names. -/
def DeploymentOrigin.Drives (codec : ManifestCodec Text) (request : DeploymentOrigin Text)
    (driven : Option ClusterObject) : Prop :=
  driven.isSome = true ∧ driven = request.object codec

/-! ## Imports and submissions at work -/

/-- A running import or submission, with its request as it came in. -/
inductive Applicant (Text : Type) where
  | importing (request : ImportRequest) (phase : ImportPhase Text)
  | submitting (input : Submission Text) (phase : SubmissionPhase Text)

/-- The records, and for each deployment the request that made it, which no step reads. -/
structure Desk (Text : Type) where
  records : Records Text
  origins : Nat → Option (DeploymentOrigin Text)

/-- An import or a submission comes in. -/
def Applicant.start : ImportRequest ⊕ Submission Text → Applicant Text
  | .inl request => .importing request (.start request)
  | .inr input => .submitting input (.loadCluster input)

/-- The cluster of a submission, once it is found. -/
def SubmissionPhase.cluster : SubmissionPhase Text → Option Nat
  | .createDeployment cluster _ | .sendApply cluster _ _ => some cluster.1
  | .markError _ row _ => some row.cluster
  | .loadCluster _ | .returned _ _ => none

/-- The request of a handler, once it may make a deployment. -/
def Applicant.origin : Applicant Text → Option (DeploymentOrigin Text)
  | .importing request (.running job _ _) => some (.imported request job.repository)
  | .importing _ _ => none
  | .submitting input phase => phase.cluster.map (.submitted input)

/-- The next step of a handler queues its Project or stores its deployment. -/
def Applicant.commits (o : Outcome) : Applicant Text → Bool
  | .importing _ (.running _ _ (.sendApply _ _)) => o.fault.isNone && !o.heartbeat
  | .importing _ (.running _ _ (.createDeployment _ _)) => o.fault.isNone && !o.heartbeat
  | .submitting _ (.createDeployment _ _) => o.fault.isNone
  | .submitting _ (.sendApply _ _ _) => o.fault.isNone
  | _ => false

/-- The deployment that a handler has stored when it queues its Project. -/
def Applicant.own : Applicant Text → Option Nat
  | .submitting _ (.sendApply _ id _) => some id
  | _ => none

/-- The new records, with the request of a deployment that has been added. -/
def Desk.after (s : Desk Text) (origin : Option (DeploymentOrigin Text)) (t : Records Text) :
    Desk Text where
  records := t
  origins := if s.records.deployments.next < t.deployments.next then
    Function.update s.origins s.records.deployments.next origin else s.origins

/-- One awaited step of an import or a submission. -/
def Applicant.advance (codec : ManifestCodec Text) (specErrors : Manifest → List String)
    (s : Desk Text) (p : Applicant Text) (o : Outcome) : Option (Desk Text × Applicant Text) :=
  match p with
  | .importing request phase => (phase.advance codec s.records o).map fun r ↦
      (s.after p.origin r.1, .importing request r.2)
  | .submitting input phase => (phase.advance codec specErrors s.records o).map fun r ↦
      (s.after p.origin r.1, .submitting input r.2)

/-- What else happens: everything but the deployments and the commands may change, and deployments
are deleted. -/
inductive DeskEvent (Text : Type) where
  | change (records : Records Text)
  | delete (p : Nat → Deployment Text → Bool)

/-- One such event. -/
def DeskEvent.occur (s : Desk Text) : DeskEvent Text → Option (Desk Text)
  | .change records => some { s with
      records := { records with deployments := s.records.deployments, outbox := s.records.outbox } }
  | .delete p => some { s with records := s.records.deleteDeployments p }

abbrev DeskState (Text : Type) := Pool (Desk Text) (Applicant Text)

abbrev DeskAction (Text : Type) :=
  PoolAction (ImportRequest ⊕ Submission Text) Outcome (DeskEvent Text)

abbrev DeskTransition (Text : Type) := Transition (DeskState Text) (DeskAction Text)

/-- One step of imports, submissions and their surroundings. -/
abbrev deskStep (codec : ManifestCodec Text) (specErrors : Manifest → List String) :
    DeskState Text → DeskAction Text → Option (DeskState Text) :=
  Pool.step Applicant.start (Applicant.advance codec specErrors) DeskEvent.occur

/-- No two stored deployments drive one object of one cluster. -/
def Desk.Apart (codec : ManifestCodec Text) (s : Desk Text) : Prop :=
  ∀ k₁ k₂ row₁ row₂, k₁ ≠ k₂ → s.records.deployments.get k₁ = some row₁ →
    s.records.deployments.get k₂ = some row₂ →
    ∃ object₁ object₂, row₁.object codec = some object₁ ∧ row₂.object codec = some object₂ ∧
      object₁ ≠ object₂

/-- A Project that a handler queues is for an object that no deployment of another request
drives. -/
def OverwritesNone (codec : ManifestCodec Text) (x : DeskTransition Text) : Prop :=
  ∀ i o p cluster projectName yaml, x.action = .advance i o → x.before.procs[i]? = some p →
    x.after.store.records.outbox =
      x.before.store.records.outbox ++ [.applyProject cluster projectName yaml] →
    (drivenObject codec cluster yaml).isSome = true ∧
      ∀ k row, x.before.store.records.deployments.get k = some row → p.own ≠ some k →
        row.object codec ≠ drivenObject codec cluster yaml

/-- A handler that is about to queue its Project or to store its deployment names an object that the
request of no other stored deployment names. -/
def Applicant.NamesFree (codec : ManifestCodec Text) (s : Desk Text) (p : Applicant Text)
    (o : Outcome) : Prop :=
  p.commits o = true → ∀ request ∈ p.origin, ∀ k < s.records.deployments.next,
    (s.records.deployments.get k).isSome = true → p.own ≠ some k →
    ∀ other ∈ s.origins k, other.object codec ≠ request.object codec

/-- The handler that goes on names a free object. -/
def NamesFreeObject (codec : ManifestCodec Text) (s : DeskState Text) : DeskAction Text → Prop
  | .advance i o => ∀ p ∈ s.procs[i]?, p.NamesFree codec s.store o
  | .start _ => True
  | .cancel _ => True
  | .environment _ => True

/-! ## What the handlers have read -/

/-- A stage whose names and manifest are those of the request. -/
def ImportStage.Named (codec : ManifestCodec Text) (name : String) : ImportStage Text → Prop
  | .mintToken spec => spec.projectName = name ∧ spec.ns = "default"
  | .sendCredentials spec manifest _ _ => spec.projectName = name ∧ spec.ns = "default" ∧
      codec.ofText manifest = .ok (importedManifest spec)
  | .sendApply spec manifest => spec.projectName = name ∧ spec.ns = "default" ∧
      codec.ofText manifest = .ok (importedManifest spec)
  | .createDeployment spec manifest => spec.projectName = name ∧ spec.ns = "default" ∧
      codec.ofText manifest = .ok (importedManifest spec)
  | .createProject _ _ => True
  | .rollBack _ _ => True

/-- What the first checks make of a request: the cluster stays, and the name is none or the typed
one. -/
structure Checked (given request : ImportRequest) : Prop where
  clusterId : request.clusterId = given.clusterId
  projectName : request.projectName =
    if trim given.projectName = "" then "" else trim given.projectName

/-- The phase is one of an import that came in with this request. -/
def ImportPhase.Named (codec : ManifestCodec Text) (given : ImportRequest) :
    ImportPhase Text → Prop
  | .loadCluster request => Checked given request
  | .loadRepository request _ => Checked given request
  | .loadInstallation request _ _ => Checked given request
  | .checkProject job => Checked given job.request
  | .readLeaseClock job => Checked given job.request
  | .recover job => Checked given job.request
  | .readClaimClock job => Checked given job.request
  | .claim job _ => Checked given job.request
  | .running job _ stage => job.request.clusterId = given.clusterId ∧
      stage.Named codec (importName given.projectName job.repository)
  | .renewing job _ _ stage => job.request.clusterId = given.clusterId ∧
      stage.Named codec (importName given.projectName job.repository)
  | .releasing _ _ _ => True
  | .returned _ => True

theorem trim_importName (typed : String) (repository : GitHubRepository) :
    trim (importName typed repository) = importName typed repository := by
  unfold importName
  split
  · exact trim_sanitizeProjectName repository.name
  · exact trim_trim typed

theorem trim_empty : trim "" = "" := rfl

/-- The specification of an import has the name of its request. -/
theorem importSpec_named {repository : GitHubRepository} {given request : ImportRequest}
    {spec : GitHubImportSpec} (hchecked : Checked given request)
    (h : importSpecFromRepository repository request.projectName request.registry = .ok spec) :
    spec.projectName = importName given.projectName repository ∧ spec.ns = "default" := by
  have hchosen : (if trim request.projectName = "" then defaultProjectName repository
      else trim request.projectName) = importName given.projectName repository := by
    rw [hchecked.projectName, importName]
    by_cases hblank : trim given.projectName = ""
    · rw [if_pos hblank, if_pos hblank, if_pos trim_empty]
    · rw [if_neg hblank, if_neg hblank, trim_trim, if_neg hblank]
  unfold importSpecFromRepository at h
  simp only [hchosen, bind, Except.bind, pure, Except.pure] at h
  split at h
  · cases h
  · next name hvalid =>
    split at h <;> cases h
    exact ⟨(validateProjectName_ok hvalid).trans (trim_importName given.projectName repository),
      rfl⟩

theorem ImportPhase.start_named (codec : ManifestCodec Text) (request : ImportRequest) :
    (ImportPhase.start request : ImportPhase Text).Named codec request := by
  unfold ImportPhase.start
  split
  · trivial
  · trivial
  · next projectName registry hvalid hregistry =>
    refine ⟨rfl, ?_⟩
    dsimp only
    split at hvalid
    · next hblank => rw [if_pos hblank, Except.ok.inj hvalid]
    · next hblank => rw [if_neg hblank, validateProjectName_ok hvalid]

theorem beginImport_named {codec : ManifestCodec Text} {given : ImportRequest} {job : ImportJob}
    {claimedAt : Timestamp} {p : ImportPhase Text} (hchecked : Checked given job.request)
    (hp : beginImport job claimedAt = p) : p.Named codec given := by
  unfold beginImport at hp
  split at hp <;> subst hp
  · next spec hspec => exact ⟨hchecked.clusterId, importSpec_named hchecked hspec⟩
  · trivial

theorem prepareImport_named {codec : ManifestCodec Text} (hcodec : codec.RoundTrips)
    {given : ImportRequest} {job : ImportJob} (claimedAt : Timestamp) {spec : GitHubImportSpec}
    (hcluster : job.request.clusterId = given.clusterId)
    (hname : spec.projectName = importName given.projectName job.repository)
    (hns : spec.ns = "default") : (prepareImport codec job claimedAt spec).Named codec given := by
  unfold prepareImport
  dsimp only
  split
  · trivial
  · next manifest hmanifest =>
    have hread := ofText_sourceProjectYaml hcodec hmanifest
    split <;> exact ⟨hcluster, hname, hns, hread⟩

theorem ImportStage.advance_named {codec : ManifestCodec Text} (hcodec : codec.RoundTrips)
    {given : ImportRequest} {s t : Records Text} {fault : Option String} {job : ImportJob}
    {claimedAt : Timestamp} {stage : ImportStage Text} {p' : ImportPhase Text}
    (hcluster : job.request.clusterId = given.clusterId)
    (hstage : stage.Named codec (importName given.projectName job.repository))
    (h : stage.advance codec s fault job claimedAt = (t, p')) : p'.Named codec given := by
  cases stage with
  | mintToken spec =>
    simp only [advance] at h
    split at h <;> cases h
    · trivial
    · exact prepareImport_named hcodec claimedAt hcluster hstage.1 hstage.2
  | sendCredentials spec manifest secretName token =>
    simp only [advance] at h
    split at h <;> cases h
    · exact ⟨hcluster, hstage⟩
    · trivial
    · trivial
  | sendApply spec manifest =>
    simp only [advance] at h
    split at h <;> cases h
    · exact ⟨hcluster, hstage⟩
    · trivial
    · trivial
  | createDeployment spec manifest =>
    simp only [advance] at h
    split at h <;> cases h
    · exact ⟨hcluster, trivial⟩
    · trivial
  | createProject spec deployment =>
    simp only [advance] at h
    split at h <;> cases h
    · trivial
    · exact ⟨hcluster, trivial⟩
  | rollBack deployment error =>
    simp only [advance] at h
    split at h <;> cases h <;> trivial

theorem ImportPhase.advance_named {codec : ManifestCodec Text} (hcodec : codec.RoundTrips)
    {given : ImportRequest} {s t : Records Text} {o : Outcome} {p p' : ImportPhase Text}
    (hp : p.Named codec given) (h : p.advance codec s o = some (t, p')) : p'.Named codec given := by
  cases p with
  | loadCluster | loadRepository | loadInstallation | checkProject =>
    simp only [advance, Option.some.injEq] at h
    split at h <;> (try split at h) <;> cases h <;> first | exact hp | trivial
  | readLeaseClock job =>
    simp only [advance, Option.some.injEq] at h
    split at h <;> cases h <;> exact hp
  | readClaimClock job =>
    cases h
    exact hp
  | recover job =>
    simp only [advance, Option.some.injEq] at h
    split at h <;> cases h
    · trivial
    · exact hp
  | claim job startedAt =>
    simp only [advance, Option.some.injEq] at h
    split at h
    · cases h
      trivial
    · split at h
      · exact beginImport_named hp (Prod.mk.inj h).2
      · cases h
        trivial
  | running job claimedAt stage =>
    simp only [advance, Option.some.injEq] at h
    split at h
    · cases h
      exact hp
    · exact ImportStage.advance_named hcodec hp.1 hp.2 h
  | renewing job claimedAt renewedAt stage =>
    simp only [advance, Option.some.injEq] at h
    split at h
    · cases h
      trivial
    · split at h <;> cases h
      · exact hp
      · trivial
  | releasing job claimedAt error =>
    simp only [advance, Option.some.injEq] at h
    split at h <;> cases h <;> trivial
  | returned => cases h

/-- The imported manifest drives the object that the import names. -/
theorem drives_imported {codec : ManifestCodec Text} {given : ImportRequest}
    {repository : GitHubRepository} {spec : GitHubImportSpec} {manifest : Text}
    (hname : spec.projectName = importName given.projectName repository) (hns : spec.ns = "default")
    (hread : codec.ofText manifest = .ok (importedManifest spec)) :
    (DeploymentOrigin.imported given repository).Drives codec
      (drivenObject codec given.clusterId manifest) := by
  have hobject : drivenObject codec given.clusterId manifest =
      some ⟨given.clusterId, (nonBlank spec.ns).getD "default", trim spec.projectName⟩ := by
    rw [drivenObject, hread]
    rfl
  rw [DeploymentOrigin.Drives, hobject, hname, hns, trim_importName]
  exact ⟨rfl, rfl⟩

theorem validateProjectManifest_ok {codec : ManifestCodec Text}
    {specErrors : Manifest → List String} {yaml : Option Text} {m : Manifest}
    (h : validateProjectManifest codec specErrors yaml = .ok (some m)) :
    (∃ text, yaml = some text ∧ codec.ofText text = .ok m) ∧ specErrors m = [] := by
  unfold validateProjectManifest at h
  split at h
  · cases h
  · next text =>
    split at h
    · cases h
    · next hread =>
      split at h
      · next hnone =>
        cases h
        exact ⟨⟨text, rfl, hread⟩, hnone⟩
      · cases h

/-- What an accepted manifest of a submission says. -/
theorem validateSubmissionManifest_ok {codec : ManifestCodec Text}
    {specErrors : Manifest → List String} {input : Submission Text} {projectName : String}
    {m : Manifest} (h : validateSubmissionManifest codec specErrors input projectName = .ok m) :
    ((∃ text, input.projectYaml = some text ∧ codec.ofText text = .ok m) ∧ specErrors m = []) ∧
      nonBlank m.name = some projectName ∧ trim m.spec.image = trim input.image ∧
      ∀ given ∈ input.ns.bind nonBlank, (nonBlank m.ns).getD "default" = given := by
  unfold validateSubmissionManifest at h
  split at h
  · cases h
  · cases h
  · next read hread =>
    split at h
    · cases h
    · next manifestName hmanifestName =>
      split at h
      · cases h
      · next hname =>
        split at h
        · cases h
        · next hns =>
          split at h
          · cases h
          · next himage =>
            cases h
            refine ⟨validateProjectManifest_ok hread, by rw [hmanifestName, not_not.mp hname],
              not_not.mp himage, ?_⟩
            intro given hgiven
            rw [Option.mem_def.mp hgiven] at hns
            simpa using hns

/-- What the row of a validated submission says, and its manifest. -/
theorem submittedDeployment_ok {codec : ManifestCodec Text} {specErrors : Manifest → List String}
    {input : Submission Text} {cluster : Nat × Cluster} {row : Deployment Text}
    (h : submittedDeployment codec specErrors input cluster = .ok row) :
    (∃ yaml m, row.projectYaml = some yaml ∧ codec.ofText yaml = .ok m ∧ specErrors m = [] ∧
      row.projectName = trim input.projectName ∧ trim m.name = row.projectName ∧
      trim m.spec.image = row.image ∧
      ∀ given ∈ input.ns.bind nonBlank, (nonBlank m.ns).getD "default" = given) ∧
    row.projectYaml = input.projectYaml ∧ row.cluster = cluster.1 := by
  have hlength {max : Nat} {message s value : String}
      (h : validateLength max message s = .ok value) : value = trim s := by
    unfold validateLength at h
    split at h <;> cases h
    rfl
  simp only [submittedDeployment, bind, Except.bind, pure, Except.pure] at h
  split at h
  · cases h
  · next projectName hname =>
    split at h
    · cases h
    · next image himage =>
      split at h
      · cases h
      · next m hvalid =>
        split at h <;> cases h
        obtain ⟨⟨⟨text, hyaml, hread⟩, herrors⟩, hmanifestName, hmanifestImage, hns⟩ :=
          validateSubmissionManifest_ok hvalid
        have htrim : trim m.name = projectName := by
          unfold nonBlank at hmanifestName
          split at hmanifestName
          · cases hmanifestName
          · exact Option.some.inj hmanifestName
        exact ⟨⟨text, m, hyaml, hread, herrors, hlength hname, htrim,
          hmanifestImage.trans (hlength himage).symm, hns⟩, rfl, rfl⟩

/-- The row of a validated submission drives the object that the submission names. -/
theorem drives_submitted {codec : ManifestCodec Text} {specErrors : Manifest → List String}
    {input : Submission Text} {cluster : Nat × Cluster} {row : Deployment Text}
    (h : submittedDeployment codec specErrors input cluster = .ok row) :
    row.cluster = cluster.1 ∧
      (DeploymentOrigin.submitted input row.cluster).Drives codec (row.object codec) := by
  obtain ⟨⟨yaml, m, hyaml, hread, -, hname, htrim, -⟩, hinput, hcluster⟩ := submittedDeployment_ok h
  have hobject : row.object codec = some ⟨row.cluster, m.appliedNs, trim m.name⟩ := by
    simp only [Deployment.object, hyaml, Option.bind_some, drivenObject, hread]
    rfl
  refine ⟨hcluster, by rw [hobject]; rfl, ?_⟩
  simp only [hobject, DeploymentOrigin.object, ← hinput, hyaml, Option.bind_some, hread, htrim,
    hname]
  rfl

/-! ## One step -/

variable {codec : ManifestCodec Text}

/-- A step of a handler leaves the deployments, adds the one that its request names when it commits,
rewrites one that its own request names, or deletes. -/
def Makes (codec : ManifestCodec Text) (s : Desk Text) (p : Applicant Text) (o : Outcome)
    (t : Records Text) : Prop :=
  t.deployments = s.records.deployments ∨
  (∃ q, t.deployments = s.records.deployments.deleteWhere q) ∨
  (∃ request row, p.origin = some request ∧ p.commits o = true ∧ p.own = none ∧
    t.deployments = s.records.deployments.add row ∧ request.Drives codec (row.object codec)) ∨
  ∃ id request row, s.origins id = some request ∧
    t.deployments = s.records.deployments.set id row ∧ request.Drives codec (row.object codec)

/-- A step of a handler queues a Project only when it commits, and only for the object that its
request names. -/
def Applies (codec : ManifestCodec Text) (s : Desk Text) (p : Applicant Text) (o : Outcome)
    (t : Records Text) : Prop :=
  ∀ cluster projectName yaml,
    t.outbox = s.records.outbox ++ [.applyProject cluster projectName yaml] →
    p.commits o = true ∧
      ∃ request, p.origin = some request ∧ request.Drives codec (drivenObject codec cluster yaml)

theorem applies_of_outbox {s : Desk Text} {p : Applicant Text} {o : Outcome} {t : Records Text}
    (h : t.outbox = s.records.outbox) : Applies codec s p o t := by
  intro cluster projectName yaml hgrown
  have hlength := congrArg List.length (h.symm.trans hgrown)
  simp at hlength

/-- Every stored deployment drives the object that its request names. -/
def Desk.Sound (codec : ManifestCodec Text) (s : Desk Text) : Prop :=
  ∀ k row, s.records.deployments.get k = some row →
    ∃ request, s.origins k = some request ∧ request.Drives codec (row.object codec)

/-- What a handler relies on survives: deployments' keys and their requests. -/
structure Desk.Grows (s t : Desk Text) : Prop where
  next : s.records.deployments.next ≤ t.records.deployments.next
  origins : ∀ k < s.records.deployments.next, t.origins k = s.origins k

/-- Deployments stay apart while each drives what it drove before. -/
theorem Desk.Apart.of_same {s t : Desk Text} (hs : s.Apart codec)
    (h : ∀ k row, t.records.deployments.get k = some row →
      ∃ old, s.records.deployments.get k = some old ∧ old.object codec = row.object codec) :
    t.Apart codec := by
  intro k₁ k₂ row₁ row₂ hne hrow₁ hrow₂
  obtain ⟨old₁, hold₁, hsame₁⟩ := h k₁ row₁ hrow₁
  obtain ⟨old₂, hold₂, hsame₂⟩ := h k₂ row₂ hrow₂
  rw [← hsame₁, ← hsame₂]
  exact hs k₁ k₂ old₁ old₂ hne hold₁ hold₂

/-- A deployment of an object that no stored one drives joins them. -/
theorem Desk.Apart.add {s t : Desk Text} {row : Deployment Text} (hs : s.Apart codec)
    (ht : t.records.deployments = s.records.deployments.add row)
    (hrow : (row.object codec).isSome = true)
    (hfree : ∀ k other, s.records.deployments.get k = some other →
      (other.object codec).isSome = true ∧ other.object codec ≠ row.object codec) :
    t.Apart codec := by
  obtain ⟨object, hobject⟩ := Option.isSome_iff_exists.mp hrow
  intro k₁ k₂ row₁ row₂ hne hrow₁ hrow₂
  rw [ht, Table.get_add] at hrow₁ hrow₂
  split at hrow₁
  · next hk₁ =>
    obtain rfl := Option.some.inj hrow₁
    rw [if_neg (hk₁ ▸ hne.symm)] at hrow₂
    obtain ⟨hsome, hother⟩ := hfree k₂ row₂ hrow₂
    obtain ⟨other, hother'⟩ := Option.isSome_iff_exists.mp hsome
    rw [hother', hobject] at hother
    exact ⟨object, other, hobject, hother', fun h ↦ hother (congrArg some h.symm)⟩
  · next hk₁ =>
    split at hrow₂
    · obtain rfl := Option.some.inj hrow₂
      obtain ⟨hsome, hother⟩ := hfree k₁ row₁ hrow₁
      obtain ⟨other, hother'⟩ := Option.isSome_iff_exists.mp hsome
      rw [hother', hobject] at hother
      exact ⟨other, object, hother', hobject, fun h ↦ hother (congrArg some h)⟩
    · exact hs k₁ k₂ row₁ row₂ hne hrow₁ hrow₂

/-- A step that adds no deployment keeps what holds when it rewrites one only for the request that
the deployment was made for. -/
theorem Desk.after_kept {s : Desk Text} {p : Applicant Text} {t : Records Text}
    (hs : s.Sound codec) (hapart : s.Apart codec)
    (hnext : t.deployments.next = s.records.deployments.next)
    (hrows : ∀ k row, t.deployments.get k = some row →
      ∃ old, s.records.deployments.get k = some old ∧ (row = old ∨
        ∃ request, s.origins k = some request ∧ request.Drives codec (row.object codec))) :
    (s.after p.origin t).Sound codec ∧ (s.after p.origin t).Apart codec ∧
      s.Grows (s.after p.origin t) := by
  have ho : (s.after p.origin t).origins = s.origins := by
    rw [Desk.after, if_neg (by omega)]
  refine ⟨fun k row hrow ↦ ?_, hapart.of_same fun k row hrow ↦ ?_, ⟨hnext.ge, fun _ _ ↦ by rw [ho]⟩⟩
  · rw [ho]
    obtain ⟨old, hold, rfl | hnamed⟩ := hrows k row hrow
    · exact hs k row hold
    · exact hnamed
  · obtain ⟨old, hold, rfl | ⟨request, horigin, hdrives⟩⟩ := hrows k row hrow
    · exact ⟨row, hold, rfl⟩
    · -- the rewritten row is still the one of its request
      obtain ⟨request', horigin', hdrives'⟩ := hs k old hold
      obtain rfl := Option.some.inj (horigin.symm.trans horigin')
      exact ⟨old, hold, hdrives'.2.trans hdrives.2.symm⟩

/-- A step that adds the deployment of its request keeps what holds when no stored deployment was
made for a request that names the same object. -/
theorem Desk.after_added {s : Desk Text} {p : Applicant Text} {o : Outcome} {t : Records Text}
    {request : DeploymentOrigin Text} {row : Deployment Text} (hs : s.Sound codec)
    (hapart : s.Apart codec) (hfree : p.NamesFree codec s o) (horigin : p.origin = some request)
    (hcommits : p.commits o = true) (hown : p.own = none)
    (hd : t.deployments = s.records.deployments.add row)
    (hdrives : request.Drives codec (row.object codec)) :
    (s.after p.origin t).Sound codec ∧ (s.after p.origin t).Apart codec ∧
      s.Grows (s.after p.origin t) := by
  have hlt : s.records.deployments.next < t.deployments.next := by
    rw [hd, Table.next_add]
    exact Nat.lt_succ_self _
  have ho : (s.after p.origin t).origins =
      Function.update s.origins s.records.deployments.next p.origin := by
    rw [Desk.after, if_pos hlt]
  refine ⟨fun k other hother ↦ ?_, hapart.add hd hdrives.1 fun k other hother ↦ ?_,
    ⟨Nat.le_of_lt hlt, fun k hk ↦ ?_⟩⟩
  · have hget : t.deployments.get k = some other := hother
    rw [hd, Table.get_add] at hget
    rw [ho, Function.update_apply]
    split at hget
    · next hk =>
      obtain rfl := Option.some.inj hget
      exact ⟨request, by rw [if_pos hk, horigin], hdrives⟩
    · next hk =>
      rw [if_neg hk]
      exact hs k other hget
  · obtain ⟨request', horigin', hdrives'⟩ := hs k other hother
    have hapart' := hfree hcommits request horigin k (Table.lt_next_of_get hother)
      (by rw [hother]; rfl) (by rw [hown]; exact nofun) request' horigin'
    exact ⟨hdrives'.1, by rwa [hdrives'.2, hdrives.2]⟩
  · rw [ho, Function.update_of_ne (Nat.ne_of_lt hk)]

theorem Desk.after_keeps {s : Desk Text} {p : Applicant Text} {o : Outcome} {t : Records Text}
    (hs : s.Sound codec) (hapart : s.Apart codec) (hfree : p.NamesFree codec s o)
    (h : Makes codec s p o t) :
    (s.after p.origin t).Sound codec ∧ (s.after p.origin t).Apart codec ∧
      s.Grows (s.after p.origin t) := by
  rcases h with hd | ⟨q, hd⟩ | ⟨request, row, horigin, hcommits, hown, hd, hdrives⟩ |
    ⟨id, request, row, horigin, hd, hdrives⟩
  · refine Desk.after_kept hs hapart (by rw [hd]) fun k row hrow ↦ ?_
    exact ⟨row, hd ▸ hrow, .inl rfl⟩
  · refine Desk.after_kept hs hapart (by rw [hd, Table.next_deleteWhere]) fun k row hrow ↦ ?_
    rw [hd] at hrow
    exact ⟨row, (Table.get_deleteWhere.mp hrow).1, .inl rfl⟩
  · exact Desk.after_added hs hapart hfree horigin hcommits hown hd hdrives
  · refine Desk.after_kept hs hapart (by rw [hd, Table.next_set]) fun k other hother ↦ ?_
    rw [hd, Table.get_set] at hother
    split at hother
    · next hk =>
      obtain ⟨old, hold, rfl⟩ := Option.map_eq_some_iff.mp hother
      exact ⟨old, hk ▸ hold, .inr ⟨request, hk ▸ horigin, hdrives⟩⟩
    · exact ⟨other, hother, .inl rfl⟩

/-- A claimed import adds the deployment of its request, or rolls it back, and applies its
Project. -/
theorem ImportStage.makes {s : Desk Text} {t : Records Text} {o : Outcome} {given : ImportRequest}
    {job : ImportJob} {claimedAt : Timestamp} {stage : ImportStage Text} {p' : ImportPhase Text}
    (hcluster : job.request.clusterId = given.clusterId)
    (hstage : stage.Named codec (importName given.projectName job.repository))
    (hheartbeat : o.heartbeat = false)
    (h : stage.advance codec s.records o.fault job claimedAt = (t, p')) :
    Makes codec s (.importing given (.running job claimedAt stage)) o t ∧
      Applies codec s (.importing given (.running job claimedAt stage)) o t := by
  cases stage with
  | mintToken spec =>
    simp only [advance] at h
    split at h <;> cases h <;> exact ⟨.inl rfl, applies_of_outbox rfl⟩
  | sendCredentials spec manifest secretName token =>
    simp only [advance] at h
    split at h <;> cases h
    · refine ⟨.inl rfl, fun cluster projectName yaml hgrown ↦ ?_⟩
      have hlast := List.append_cancel_left hgrown
      simp at hlast
    · exact ⟨.inl rfl, applies_of_outbox rfl⟩
    · exact ⟨.inl rfl, applies_of_outbox rfl⟩
  | sendApply spec manifest =>
    obtain ⟨hname, hns, hread⟩ := hstage
    simp only [advance] at h
    split at h
    · next hfault =>
      cases h
      refine ⟨.inl rfl, fun cluster projectName yaml hgrown ↦ ?_⟩
      have hlast := List.append_cancel_left hgrown
      simp only [List.cons.injEq, AgentCommand.applyProject.injEq, and_true] at hlast
      obtain ⟨rfl, -, rfl⟩ := hlast
      refine ⟨by simp [Applicant.commits, hfault, hheartbeat], _, rfl, ?_⟩
      rw [hcluster]
      exact drives_imported hname hns hread
    · cases h
      exact ⟨.inl rfl, applies_of_outbox rfl⟩
    · cases h
      exact ⟨.inl rfl, applies_of_outbox rfl⟩
  | createDeployment spec manifest =>
    obtain ⟨hname, hns, hread⟩ := hstage
    simp only [advance] at h
    split at h
    · next hfault hcreate =>
      cases h
      obtain ⟨rfl, -⟩ := Records.createDeployment_eq_some hcreate
      have hobject : (importedDeployment job spec manifest).object codec =
          drivenObject codec given.clusterId manifest := by
        rw [← hcluster]
        rfl
      refine ⟨.inr (.inr (.inl ⟨_, _, rfl, ?_, rfl, rfl, ?_⟩)), applies_of_outbox rfl⟩
      · simp [Applicant.commits, hfault, hheartbeat]
      · rw [hobject]
        exact drives_imported hname hns hread
    · cases h
      exact ⟨.inl rfl, applies_of_outbox rfl⟩
  | createProject spec deployment =>
    simp only [advance] at h
    split at h
    · next hcreate =>
      cases h
      rw [Records.createProject_eq_some hcreate]
      exact ⟨.inl rfl, applies_of_outbox rfl⟩
    · cases h
      exact ⟨.inl rfl, applies_of_outbox rfl⟩
  | rollBack deployment error =>
    simp only [advance] at h
    split at h <;> cases h
    · exact ⟨.inl rfl, applies_of_outbox rfl⟩
    · exact ⟨.inr (.inl ⟨fun k _ ↦ k = deployment, rfl⟩), applies_of_outbox rfl⟩

theorem ImportPhase.makes {s : Desk Text} {t : Records Text} {o : Outcome}
    {p p' : ImportPhase Text} {given : ImportRequest} (hp : p.Named codec given)
    (h : p.advance codec s.records o = some (t, p')) :
    Makes codec s (.importing given p) o t ∧ Applies codec s (.importing given p) o t := by
  have hleft {q : Applicant Text} {id : Nat} {filters : GitHubRepository → Bool}
      {assign : GitHubRepository → GitHubRepository} {u : Records Text} {n : Nat}
      (hu : s.records.updateRepositoryFields id filters assign = (u, n)) :
      Makes codec s q o u ∧ Applies codec s q o u := by
    obtain rfl : (s.records.updateRepositoryFields id filters assign).1 = u := congrArg Prod.fst hu
    rw [Records.updateRepositoryFields_frame]
    exact ⟨.inl rfl, applies_of_outbox rfl⟩
  rcases ImportPhase.advance_cases h with ⟨rfl, -, -⟩ | ⟨job, claimedAt, stage, rfl, hstage⟩ |
    ⟨job, -, -, rfl⟩ | ⟨job, startedAt, -, -, -, hclaim⟩ |
    ⟨job, claimedAt, renewedAt, stage, -, -, hrenew⟩ | ⟨job, claimedAt, error, -, -, rfl⟩
  · exact ⟨.inl rfl, applies_of_outbox rfl⟩
  · cases hheartbeat : o.heartbeat with
    | true =>
      simp only [advance, hheartbeat, if_true, Option.some.injEq] at h
      cases h
      exact ⟨.inl rfl, applies_of_outbox rfl⟩
    | false => exact ImportStage.makes hp.1 hp.2 hheartbeat hstage
  · exact hleft rfl
  · exact hleft hclaim
  · exact hleft hrenew
  · exact hleft rfl

/-- The row is that of the request, and under the id once it is stored. -/
def SubmissionPhase.Named (codec : ManifestCodec Text) (s : Desk Text) (given : Submission Text) :
    SubmissionPhase Text → Prop
  | .loadCluster input => input = given
  | .createDeployment cluster row => row.cluster = cluster.1 ∧
      (DeploymentOrigin.submitted given row.cluster).Drives codec (row.object codec)
  | .sendApply cluster id row => (row.cluster = cluster.1 ∧
      (DeploymentOrigin.submitted given row.cluster).Drives codec (row.object codec)) ∧
      id < s.records.deployments.next ∧ s.origins id = some (.submitted given row.cluster)
  | .markError id row _ =>
      (DeploymentOrigin.submitted given row.cluster).Drives codec (row.object codec) ∧
      id < s.records.deployments.next ∧ s.origins id = some (.submitted given row.cluster)
  | .returned _ _ => True

theorem SubmissionPhase.Named.mono {s t : Desk Text} {given : Submission Text}
    {p : SubmissionPhase Text} (hp : p.Named codec s given) (h : s.Grows t) :
    p.Named codec t given := by
  cases p with
  | sendApply cluster id row | markError id row message =>
    exact ⟨hp.1, Nat.lt_of_lt_of_le hp.2.1 h.next, (h.origins id hp.2.1).trans hp.2.2⟩
  | _ => exact hp

theorem deploymentErrorResponse_named {s : Desk Text} {given : Submission Text}
    (e : SubmitProjectDeploymentError) :
    (deploymentErrorResponse e : SubmissionPhase Text).Named codec s given := by
  cases e <;> trivial

theorem SubmissionPhase.makes {specErrors : Manifest → List String} {s : Desk Text}
    {t : Records Text} {o : Outcome} {p p' : SubmissionPhase Text} {given : Submission Text}
    (hp : p.Named codec s given) (h : p.advance codec specErrors s.records o = some (t, p')) :
    Makes codec s (.submitting given p) o t ∧ Applies codec s (.submitting given p) o t ∧
      p'.Named codec (s.after (Applicant.submitting given p).origin t) given := by
  have hread {u : Records Text} {q : SubmissionPhase Text}
      (hu : u.deployments = s.records.deployments) (ho : u.outbox = s.records.outbox)
      (hq : q.Named codec (s.after (Applicant.submitting given p).origin u) given) :
      Makes codec s (.submitting given p) o u ∧ Applies codec s (.submitting given p) o u ∧
        q.Named codec (s.after (Applicant.submitting given p).origin u) given :=
    ⟨.inl hu, applies_of_outbox ho, hq⟩
  cases p with
  | loadCluster input =>
    simp only [advance, Option.some.injEq] at h
    split at h
    · cases h
      exact hread rfl rfl trivial
    · split at h
      · cases h
        exact hread rfl rfl trivial
      · split at h <;> cases h
        · exact hread rfl rfl (deploymentErrorResponse_named _)
        · next row hrow =>
          have hgiven : input = given := hp
          exact hread rfl rfl (hgiven ▸ drives_submitted hrow)
  | createDeployment cluster row =>
    obtain ⟨hcluster, hdrives⟩ := hp
    simp only [advance, Option.some.injEq] at h
    split at h
    · next u id hfault hcreate =>
      cases h
      obtain ⟨rfl, rfl⟩ := Records.createDeployment_eq_some hcreate
      have horigin : (Applicant.submitting given (.createDeployment cluster row)).origin =
          some (.submitted given row.cluster) := by
        rw [hcluster]
        rfl
      refine ⟨.inr (.inr (.inl ⟨_, row, horigin, ?_, rfl, rfl, hdrives⟩)), applies_of_outbox rfl,
        ⟨hcluster, hdrives⟩, Nat.lt_succ_self _, ?_⟩
      · simp [Applicant.commits, hfault]
      · rw [horigin]
        simp [Desk.after]
    · cases h
      exact hread rfl rfl (deploymentErrorResponse_named _)
  | sendApply cluster id row =>
    obtain ⟨⟨hcluster, hdrives⟩, hid, hstored⟩ := hp
    simp only [advance, Option.some.injEq] at h
    split at h
    · cases h
      exact hread rfl rfl (deploymentErrorResponse_named _)
    · next text hyaml hfault =>
      cases h
      refine ⟨.inl rfl, fun cluster' projectName yaml' hgrown ↦ ?_, trivial⟩
      have hlast := List.append_cancel_left hgrown
      simp only [List.cons.injEq, AgentCommand.applyProject.injEq, and_true] at hlast
      obtain ⟨rfl, -, rfl⟩ := hlast
      have hobject : row.object codec = drivenObject codec cluster.1 text := by
        rw [Deployment.object, hyaml, hcluster]
        rfl
      refine ⟨by simp [Applicant.commits, hfault], .submitted given cluster.1, rfl, ?_⟩
      rwa [← hobject, ← hcluster]
    · cases h
      refine hread rfl rfl ⟨hdrives, hid, ?_⟩
      simpa [Desk.after] using hstored
  | markError id row message =>
    obtain ⟨hdrives, hid, hstored⟩ := hp
    cases h
    split
    · exact hread rfl rfl (deploymentErrorResponse_named _)
    · exact ⟨.inr (.inr (.inr ⟨id, _, row, hstored, rfl, hdrives⟩)), applies_of_outbox rfl,
        deploymentErrorResponse_named _⟩
  | returned code result => cases h

/-! ## Every run -/

/-- The handler's names are those of its request. -/
def Applicant.Sound (codec : ManifestCodec Text) (s : Desk Text) : Applicant Text → Prop
  | .importing request phase => phase.Named codec request
  | .submitting input phase => phase.Named codec s input

theorem Applicant.Sound.mono {s t : Desk Text} {p : Applicant Text} (hp : p.Sound codec s)
    (h : s.Grows t) : p.Sound codec t := by
  cases p with
  | importing request phase => exact hp
  | submitting input phase => exact SubmissionPhase.Named.mono hp h

/-- The deployments drive what their requests name, and no two drive one object. -/
structure Desk.Orderly (codec : ManifestCodec Text) (s : Desk Text) : Prop where
  sound : s.Sound codec
  apart : s.Apart codec

theorem Applicant.advance_keeps (hcodec : codec.RoundTrips)
    {specErrors : Manifest → List String} {s t : Desk Text} {p p' : Applicant Text} {o : Outcome}
    (hs : s.Orderly codec) (hp : p.Sound codec s) (hfree : p.NamesFree codec s o)
    (h : p.advance codec specErrors s o = some (t, p')) :
    t.Orderly codec ∧ p'.Sound codec t ∧ s.Grows t ∧ Applies codec s p o t.records := by
  cases p with
  | importing request phase =>
    obtain ⟨⟨u, q⟩, hu, he⟩ := Option.map_eq_some_iff.mp h
    cases he
    obtain ⟨hmakes, happlies⟩ := ImportPhase.makes hp hu
    obtain ⟨hsound, hapart, hgrows⟩ := Desk.after_keeps hs.sound hs.apart hfree hmakes
    exact ⟨⟨hsound, hapart⟩, ImportPhase.advance_named hcodec hp hu, hgrows, happlies⟩
  | submitting input phase =>
    obtain ⟨⟨u, q⟩, hu, he⟩ := Option.map_eq_some_iff.mp h
    cases he
    obtain ⟨hmakes, happlies, hnamed⟩ := SubmissionPhase.makes hp hu
    obtain ⟨hsound, hapart, hgrows⟩ := Desk.after_keeps hs.sound hs.apart hfree hmakes
    exact ⟨⟨hsound, hapart⟩, hnamed, hgrows, happlies⟩

theorem DeskEvent.occur_keeps {s t : Desk Text} {e : DeskEvent Text} (hs : s.Orderly codec)
    (h : e.occur s = some t) : t.Orderly codec ∧ s.Grows t := by
  cases e with
  | change records =>
    cases h
    exact ⟨⟨hs.sound, hs.apart⟩, Nat.le_refl _, fun _ _ ↦ rfl⟩
  | delete p =>
    cases h
    exact ⟨⟨fun k row hrow ↦ hs.sound k row (Table.get_deleteWhere.mp hrow).1,
      hs.apart.of_same fun k row hrow ↦ ⟨row, (Table.get_deleteWhere.mp hrow).1, rfl⟩⟩,
      Nat.le_refl _, fun _ _ ↦ rfl⟩

theorem desk_keeps (hcodec : codec.RoundTrips) (specErrors : Manifest → List String) :
    Pool.Keeps Applicant.start (Applicant.advance codec specErrors) DeskEvent.occur
      (Desk.Orderly codec) (fun s p ↦ p.Sound codec s) (fun _ _ ↦ True)
      (NamesFreeObject codec) where
  symm := fun _ _ h ↦ h
  start := by
    intro s r _ _
    refine ⟨?_, fun _ _ ↦ trivial⟩
    cases r with
    | inl request => exact ImportPhase.start_named codec request
    | inr input => rfl
  advance := by
    intro s i p o t p' hs hp hc h
    obtain ⟨ht, hp', hgrows, -⟩ :=
      Applicant.advance_keeps hcodec hs.store (hs.procs p (List.mem_of_getElem? hp)) (hc p hp) h
    exact ⟨ht, hp', fun j q _ hq ↦ ⟨(hs.procs q (List.mem_of_getElem? hq)).mono hgrows, trivial⟩⟩
  environment := by
    intro s e t hs _ h
    obtain ⟨ht, hgrows⟩ := DeskEvent.occur_keeps hs.store h
    exact ⟨ht, fun q hq ↦ (hs.procs q hq).mono hgrows⟩

/-- A Project queued by a handler that names a free object overwrites nobody's. -/
theorem overwritesNone_of_applies {s : Desk Text} {p : Applicant Text} {o : Outcome}
    {t : Records Text} {cluster : Nat} {projectName : String} {yaml : Text} (hs : s.Sound codec)
    (hfree : p.NamesFree codec s o) (h : Applies codec s p o t)
    (hgrown : t.outbox = s.records.outbox ++ [.applyProject cluster projectName yaml]) :
    (drivenObject codec cluster yaml).isSome = true ∧
      ∀ k row, s.records.deployments.get k = some row → p.own ≠ some k →
        row.object codec ≠ drivenObject codec cluster yaml := by
  obtain ⟨hcommits, request, horigin, hdrives⟩ := h cluster projectName yaml hgrown
  refine ⟨hdrives.1, fun k row hrow hown ↦ ?_⟩
  obtain ⟨other, hother, hdrives'⟩ := hs k row hrow
  rw [hdrives.2, hdrives'.2]
  exact hfree hcommits request horigin k (Table.lt_next_of_get hrow) (by rw [hrow]; rfl) hown other
    hother

/-- The records with no deployment yet. -/
def Desk.opening (records : Records Text) : Desk Text :=
  ⟨{ records with deployments := .empty }, fun _ ↦ none⟩

/-- In every interleaving of imports and submissions in which each handler that commits names an
object of which no other stored deployment's request speaks, no two deployments of one cluster have
manifests of one object, and no queued Project overwrites that of another deployment. -/
theorem deployments_drive_apart (hcodec : codec.RoundTrips) (specErrors : Manifest → List String)
    (init : Records Text) {tr : List (DeskTransition Text)} {s : DeskState Text}
    (h : Run (deskStep codec specErrors) ⟨.opening init, []⟩ tr s)
    (hfree : ∀ x ∈ tr, NamesFreeObject codec x.before x.action) :
    s.store.Apart codec ∧ ∀ x ∈ tr, OverwritesNone codec x := by
  have hinit : (Desk.opening init).Orderly codec :=
    ⟨fun k row hrow ↦ (nomatch hrow), fun k₁ k₂ row₁ row₂ _ hrow₁ ↦ (nomatch hrow₁)⟩
  obtain ⟨hfinal, hall⟩ := (desk_keeps hcodec specErrors).run hinit h hfree
  refine ⟨hfinal.store.apart, ?_⟩
  intro x hx i o p cluster projectName yaml haction hp hgrown
  obtain ⟨hbefore, hstep, -⟩ := hall x hx
  have hcondition := hfree x hx
  rw [haction] at hstep hcondition
  obtain ⟨q, t, q', hq, ht, hafter⟩ := Pool.step_advance hstep
  obtain rfl := Option.some.inj (hp.symm.trans hq)
  rw [hafter] at hgrown
  exact overwritesNone_of_applies hbefore.store.sound (hcondition p hp)
    (Applicant.advance_keeps hcodec hbefore.store
      (hbefore.procs p (List.mem_of_getElem? hp)) (hcondition p hp) ht).2.2.2 hgrown

/-! ## Two imports -/

instance (codec : ManifestCodec Text) (s : Desk Text) (p : Applicant Text) (o : Outcome) :
    Decidable (p.NamesFree codec s o) :=
  inferInstanceAs (Decidable (_ = true → ∀ request ∈ p.origin, ∀ k < _, _ = true → _ → _))

instance (codec : ManifestCodec Text) (s : DeskState Text) (a : DeskAction Text) :
    Decidable (NamesFreeObject codec s a) :=
  match a with
  | .advance i o => inferInstanceAs (Decidable (∀ p ∈ s.procs[i]?, p.NamesFree codec s.store o))
  | .start _ => inferInstanceAs (Decidable True)
  | .cancel _ => inferInstanceAs (Decidable True)
  | .environment _ => inferInstanceAs (Decidable True)

/-- One cluster and two repositories of an organization. -/
def deskRecords : Records Manifest where
  installations := Table.empty.add ⟨1, 70, 7, "acme", "Organization", "active"⟩
  repositories := (Table.empty.add
    ⟨0, 500, "acme/My.App", "acme", "My.App", "main", false, false, none, 0⟩).add
    ⟨0, 501, "acme/my_app", "acme", "my_app", "main", false, false, none, 0⟩
  projects := .empty
  deployments := .empty
  clusters := Table.empty.add ⟨1, "prod", "https://k8s", true⟩
  outbox := []
  now := 0

/-- The command line tool deploys the project web. -/
def deployWeb : ImportRequest ⊕ Submission Manifest :=
  .inr ⟨1, "prod", "web", some "default", "registry/web:1",
    some ⟨"web", "default", ⟨none, none, none, none⟩, { image := "registry/web:1" }, {}⟩⟩

/-- A repository is imported under its default name. -/
def importUntyped (repositoryId : Nat) (registry : String) : ImportRequest ⊕ Submission Manifest :=
  .inl ⟨1, repositoryId, 0, "", registry⟩

/-- Two requests, one after the other. -/
def twoRequests (first second : ImportRequest ⊕ Submission Manifest) (n m : Nat) :
    List (DeskAction Manifest) :=
  .start first :: List.replicate n (.advance 0 .success) ++
    .start second :: List.replicate m (.advance 1 .success)

/-- The request was answered with success. -/
def Applicant.succeeded : Applicant Text → Bool
  | .importing _ (.returned (.ok _)) => true
  | .submitting _ (.returned _ (.ok _)) => true
  | _ => false

/-- What the deployment under a key drives, as plain text manifests have it. -/
def drivenBy (s : DeskState Manifest) (k : Nat) : Option ClusterObject :=
  (s.store.records.deployments.get k).bind fun row ↦ row.object plainCodec

/-- The imports of `acme/My.App` and `acme/my_app` both succeed and drive one object. -/
theorem imports_share_object : ∃ tr s,
    Run (deskStep plainCodec fun _ ↦ []) ⟨.opening deskRecords, []⟩ tr s ∧
    (∀ p ∈ s.procs, p.succeeded = true) ∧ drivenBy s 0 = some ⟨0, "default", "my-app"⟩ ∧
    drivenBy s 1 = some ⟨0, "default", "my-app"⟩ ∧ ¬ s.store.Apart plainCodec := by
  have hstate : (execute (deskStep plainCodec fun _ ↦ []) ⟨.opening deskRecords, []⟩
      (twoRequests (importUntyped 0 "registry/my-app") (importUntyped 1 "registry/other") 11
        11)).map (fun s ↦ (s.procs.all Applicant.succeeded, drivenBy s 0, drivenBy s 1)) =
      some (true, some ⟨0, "default", "my-app"⟩, some ⟨0, "default", "my-app"⟩) := by decide
  obtain ⟨s, hs, hend⟩ := Option.map_eq_some_iff.mp hstate
  obtain ⟨hall, h₀, h₁⟩ : _ ∧ _ ∧ _ := by simpa only [Prod.mk.injEq] using hend
  refine ⟨_, s, Run.of_execute _ hs, List.all_eq_true.mp hall, h₀, h₁, fun hapart ↦ ?_⟩
  obtain ⟨row₀, hrow₀, hobject₀⟩ := Option.bind_eq_some_iff.mp h₀
  obtain ⟨row₁, hrow₁, hobject₁⟩ := Option.bind_eq_some_iff.mp h₁
  obtain ⟨object₀, object₁, heq₀, heq₁, hne⟩ := hapart 0 1 row₀ row₁ (by decide) hrow₀ hrow₁
  exact hne (Option.some.inj
    (((heq₀.symm.trans hobject₀).trans hobject₁.symm).trans heq₁))

/-- A submission and an import on one cluster drive different objects. -/
theorem deployments_drive_apart_web : ∃ tr s,
    Run (deskStep plainCodec fun _ ↦ []) ⟨.opening deskRecords, []⟩ tr s ∧
    drivenBy s 0 = some ⟨0, "default", "web"⟩ ∧ drivenBy s 1 = some ⟨0, "default", "my-app"⟩ ∧
    s.store.Apart plainCodec ∧ ∀ x ∈ tr, OverwritesNone plainCodec x := by
  let actions := twoRequests deployWeb (importUntyped 0 "registry/my-app") 3 11
  have hstate : (execute (deskStep plainCodec fun _ ↦ []) ⟨.opening deskRecords, []⟩
      actions).map (fun s ↦ (drivenBy s 0, drivenBy s 1)) =
      some (some ⟨0, "default", "web"⟩, some ⟨0, "default", "my-app"⟩) := by decide
  obtain ⟨s, hs, hend⟩ := Option.map_eq_some_iff.mp hstate
  have hrun := Run.of_execute _ hs
  have hfree : ∀ x ∈ transitions (deskStep plainCodec fun _ ↦ []) ⟨.opening deskRecords, []⟩
      actions, NamesFreeObject plainCodec x.before x.action := by decide
  obtain ⟨hweb, happ⟩ := Prod.mk.inj hend
  exact ⟨_, s, hrun, hweb, happ,
    deployments_drive_apart plainCodec_roundTrips (fun _ ↦ []) deskRecords hrun hfree⟩

end ReinhardtCloud.Dashboard

import ReinhardtCloud.Base.ServerSideApply
import ReinhardtCloud.Dashboard.WebhookReading

/-!
# Webhooks and the operator on one live Project

Library `Dashboard`. `github_webhook` stores the edited manifest and sends all of it to the
cluster, where it is applied by force (`server_urls.rs:178–273`,
`reinhardt-cloud-k8s/src/resources.rs:30–49`); the operator patches the image of a finished
production build and clears the annotations of the same object. A delivered manifest brings back
the image of the import. The image survives exactly as long as no manifest is delivered after it.
-/

namespace ReinhardtCloud.Dashboard

open ReinhardtCloud.Base ReinhardtCloud.Operator

variable {Text : Type}

/-! ## The fields both sides write -/

/-- The fields of a Project that a manifest or the operator changes. The rest of the spec is the
manifest's from the start and never edited. -/
inductive ProjectField where
  | image
  | buildTrigger
  | previewAction
  | prNumber
  | prBranch
  deriving DecidableEq

/-- The field managers of the two writers. -/
inductive FieldManager where
  | dashboard
  | operator
  deriving DecidableEq

instance : Fintype FieldManager := ⟨{.dashboard, .operator}, fun k ↦ by cases k <;> decide⟩

/-- The value of each field. -/
def fieldValue (spec : ProjectSpec) (a : Annotations) : ProjectField → Option String
  | .image => some spec.image
  | .buildTrigger => a.buildTrigger
  | .previewAction => a.previewAction
  | .prNumber => a.prNumber
  | .prBranch => a.prBranch

/-- Write the fields back; the image is a required field. -/
def withFields (app : Project) (value : ProjectField → Option String) : Project :=
  { app with
    annotations := ⟨value .buildTrigger, value .previewAction, value .prNumber, value .prBranch⟩
    spec := { app.spec with image := (value .image).getD app.spec.image } }

/-- The fields a request of the operator patches. -/
def patchedFields : BuildCall → ProjectField → Option (Option String)
  | .patchProjectImage image, .image => some (some image)
  | .clearBuildAnnotations, .buildTrigger => some none
  | .clearBuildAnnotations, .previewAction => some none
  | .clearBuildAnnotations, .prNumber => some none
  | .clearBuildAnnotations, .prBranch => some none
  | _, _ => none

/-! ## The machine -/

/-- The cluster with the owners of the Project's fields, the manifest stored by the dashboard and
the `ApplyProject` commands on their way. -/
structure WebhookStore (Text : Type) where
  cluster : BuildStore
  owns : FieldManager → ProjectField → Bool
  stored : Text
  sent : List (WebhookAction × Text)

namespace WebhookStore

/-- The live Project as fields with managers. -/
def managed (s : WebhookStore Text) : Managed ProjectField FieldManager String :=
  ⟨fieldValue s.cluster.project.spec s.cluster.project.annotations, s.owns⟩

/-- A request of the operator, with the change of ownership it brings. -/
def serve (s : WebhookStore Text) (fault : Bool) (c : BuildCall) :
    WebhookStore Text × Except ApiError c.Result :=
  ({ s with
      cluster := (s.cluster.serve fault c).1
      owns := if fault then s.owns else (s.managed.patch .operator (patchedFields c)).owns },
    (s.cluster.serve fault c).2)

/-- A command left the queue. -/
def dropSent (s : WebhookStore Text) (i : Nat) : WebhookStore Text :=
  { s with sent := s.sent.eraseIdx i }

/-- `server_side_apply_project_yaml`, `resources.rs:14–49`, of a parsed manifest. -/
def applyManifest (s : WebhookStore Text) (m : Manifest) : WebhookStore Text :=
  if m.name = "" ∨ (m.spec.source.elim [] sourceSpecErrors) ≠ [] then s
  else
    let o := s.managed.apply .dashboard (fieldValue m.spec m.annotations)
    { s with
      cluster := { s.cluster with project := withFields s.cluster.project o.value }
      owns := o.owns }

theorem stored_applyManifest (s : WebhookStore Text) (m : Manifest) :
    (s.applyManifest m).stored = s.stored := by
  unfold applyManifest
  split <;> rfl

theorem sent_applyManifest (s : WebhookStore Text) (m : Manifest) :
    (s.applyManifest m).sent = s.sent := by
  unfold applyManifest
  split <;> rfl

/-- An applied manifest sets the fields it sends. -/
theorem fieldValue_applyManifest (s : WebhookStore Text) (m : Manifest) :
    s.applyManifest m = s ∨
      fieldValue (s.applyManifest m).cluster.project.spec
          (s.applyManifest m).cluster.project.annotations =
        (s.managed.apply .dashboard (fieldValue m.spec m.annotations)).value := by
  unfold applyManifest
  split
  · exact .inl rfl
  · refine .inr (funext fun f ↦ ?_)
    cases f with
    | image => rfl
    | _ => rfl

end WebhookStore

/-- A webhook arrives at the dashboard, a command it sent reaches the cluster, or the Job
controller reports on a Kaniko or a migration Job. A command that is never delivered was lost. -/
inductive WebhookEvent where
  | receive (action : WebhookAction)
  | deliver (i : Nat)
  | reportJob (name : String) (status : JobStatus)
  | reportMigration (name : String) (status : JobStatus)
  deriving DecidableEq

/-- One event. `productionBranch` is the one stored at the import. -/
def webhookEvent (codec : ManifestCodec Text) (productionBranch : String) (s : WebhookStore Text) :
    WebhookEvent → Option (WebhookStore Text)
  | .receive action =>
    match applyWebhookActionToManifest codec s.stored action productionBranch with
    | .ok (some text) => some { s with stored := text, sent := s.sent ++ [(action, text)] }
    | _ => some s
  | .deliver i =>
    s.sent[i]?.map fun command ↦
      match codec.ofText command.2 with
      | .ok m => (s.dropSent i).applyManifest m
      | .error _ => s.dropSent i
  | .reportJob name status =>
    (buildEvent s.cluster (.reportJob name status)).map fun cluster ↦ { s with cluster := cluster }
  | .reportMigration name status =>
    (buildEvent s.cluster (.reportMigration name status)).map fun cluster ↦
      { s with cluster := cluster }

/-- Webhooks interleaved with the requests of the operator's reconciles. -/
def webhookMachine (codec : ManifestCodec Text) (productionBranch : String) :=
  Solo.step WebhookStore.serve (webhookEvent codec productionBranch)
    (fun s ↦ s.cluster.project) applyProject

/-- Right after an import: the manifest is stored and applied. -/
def importedStore (spec : GitHubImportSpec) (yaml : Text) (uid : Uid) : WebhookStore Text where
  cluster := ⟨(importedManifest spec).project uid none none, fun _ ↦ none, fun _ ↦ none,
    fun _ ↦ none, .empty, .none⟩
  owns k f := k = .dashboard && (f = .image || f = .buildTrigger)
  stored := yaml
  sent := []

/-- A state of the machine and its transitions. -/
abbrev WebhookState (Text : Type) := Solo (WebhookStore Text) Project (BuildProgram Unit)
abbrev WebhookTransition (Text : Type) :=
  Transition (WebhookState Text) (Turn WebhookEvent Bool)

/-- Requests other than the two patches leave spec and annotations alone. -/
theorem spec_annotations_perform {s : BuildStore} {c : BuildCall}
    (h : ∀ f, patchedFields c f = none) :
    (s.perform c).1.project.spec = s.project.spec ∧
      (s.perform c).1.project.annotations = s.project.annotations := by
  cases c with
  | patchProjectImage image => cases h .image
  | clearBuildAnnotations => cases h .buildTrigger
  | createJob job => simp only [BuildStore.perform]; split <;> exact ⟨rfl, rfl⟩
  | deleteJob name => simp only [BuildStore.perform]; split <;> exact ⟨rfl, rfl⟩
  | deletePreviewProject name => simp only [BuildStore.perform]; split <;> exact ⟨rfl, rfl⟩
  | applyWorkloads app =>
    exact ⟨(s.frame_applyWorkloads app).1.spec, (s.frame_applyWorkloads app).2.1⟩
  | _ => exact ⟨rfl, rfl⟩

/-- The operator's requests act on the managed fields as patches of their manager. -/
theorem managed_serve (s : WebhookStore Text) (c : BuildCall) :
    (s.serve false c).1.managed = s.managed.patch .operator (patchedFields c) := by
  have hvalue : fieldValue (s.cluster.perform c).1.project.spec
      (s.cluster.perform c).1.project.annotations =
      (s.managed.patch .operator (patchedFields c)).value := by
    funext f
    cases c with
    | patchProjectImage image => cases f <;> rfl
    | clearBuildAnnotations => cases f <;> rfl
    | _ =>
      rw [(spec_annotations_perform fun _ ↦ rfl).1, (spec_annotations_perform fun _ ↦ rfl).2]
      rfl
  exact congrArg₂ Managed.mk hvalue rfl

/-! ## What a run must keep -/

/-- `spec.image` of the live Project. -/
def liveImage (s : WebhookState Text) : String := s.store.cluster.project.spec.image

/-- The trigger of a production build that no reconcile has consumed yet. -/
def productionTrigger (s : WebhookState Text) : Option String :=
  if s.store.cluster.project.annotations.previewAction = none then
    s.store.cluster.project.annotations.buildTrigger
  else none

/-- The image of a succeeded production build that the operator writes: `patch_project_image`. -/
def imageWritten (x : WebhookTransition Text) : Option String :=
  match x.action, x.before.current with
  | .serve false, some (_, .call (.patchProjectImage image) _) => some image
  | _, _ => none

/-- The action and the manifest of the command that reaches the cluster. -/
def delivered (codec : ManifestCodec Text) (x : WebhookTransition Text) :
    Option (WebhookAction × Manifest) :=
  match x.action with
  | .interfere (.deliver i) => x.before.store.sent[i]?.bind fun command ↦
      (codec.ofText command.2).toOption.map fun m ↦ (command.1, m)
  | _ => none

/-- A written production image stays until the next one is written. -/
def ImageKept (tr : List (WebhookTransition Text)) (s : WebhookState Text) : Prop :=
  ∀ tr₁ x tr₂ image, tr = tr₁ ++ x :: tr₂ → imageWritten x = some image →
    liveImage s = image ∨ ∃ y ∈ tr₂, (imageWritten y).isSome

/-- The manifest of a pull request leaves the image and a waiting production trigger alone. -/
def PullRequestNeutral (codec : ManifestCodec Text) (x : WebhookTransition Text) : Prop :=
  ∀ command ∈ delivered codec x, command.1.isPreview = true →
    liveImage x.after = liveImage x.before ∧
      ∀ trigger ∈ productionTrigger x.before,
        x.after.store.cluster.project.annotations.buildTrigger = some trigger

/-- A manifest is delivered while the live image is still the one of the import, and that of a
pull request while no other production trigger waits. -/
def DeliveredInTime (codec : ManifestCodec Text) (spec : GitHubImportSpec)
    (x : WebhookTransition Text) : Prop :=
  ∀ command ∈ delivered codec x, liveImage x.before = s!"{spec.registry}:pending" ∧
    (command.1.isPreview = true → ∀ trigger ∈ productionTrigger x.before,
      command.2.annotations.buildTrigger = some trigger)

instance (codec : ManifestCodec Text) (spec : GitHubImportSpec) (x : WebhookTransition Text) :
    Decidable (DeliveredInTime codec spec x) :=
  inferInstanceAs
    (Decidable (∀ _ ∈ delivered codec x, _ ∧ (_ → ∀ _ ∈ productionTrigger x.before, _)))

/-- A text parses to the imported manifest but for its annotations. -/
def FromImport (codec : ManifestCodec Text) (spec : GitHubImportSpec) (text : Text) : Prop :=
  ∃ a, codec.ofText text = .ok { importedManifest spec with annotations := a }

/-- The stored text and all commands are edits of the imported manifest. -/
def EditsImport (codec : ManifestCodec Text) (spec : GitHubImportSpec) (s : WebhookState Text) :
    Prop :=
  FromImport codec spec s.store.stored ∧ ∀ command ∈ s.store.sent, FromImport codec spec command.2

section Steps

variable {codec : ManifestCodec Text} {spec : GitHubImportSpec}

theorem editsImport_step (hcodec : codec.RoundTrips) {s t : WebhookState Text}
    {a : Turn WebhookEvent Bool} (hs : EditsImport codec spec s)
    (ht : webhookMachine codec spec.branch s a = some t) : EditsImport codec spec t := by
  obtain ⟨hstored, hsent⟩ := hs
  cases a with
  | start =>
    obtain rfl := Option.some.inj ht
    exact ⟨hstored, hsent⟩
  | serve o =>
    simp only [webhookMachine, Solo.step] at ht
    split at ht
    · obtain rfl := Option.some.inj ht
      exact ⟨hstored, hsent⟩
    · cases ht
  | interfere e =>
    obtain ⟨u, hu, rfl⟩ := Option.map_eq_some_iff.mp ht
    cases e with
    | receive action =>
      obtain ⟨b, hb⟩ := hstored
      simp only [webhookEvent] at hu
      split at hu
      · next text htext =>
        obtain rfl := Option.some.inj hu
        have hnew : FromImport codec spec text := by
          cases hc : action.changes spec.branch with
          | true =>
            obtain ⟨text', htext', hparse⟩ :=
              applyWebhookActionToManifest_of_changes hcodec hb hc
            rw [htext] at htext'
            obtain rfl : text = text' := Option.some.inj (Except.ok.inj htext')
            exact ⟨_, hparse⟩
          | false =>
            exact absurd htext (applyWebhookActionToManifest_of_not_changes codec _ text hc)
        refine ⟨hnew, fun command hcommand ↦ ?_⟩
        rcases List.mem_append.mp hcommand with hcommand | hcommand
        · exact hsent command hcommand
        · rw [List.mem_singleton.mp hcommand]
          exact hnew
      · obtain rfl := Option.some.inj hu
        exact ⟨⟨b, hb⟩, hsent⟩
    | deliver i =>
      obtain ⟨command, -, rfl⟩ := Option.map_eq_some_iff.mp hu
      have hrest : ∀ c ∈ s.store.sent.eraseIdx i, FromImport codec spec c.2 :=
        fun c hc ↦ hsent c (List.mem_of_mem_eraseIdx hc)
      split
      · constructor
        · rw [WebhookStore.stored_applyManifest]
          exact hstored
        · rw [WebhookStore.sent_applyManifest]
          exact hrest
      · exact ⟨hstored, hrest⟩
    | reportJob name status | reportMigration name status =>
      obtain ⟨cluster, -, rfl⟩ := Option.map_eq_some_iff.mp hu
      exact ⟨hstored, hsent⟩

/-- A command that reaches the cluster applies an edit of the imported manifest. -/
theorem deliver_step {s t : WebhookState Text} {i : Nat} (hs : EditsImport codec spec s)
    (ht : webhookMachine codec spec.branch s (.interfere (.deliver i)) = some t) :
    ∃ command a, delivered codec ⟨s, .interfere (.deliver i), t⟩ = some command ∧
      command.2 = { importedManifest spec with annotations := a } ∧
      t.store = (s.store.dropSent i).applyManifest command.2 := by
  obtain ⟨u, hu, rfl⟩ := Option.map_eq_some_iff.mp ht
  obtain ⟨command, hcommand, rfl⟩ := Option.map_eq_some_iff.mp hu
  obtain ⟨a, ha⟩ := hs.2 command (List.mem_of_getElem? hcommand)
  refine ⟨(command.1, { importedManifest spec with annotations := a }), a, ?_, rfl, ?_⟩
  · simp [delivered, hcommand, ha, Except.toOption]
  · simp only [ha]

/-- The image after a manifest was applied. -/
theorem image_applyManifest (s : WebhookStore Text) (m : Manifest) :
    (s.applyManifest m).cluster.project.spec.image = s.cluster.project.spec.image ∨
      (s.applyManifest m).cluster.project.spec.image = m.spec.image := by
  rcases s.fieldValue_applyManifest m with hsame | hvalue
  · exact .inl (by rw [hsame])
  · have himage := (congrFun hvalue .image).trans (Managed.apply_value_of_sent rfl)
    exact .inr (Option.some.inj himage)

/-- Only the operator's image patch changes the live image while manifests come in time. -/
theorem liveImage_step {s t : WebhookState Text} {a : Turn WebhookEvent Bool}
    (hs : EditsImport codec spec s) (ht : webhookMachine codec spec.branch s a = some t)
    (hc : DeliveredInTime codec spec ⟨s, a, t⟩) :
    liveImage t = liveImage s ∨ (imageWritten ⟨s, a, t⟩).isSome := by
  cases a with
  | start =>
    obtain rfl := Option.some.inj ht
    exact .inl rfl
  | serve fault =>
    simp only [webhookMachine, Solo.step] at ht
    split at ht
    · next app c next hcur =>
      obtain rfl := Option.some.inj ht
      cases fault with
      | true => exact .inl rfl
      | false =>
        by_cases hw : ∃ image, c = .patchProjectImage image
        · obtain ⟨image, rfl⟩ := hw
          exact .inr (by simp [imageWritten, hcur])
        · have himage : patchedFields c .image = none := by
            cases c with
            | patchProjectImage image => exact absurd ⟨image, rfl⟩ hw
            | _ => rfl
          have hvalue := congrFun (congrArg Managed.value (managed_serve s.store c)) .image
          rw [Managed.patch_value_of_unnamed himage] at hvalue
          exact .inl (Option.some.inj hvalue)
    · cases ht
  | interfere e =>
    cases e with
    | receive action =>
      obtain ⟨u, hu, rfl⟩ := Option.map_eq_some_iff.mp ht
      simp only [webhookEvent] at hu
      split at hu <;> obtain rfl := Option.some.inj hu <;> exact .inl rfl
    | deliver i =>
      obtain ⟨command, a, hd, hm, hstore⟩ := deliver_step hs ht
      have himage := (hc command hd).1
      rcases image_applyManifest (s.store.dropSent i) command.2 with
        hsame | hset
      · exact .inl (by rw [liveImage, hstore, hsame]; rfl)
      · refine .inl ?_
        rw [liveImage, hstore, hset, hm]
        exact himage.symm
    | reportJob name status | reportMigration name status =>
      obtain ⟨u, hu, rfl⟩ := Option.map_eq_some_iff.mp ht
      obtain ⟨cluster, hcluster, rfl⟩ := Option.map_eq_some_iff.mp hu
      obtain ⟨job, -, rfl⟩ := Option.map_eq_some_iff.mp hcluster
      exact .inl rfl

/-- The image patch writes its image. -/
theorem liveImage_of_imageWritten {x : WebhookTransition Text} {image : String}
    (ht : webhookMachine codec spec.branch x.before x.action = some x.after)
    (hw : imageWritten x = some image) : liveImage x.after = image := by
  simp only [imageWritten] at hw
  split at hw
  · next haction hcur =>
    simp only [webhookMachine, haction, Solo.step, hcur, Option.some.injEq] at ht
    rw [← ht]
    exact Option.some.inj hw
  · cases hw

/-- A pull request delivered in time leaves the image and a waiting production trigger alone. -/
theorem pullRequestNeutral_step {s t : WebhookState Text} {a : Turn WebhookEvent Bool}
    (hs : EditsImport codec spec s) (ht : webhookMachine codec spec.branch s a = some t)
    (hc : DeliveredInTime codec spec ⟨s, a, t⟩) : PullRequestNeutral codec ⟨s, a, t⟩ := by
  intro command hcommand hpreview
  cases a with
  | start => cases hcommand
  | serve fault => cases hcommand
  | interfere e =>
    cases e with
    | receive action => cases hcommand
    | reportJob name status | reportMigration name status => cases hcommand
    | deliver i =>
      refine ⟨?_, fun trigger htrigger ↦ ?_⟩
      · refine (liveImage_step hs ht hc).resolve_right ?_
        simp [imageWritten]
      · obtain ⟨command', a, hd, -, hstore⟩ := deliver_step hs ht
        obtain rfl : command' = command := Option.some.inj (hd.symm.trans hcommand)
        have hsent := (hc command' hd).2 hpreview trigger htrigger
        rw [hstore]
        rcases (s.store.dropSent i).fieldValue_applyManifest command'.2 with hsame | hvalue
        · rw [hsame]
          simp only [productionTrigger, Option.mem_def] at htrigger
          split at htrigger
          · exact htrigger
          · cases htrigger
        · exact (congrFun hvalue .buildTrigger).trans (Managed.apply_value_of_sent hsent)

end Steps

/-- In every run that delivers its manifests in time, a written production image stays until the
next one, and pull requests touch neither the image nor a waiting production trigger. -/
theorem production_image_kept {codec : ManifestCodec Text} (hcodec : codec.RoundTrips)
    {spec : GitHubImportSpec} {yaml : Text} (h : sourceProjectYaml codec spec = .ok yaml)
    {uid : Uid} {tr : List (WebhookTransition Text)} {s : WebhookState Text}
    (hr : Run (webhookMachine codec spec.branch) ⟨importedStore spec yaml uid, none⟩ tr s)
    (hc : ∀ x ∈ tr, DeliveredInTime codec spec x) :
    ImageKept tr s ∧ ∀ x ∈ tr, PullRequestNeutral codec x := by
  have hinit : EditsImport codec spec
      (⟨importedStore spec yaml uid, none⟩ : WebhookState Text) :=
    ⟨⟨_, ofText_sourceProjectYaml hcodec h⟩, by simp [importedStore]⟩
  have hbefore := hr.forall_before (I := EditsImport codec spec) hinit
    fun _ _ _ hs ht ↦ editsImport_step hcodec hs ht
  refine ⟨?_, fun x hx ↦ pullRequestNeutral_step (hbefore x hx).1 (hbefore x hx).2 (hc x hx)⟩
  rintro tr₁ x tr₂ image rfl hw
  have hwritten : liveImage x.after = image :=
    liveImage_of_imageWritten (hbefore x (by simp)).2 hw
  rcases hr.lost (Q := fun u ↦ liveImage u = image) hwritten with hkept | ⟨y, hy, hq, hlost⟩
  · exact .inl hkept
  · have hmem : y ∈ tr₁ ++ x :: tr₂ := by simp [hy]
    rcases liveImage_step (hbefore y hmem).1 (hbefore y hmem).2 (hc y hmem) with
      hsame | hw'
    · exact absurd (hsame.trans hq) hlost
    · exact .inr ⟨y, hy, hw'⟩

/-! ## A pull request after a rollout -/

/-- The state after the import of `shopImport`. -/
def shopImported : WebhookState Manifest :=
  ⟨importedStore shopImport (importedManifest shopImport) 7, none⟩

/-- A push reaches the cluster and its build is rolled out. -/
def rollout : List (Turn WebhookEvent Bool) :=
  [.interfere (.receive (.buildTrigger "main" "1111")), .interfere (.deliver 0), .start,
    .serve false, .serve false, .serve false, .serve false, .serve false,
    .interfere (.reportJob "shop-build-shop-1111" ⟨some 1, none, none⟩), .start, .serve false,
    .serve false, .serve false]

/-- Afterwards a pull request is opened. -/
def pullRequestAfterRollout : List (Turn WebhookEvent Bool) :=
  rollout ++ [.interfere (.receive (.previewCreate 5 "topic" "2222")), .interfere (.deliver 0)]

/-- The pull request puts the image of the import back. -/
theorem pull_request_rolls_back : ¬ ∀ (codec : ManifestCodec Manifest) (spec : GitHubImportSpec)
    (yaml : Manifest) (uid : Uid) (tr : List (WebhookTransition Manifest))
    (s : WebhookState Manifest), codec.RoundTrips → sourceProjectYaml codec spec = .ok yaml →
    Run (webhookMachine codec spec.branch) ⟨importedStore spec yaml uid, none⟩ tr s →
    ImageKept tr s ∧ ∀ x ∈ tr, PullRequestNeutral codec x := by
  intro hall
  have he : ∃ s, execute (webhookMachine plainCodec "main") shopImported
      pullRequestAfterRollout = some s ∧ liveImage s = "registry.example/shop:pending" :=
    ⟨_, rfl, by decide⟩
  obtain ⟨s, he, himage⟩ := he
  have hkept := (hall plainCodec shopImport (importedManifest shopImport) 7 _ s
    plainCodec_roundTrips rfl (Run.of_execute _ he)).1
  have hsplit : ∃ tr₁ x tr₂, transitions (webhookMachine plainCodec "main") shopImported
        pullRequestAfterRollout = tr₁ ++ x :: tr₂ ∧
      imageWritten x = some "registry.example/shop:shop-1111" ∧
      ∀ y ∈ tr₂, imageWritten y = none :=
    ⟨[_, _, _, _, _, _, _, _, _, _, _], _, _, rfl, by decide, by decide⟩
  obtain ⟨tr₁, x, tr₂, htr, hw, hrest⟩ := hsplit
  rcases hkept tr₁ x tr₂ _ htr hw with h | ⟨y, hy, hw'⟩
  · exact absurd (himage.symm.trans h) (by decide)
  · rw [hrest y hy] at hw'
    cases hw'

/-- Without the pull request the rolled out image stays. -/
theorem production_image_kept_rollout :
    ∃ s, execute (webhookMachine plainCodec "main") shopImported rollout = some s ∧
      liveImage s = "registry.example/shop:shop-1111" ∧
      ImageKept (transitions (webhookMachine plainCodec "main") shopImported rollout) s := by
  have he : ∃ s, execute (webhookMachine plainCodec "main") shopImported rollout = some s ∧
      liveImage s = "registry.example/shop:shop-1111" := ⟨_, rfl, by decide⟩
  obtain ⟨s, he, himage⟩ := he
  exact ⟨s, he, himage, (production_image_kept plainCodec_roundTrips (rfl : sourceProjectYaml
    plainCodec shopImport = _) (Run.of_execute _ he) (by decide)).1⟩

end ReinhardtCloud.Dashboard

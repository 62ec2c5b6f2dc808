import ReinhardtCloud.Dashboard.Manifest
import ReinhardtCloud.Operator.BuildRuns

/-!
# What the operator reads in a manifest edited by webhooks

Library `Dashboard`. Webhook actions are applied in turn to the manifest of an imported project;
the operator decodes the annotations of the result. `with_preview_create` and
`with_preview_delete` set or remove all four annotations, `with_build_trigger` only sets the
trigger (`import.rs:147–188`), so a push after a preview action is read as a preview request.
-/

namespace ReinhardtCloud.Dashboard

open ReinhardtCloud.Base ReinhardtCloud.Operator

variable {Text : Type}

/-! ## Text -/

/-- Trimming leaves no blank text but the empty one. -/
theorem not_isBlank_trim {s : String} (h : trim s ≠ "") : isBlank (trim s) = false := by
  have hne : ((s.toList.dropWhile isWhiteSpace).reverse.dropWhile isWhiteSpace) ≠ [] := by
    intro hnil
    exact h (by simp [trim, hnil])
  have hhead := List.head_dropWhile_not isWhiteSpace hne
  have hmem := List.head_mem hne
  simp only [isBlank, trim, String.toList_ofList, List.all_reverse]
  exact List.all_eq_false.mpr ⟨_, hmem, by simp [hhead]⟩

/-- A number is not blank. -/
theorem not_isBlank_toString (n : Nat) : isBlank (toString n) = false := by
  obtain ⟨c, hc⟩ := List.exists_mem_of_ne_nil _ (Nat.toDigits_ne_nil (n := n) (b := 10))
  have hdigit := Char.isDigit_iff_toNat.mp (Nat.isDigit_of_mem_toDigits (by decide) (by decide) hc)
  refine List.all_eq_false.mpr ⟨c, by simpa using hc, ?_⟩
  have h0 : '0'.toNat = 48 := rfl
  have h9 : '9'.toNat = 57 := rfl
  simp only [isWhiteSpace, Bool.or_eq_true, Bool.and_eq_true, decide_eq_true_eq]
  omega

/-! ## Applying actions in turn -/

/-- The stored text and the last action that changed it, after one more action. -/
def webhookStep (codec : ManifestCodec Text) (productionBranch : String)
    (s : Text × Option WebhookAction) (action : WebhookAction) : Text × Option WebhookAction :=
  match applyWebhookActionToManifest codec s.1 action productionBranch with
  | .ok (some text) => (text, some action)
  | _ => s

/-- The stored text and the last action that changed it, after the actions in turn. -/
def applyWebhookActions (codec : ManifestCodec Text) (productionBranch : String) (yaml : Text)
    (actions : List WebhookAction) : Text × Option WebhookAction :=
  actions.foldl (webhookStep codec productionBranch) (yaml, none)

/-- The annotations after the actions that change the manifest, and the last of these. -/
def editAll (productionBranch : String) (a : Annotations) (actions : List WebhookAction) :
    Annotations :=
  (actions.filter (WebhookAction.changes productionBranch)).foldl WebhookAction.edit a

theorem applyWebhookActions_append (codec : ManifestCodec Text) (productionBranch : String)
    (yaml : Text) (actions : List WebhookAction) (action : WebhookAction) :
    applyWebhookActions codec productionBranch yaml (actions ++ [action]) =
      webhookStep codec productionBranch
        (applyWebhookActions codec productionBranch yaml actions) action := by
  simp [applyWebhookActions]

/-- The stored text always parses to the manifest with all edits made. -/
theorem applyWebhookActions_spec {codec : ManifestCodec Text} (hcodec : codec.RoundTrips)
    (productionBranch : String) {yaml : Text} {m : Manifest} (hm : codec.ofText yaml = .ok m)
    (actions : List WebhookAction) :
    codec.ofText (applyWebhookActions codec productionBranch yaml actions).1 =
        .ok { m with annotations := editAll productionBranch m.annotations actions } ∧
      (applyWebhookActions codec productionBranch yaml actions).2 =
        (actions.filter (WebhookAction.changes productionBranch)).getLast? := by
  induction actions using List.reverseRecOn with
  | nil => exact ⟨hm, rfl⟩
  | append_singleton actions action ih =>
    obtain ⟨htext, hlast⟩ := ih
    rw [applyWebhookActions_append, webhookStep]
    cases hc : action.changes productionBranch with
    | true =>
      obtain ⟨text, ht, hr⟩ := applyWebhookActionToManifest_of_changes hcodec htext hc
      rw [ht]
      refine ⟨?_, by simp [List.filter_append, hc]⟩
      rw [hr]
      simp [editAll, List.filter_append, hc]
    | false =>
      split
      · next text ht =>
        exact absurd ht (applyWebhookActionToManifest_of_not_changes codec _ text hc)
      · have hf : (actions ++ [action]).filter (WebhookAction.changes productionBranch) =
            actions.filter (WebhookAction.changes productionBranch) := by
          simp [List.filter_append, hc]
        rw [editAll, hf]
        exact ⟨htext, hlast⟩

/-! ## Reading the annotations -/

section Reading

variable {app : Project} {source : SourceSpec} {trigger : String}

/-- A trigger without preview annotations is read as a production build of the source branch. -/
theorem reads_push (app : Project) (hsource : app.spec.source = some source)
    (ha : app.annotations = ⟨some trigger, none, none, none⟩) :
    (∃ b, deriveNewBuildStatus app = .ok (some b) ∧ b.target = .production ∧
      b.trigger = trigger ∧ b.branch = source.branch) ∧
      reconcilePreviewDeleteAction app = .done (.ok false) := by
  have hbuild : previewBuildAction app = none := by simp [previewBuildAction, ha]
  have hpr : previewPrNumber app = none := by simp [previewPrNumber, previewActionPrNumber, hbuild]
  have htaken : ignoredPreviewRequest app = false := by
    simp [ignoredPreviewRequest, disabledPreviewBuildRequested, malformedPreviewBuildRequested,
      previewActionPrNumber, hbuild]
  obtain ⟨b, hb⟩ := deriveNewBuildStatus_of_trigger hsource (by rw [ha]) htaken
  have hd := derivedBuild_of_derive hb
  refine ⟨⟨b, hb, by simpa [hpr] using hd.target, ?_, ?_⟩, ?_⟩
  · simpa [ha] using hd.trigger.symm
  · simpa [ha, hsource] using hd.branch
  · simp [reconcilePreviewDeleteAction, ha]

theorem previewActionPrNumber_of_create {n : String} (hn : isBlank n = false)
    (haction : app.annotations.previewAction = some "create")
    (hnum : app.annotations.prNumber = some n) : previewActionPrNumber app = some n := by
  simp [previewActionPrNumber, previewBuildAction, haction, hnum, hn, Option.filter]

/-- A preview creation is read as a preview build of its pull request and branch. -/
theorem reads_previewCreate (app : Project) {n branch : String}
    (hsource : app.spec.source = some source)
    (henabled : previewsEnabled app = true) (hn : isBlank n = false)
    (hbranch : isBlank branch = false)
    (ha : app.annotations = ⟨some trigger, some "create", some n, some branch⟩) :
    ∃ b, deriveNewBuildStatus app = .ok (some b) ∧ b.target = .preview ∧ b.prNumber = some n ∧
      b.previewName = some (previewProjectName app.name n) ∧ b.branch = some branch ∧
      b.trigger = trigger := by
  have hnum : previewActionPrNumber app = some n :=
    previewActionPrNumber_of_create hn (by rw [ha]) (by rw [ha])
  have hpr : previewPrNumber app = some n := by simp [previewPrNumber, henabled, hnum]
  have htaken : ignoredPreviewRequest app = false := by
    simp [ignoredPreviewRequest, disabledPreviewBuildRequested, malformedPreviewBuildRequested,
      hnum, henabled]
  obtain ⟨b, hb⟩ := deriveNewBuildStatus_of_trigger hsource (by rw [ha]) htaken
  have hd := derivedBuild_of_derive hb
  refine ⟨b, hb, by simpa [hpr] using hd.target, by rw [hd.prNumber, hpr], ?_, ?_, ?_⟩
  · simpa [hpr] using hd.previewName
  · simpa [ha, hbranch, Option.filter] using hd.branch
  · simpa [ha] using hd.trigger.symm

/-- A preview creation is never read as a production build. -/
theorem not_production_of_create (app : Project) {n : String}
    (henabled : previewsEnabled app = true)
    (hn : isBlank n = false) (haction : app.annotations.previewAction = some "create")
    (hnum : app.annotations.prNumber = some n) {b : BuildStatus}
    (hb : deriveNewBuildStatus app = .ok (some b)) : b.target = .preview := by
  have hpr : previewPrNumber app = some n := by
    simp [previewPrNumber, henabled, previewActionPrNumber_of_create hn haction hnum]
  simpa [hpr] using (derivedBuild_of_derive hb).target

/-- A preview deletion deletes the preview of its pull request and no other. -/
theorem reads_previewDelete (app : Project) {n : String}
    (ha : app.annotations = ⟨none, some "delete", some n, none⟩) (s : BuildStore) :
    deriveNewBuildStatus app = .ok none ∧
      ∃ t, (reconcilePreviewDeleteAction app).runOn s = (t, .ok true) ∧
        t.previews = Function.update s.previews (previewProjectName app.name n) none := by
  refine ⟨deriveNewBuildStatus_of_no_trigger (by rw [ha]), _,
    runOn_reconcilePreviewDeleteAction s (by rw [ha]) rfl, ?_⟩
  simp only [ha, Option.getD_some]
  cases matchingPreviewBuildStatus app n (previewProjectName app.name n) <;> rfl

/-- A preview deletion request is not passed over. -/
theorem not_passed_over_of_delete (haction : app.annotations.previewAction = some "delete") :
    reconcilePreviewDeleteAction app ≠ .done (.ok false) := by
  intro hdone
  have hrun := runOn_reconcilePreviewDeleteAction
    ⟨app, fun _ ↦ none, fun _ ↦ none, fun _ ↦ none, .empty, .none⟩ haction rfl
  rw [hdone, runOn_done] at hrun
  cases congrArg Prod.snd hrun

end Reading

/-! ## The last action -/

/-- The operator reads the Project as asking for exactly this action. -/
def ReadAs (app : Project) (productionBranch : String) : WebhookAction → Prop
  | .buildTrigger _ commitSha =>
    (∃ b, deriveNewBuildStatus app = .ok (some b) ∧ b.target = .production ∧
      b.trigger = commitSha ∧ b.branch = some productionBranch) ∧
      reconcilePreviewDeleteAction app = .done (.ok false)
  | .previewCreate prNumber branch commitSha =>
    ∃ b, deriveNewBuildStatus app = .ok (some b) ∧ b.target = .preview ∧
      b.prNumber = some (toString prNumber.toNat) ∧
      b.previewName = some (previewProjectName app.name (toString prNumber.toNat)) ∧
      b.branch = some branch ∧ b.trigger = commitSha
  | .previewDelete prNumber =>
    deriveNewBuildStatus app = .ok none ∧ ∀ s : BuildStore,
      ∃ t, (reconcilePreviewDeleteAction app).runOn s = (t, .ok true) ∧
        t.previews = Function.update s.previews
          (previewProjectName app.name (toString prNumber.toNat)) none
  | .tagRelease _ _ | .ignored => True

/-- After the actions the operator reads the Project as the last action that changed the
manifest, whatever the cluster adds to it. -/
def LastActionRead (codec : ManifestCodec Text) (spec : GitHubImportSpec) (yaml : Text)
    (actions : List WebhookAction) : Prop :=
  ∀ last, (applyWebhookActions codec spec.branch yaml actions).2 = some last →
    ∃ m, codec.ofText (applyWebhookActions codec spec.branch yaml actions).1 = .ok m ∧
      ∀ uid resourceVersion status,
        ReadAs (m.project uid resourceVersion status) spec.branch last

/-- A preview creation or deletion. -/
def WebhookAction.isPreview : WebhookAction → Bool
  | .previewCreate _ _ _ | .previewDelete _ => true
  | _ => false

/-- The texts of the action carry no surrounding white space. -/
def WebhookAction.Unpadded : WebhookAction → Prop
  | .buildTrigger _ commitSha => trim commitSha = commitSha
  | .previewCreate _ branch commitSha => trim branch = branch ∧ trim commitSha = commitSha
  | _ => True

/-- The last action that changes the manifest is unpadded and, if it is a push, no preview action
changed the manifest before it. -/
def LastActionPlain (productionBranch : String) (actions : List WebhookAction) : Prop :=
  ∀ last, (actions.filter (WebhookAction.changes productionBranch)).getLast? = some last →
    last.Unpadded ∧ (last.isPreview = false →
      ∀ a ∈ actions, a.changes productionBranch = true → a.isPreview = false)

/-- Pushes leave the preview annotations alone. -/
theorem foldl_edit_of_no_preview {actions : List WebhookAction} {a : Annotations}
    (h : ∀ x ∈ actions, x.isPreview = false) :
    (actions.foldl WebhookAction.edit a).previewAction = a.previewAction ∧
      (actions.foldl WebhookAction.edit a).prNumber = a.prNumber ∧
      (actions.foldl WebhookAction.edit a).prBranch = a.prBranch := by
  induction actions generalizing a with
  | nil => exact ⟨rfl, rfl, rfl⟩
  | cons x xs ih =>
    obtain ⟨h₁, h₂, h₃⟩ := ih (a := x.edit a) fun y hy ↦ h y (List.mem_cons_of_mem x hy)
    have hx := h x List.mem_cons_self
    cases x with
    | buildTrigger branch sha => exact ⟨h₁, h₂, h₃⟩
    | previewCreate n branch sha => cases hx
    | previewDelete n => cases hx
    | tagRelease tag sha => exact ⟨h₁, h₂, h₃⟩
    | ignored => exact ⟨h₁, h₂, h₃⟩

/-- After a preview action some preview request stays in the annotations. -/
theorem foldl_edit_of_preview {actions : List WebhookAction} {a : Annotations}
    (h : ∃ x ∈ actions, x.isPreview = true) :
    (actions.foldl WebhookAction.edit a).previewAction = some "delete" ∨
      (actions.foldl WebhookAction.edit a).previewAction = some "create" ∧
        ∃ n : Nat, (actions.foldl WebhookAction.edit a).prNumber = some (toString n) := by
  induction actions using List.reverseRecOn with
  | nil => simp at h
  | append_singleton xs x ih =>
    simp only [List.foldl_append, List.foldl_cons, List.foldl_nil]
    have hxs : x.isPreview = false → ∃ y ∈ xs, y.isPreview = true := by
      intro hx
      obtain ⟨y, hy, hp⟩ := h
      rcases List.mem_append.mp hy with hy | hy
      · exact ⟨y, hy, hp⟩
      · rw [List.mem_singleton.mp hy, hx] at hp
        cases hp
    cases x with
    | buildTrigger branch sha => exact ih (hxs rfl)
    | previewCreate n branch sha => exact .inr ⟨rfl, n.toNat, rfl⟩
    | previewDelete n => exact .inl rfl
    | tagRelease tag sha => exact ih (hxs rfl)
    | ignored => exact ih (hxs rfl)

/-- The manifest of a successful import parses back. -/
theorem ofText_sourceProjectYaml {codec : ManifestCodec Text} (hcodec : codec.RoundTrips)
    {spec : GitHubImportSpec} {yaml : Text} (h : sourceProjectYaml codec spec = .ok yaml) :
    codec.ofText yaml = .ok (importedManifest spec) := by
  unfold sourceProjectYaml at h
  split at h
  · obtain ⟨text, ht, hr⟩ := hcodec (importedManifest spec)
    rw [ht] at h
    obtain rfl : text = yaml := Except.ok.inj h
    exact hr
  · cases h

section Imported

variable {spec : GitHubImportSpec} {a : Annotations} {uid : Uid} {resourceVersion : Option Nat}
  {status : Option ProjectStatus}

/-- The imported project with the annotations `a`. -/
abbrev importedProject (spec : GitHubImportSpec) (a : Annotations) (uid : Uid)
    (resourceVersion : Option Nat) (status : Option ProjectStatus) : Project :=
  ({ importedManifest spec with annotations := a } : Manifest).project uid resourceVersion status

theorem readAs_push_iff {branch commitSha : String}
    (ha : a = ⟨some (trim commitSha), none, none, none⟩) :
    ReadAs (importedProject spec a uid resourceVersion status) spec.branch
      (.buildTrigger branch commitSha) ↔ trim commitSha = commitSha := by
  obtain ⟨⟨b, hb, htarget, htrigger, hbranch⟩, hdelete⟩ :=
    reads_push (importedProject spec a uid resourceVersion status) rfl ha
  constructor
  · rintro ⟨⟨b', hb', -, htrigger', -⟩, -⟩
    rw [hb] at hb'
    cases hb'
    exact htrigger.symm.trans htrigger'
  · intro htrim
    exact ⟨⟨b, hb, htarget, htrigger.trans htrim, hbranch⟩, hdelete⟩

/-- A push over a preview request is not read as that push. -/
theorem not_readAs_push {branch commitSha : String}
    (ha : a.previewAction = some "delete" ∨
      a.previewAction = some "create" ∧ ∃ n : Nat, a.prNumber = some (toString n)) :
    ¬ ReadAs (importedProject spec a uid resourceVersion status) spec.branch
      (.buildTrigger branch commitSha) := by
  rintro ⟨⟨b, hb, htarget, -⟩, hdelete⟩
  rcases ha with haction | ⟨haction, n, hn⟩
  · exact not_passed_over_of_delete haction hdelete
  · have hpreview := not_production_of_create
      (importedProject spec a uid resourceVersion status) rfl (not_isBlank_toString n)
      haction hn hb
    rw [htarget] at hpreview
    cases hpreview

theorem readAs_previewCreate_iff {prNumber : UInt64} {branch commitSha : String}
    (hbranch : trim branch ≠ "")
    (ha : a = ⟨some (trim commitSha), some "create", some (toString prNumber.toNat),
      some (trim branch)⟩) :
    ReadAs (importedProject spec a uid resourceVersion status) spec.branch
      (.previewCreate prNumber branch commitSha) ↔
      trim branch = branch ∧ trim commitSha = commitSha := by
  obtain ⟨b, hb, htarget, hn, hname, hbr, htrigger⟩ :=
    reads_previewCreate (importedProject spec a uid resourceVersion status) rfl rfl
      (not_isBlank_toString prNumber.toNat) (not_isBlank_trim hbranch) ha
  constructor
  · rintro ⟨b', hb', -, -, -, hbr', htrigger'⟩
    rw [hb] at hb'
    cases hb'
    exact ⟨Option.some.inj (hbr.symm.trans hbr'), htrigger.symm.trans htrigger'⟩
  · rintro ⟨htrim, htrim'⟩
    exact ⟨b, hb, htarget, hn, hname, by rw [hbr, htrim], htrigger.trans htrim'⟩

/-- How the operator reads the last action is decided by its texts and by the preview actions
before it. -/
theorem readAs_iff {actions : List WebhookAction} {last : WebhookAction}
    (hlast : (actions.filter (WebhookAction.changes spec.branch)).getLast? = some last) :
    (∀ uid resourceVersion status, ReadAs (importedProject spec
      (editAll spec.branch (importedManifest spec).annotations actions) uid resourceVersion status)
      spec.branch last) ↔
    last.Unpadded ∧ (last.isPreview = false →
      ∀ x ∈ actions, x.changes spec.branch = true → x.isPreview = false) := by
  obtain ⟨init, hinit⟩ := List.getLast?_eq_some_iff.mp hlast
  have hchanges : last.changes spec.branch = true := by
    have hmem : last ∈ actions.filter (WebhookAction.changes spec.branch) := by simp [hinit]
    exact (List.mem_filter.mp hmem).2
  have hedit : editAll spec.branch (importedManifest spec).annotations actions =
      last.edit (init.foldl WebhookAction.edit (importedManifest spec).annotations) := by
    simp [editAll, hinit]
  cases last with
  | buildTrigger branch commitSha =>
    by_cases hno : ∀ x ∈ actions, x.changes spec.branch = true → x.isPreview = false
    · have hinit' : ∀ x ∈ init, x.isPreview = false := by
        intro x hx
        have hmem : x ∈ actions.filter (WebhookAction.changes spec.branch) := by simp [hinit, hx]
        obtain ⟨hmem, hc⟩ := List.mem_filter.mp hmem
        exact hno x hmem hc
      obtain ⟨h₁, h₂, h₃⟩ :=
        foldl_edit_of_no_preview (a := (importedManifest spec).annotations) hinit'
      have ha : editAll spec.branch (importedManifest spec).annotations actions =
          ⟨some (trim commitSha), none, none, none⟩ := by
        rw [hedit, WebhookAction.edit, h₁, h₂, h₃]
        rfl
      simp only [readAs_push_iff ha, WebhookAction.Unpadded]
      exact ⟨fun h ↦ ⟨h 0 none none, fun _ ↦ hno⟩, fun h _ _ _ ↦ h.1⟩
    · have hpreview : ∃ x ∈ actions.filter (WebhookAction.changes spec.branch),
          x.isPreview = true := by
        simpa [and_assoc] using hno
      have hstays := foldl_edit_of_preview (a := (importedManifest spec).annotations) hpreview
      exact ⟨fun h ↦ absurd (h 0 none none) (not_readAs_push hstays), fun h ↦ absurd (h.2 rfl) hno⟩
  | previewCreate prNumber branch commitSha =>
    have hbranch : trim branch ≠ "" := by
      simp only [WebhookAction.changes, Bool.and_eq_true, decide_eq_true_eq] at hchanges
      exact hchanges.1
    simp only [readAs_previewCreate_iff hbranch hedit, WebhookAction.Unpadded,
      WebhookAction.isPreview]
    exact ⟨fun h ↦ ⟨h 0 none none, fun h ↦ by cases h⟩, fun h _ _ _ ↦ h.1⟩
  | previewDelete prNumber =>
    refine ⟨fun _ ↦ ⟨trivial, fun h ↦ by cases h⟩, fun _ uid resourceVersion status ↦ ?_⟩
    have hread := reads_previewDelete (importedProject spec
      (editAll spec.branch (importedManifest spec).annotations actions) uid resourceVersion status)
      hedit
    exact ⟨(hread ⟨importedProject spec Annotations.cleared uid resourceVersion status,
      fun _ ↦ none, fun _ ↦ none, fun _ ↦ none, .empty, .none⟩).1, fun s ↦ (hread s).2⟩
  | tagRelease tag commitSha => cases hchanges
  | ignored => cases hchanges

end Imported

/-- The last action is read exactly when it is plain. -/
theorem last_action_read_iff {codec : ManifestCodec Text} (hcodec : codec.RoundTrips)
    {spec : GitHubImportSpec} {yaml : Text} (h : sourceProjectYaml codec spec = .ok yaml)
    (actions : List WebhookAction) :
    LastActionRead codec spec yaml actions ↔ LastActionPlain spec.branch actions := by
  obtain ⟨htext, hlast⟩ := applyWebhookActions_spec hcodec spec.branch
    (ofText_sourceProjectYaml hcodec h) actions
  simp only [LastActionRead, LastActionPlain, htext, hlast]
  refine forall_congr' fun last ↦ forall_congr' fun hl ↦ ?_
  rw [← readAs_iff hl]
  simp

/-! ## A push after a preview -/

/-- A codec whose text is the manifest itself. -/
def plainCodec : ManifestCodec Manifest := ⟨.ok, .ok⟩

theorem plainCodec_roundTrips : plainCodec.RoundTrips := fun m ↦ ⟨m, rfl, rfl⟩

/-- An imported repository. -/
def shopImport : GitHubImportSpec :=
  ⟨"shop", "default", "https://github.com/team/shop.git", "main", "registry.example/shop", none,
    none⟩

/-- A pull request is opened, then a commit is pushed to the production branch. -/
def pushAfterPreview : List WebhookAction :=
  [.previewCreate 5 "topic" "2222", .buildTrigger "main" "3333"]

/-- The push is read as one more build of the preview. -/
theorem last_action_misread : ¬ ∀ (codec : ManifestCodec Manifest) (spec : GitHubImportSpec)
    (yaml : Manifest) (actions : List WebhookAction), codec.RoundTrips →
    sourceProjectYaml codec spec = .ok yaml → LastActionRead codec spec yaml actions := by
  intro hall
  obtain ⟨m, hm, hread⟩ := hall plainCodec shopImport (importedManifest shopImport)
    pushAfterPreview plainCodec_roundTrips rfl (.buildTrigger "main" "3333") (by decide)
  obtain ⟨⟨b, hb, htarget, -⟩, -⟩ := hread 1 none none
  cases hm
  cases hb
  cases htarget

/-- A push before the pull request is opened, then its closing, are read as they are meant. -/
theorem last_action_read_iff_previewDelete :
    sourceProjectYaml plainCodec shopImport = .ok (importedManifest shopImport) ∧
      LastActionRead plainCodec shopImport (importedManifest shopImport)
        [.buildTrigger "main" "1111", .previewCreate 5 "topic" "2222", .ignored,
          .previewDelete 5] := by
  refine ⟨rfl, (last_action_read_iff plainCodec_roundTrips rfl _).mpr fun last hlast ↦ ?_⟩
  obtain rfl : .previewDelete 5 = last := Option.some.inj ((by decide : _ = _).symm.trans hlast)
  exact ⟨trivial, fun h ↦ by cases h⟩

end ReinhardtCloud.Dashboard

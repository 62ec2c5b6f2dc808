import ReinhardtCloud.Base.Characters
import ReinhardtCloud.Dashboard.SpecSettings

/-!
# The stored manifest of an imported project

Library `Dashboard`. The manifest `source_project_yaml` writes for a repository and the edits
webhook actions make in it (`dashboard/src/apps/github/services/import.rs`). The stored text is
only touched through `serde_yaml`, which enters as a codec. Of the overrides of previews the
replicas stand here.
-/

namespace ReinhardtCloud.Dashboard

open ReinhardtCloud.Base ReinhardtCloud.Operator

/-- `GitHubImportSpec`, `import.rs:13–22`. -/
structure GitHubImportSpec where
  projectName : String
  ns : String
  repositoryUrl : String
  branch : String
  registry : String
  credentialsSecret : Option String
  introspect : Option IntrospectOutput

/-- `WebhookAction`, `utils/vcs/events.rs:7–22`. -/
inductive WebhookAction where
  | buildTrigger (branch commitSha : String)
  | previewCreate (prNumber : UInt64) (branch commitSha : String)
  | previewDelete (prNumber : UInt64)
  | tagRelease (tag commitSha : String)
  | ignored
  deriving DecidableEq

/-- A `Project` manifest as the dashboard stores it: no server-assigned metadata, no status. Of its
spec the `settings` stand beside the rest. -/
structure Manifest where
  name : String
  ns : String
  annotations : Annotations
  spec : ProjectSpec
  settings : SpecSettings := {}
  deriving DecidableEq

/-- The Project created from a manifest, with what the cluster adds to it. -/
def Manifest.project (m : Manifest) (uid : Uid) (resourceVersion : Option Nat)
    (status : Option ProjectStatus) : Project :=
  ⟨m.name, some m.ns, some uid, resourceVersion, m.annotations, m.spec, status, none⟩

/-- `serde_yaml::to_string` and `serde_yaml::from_str` for Project manifests. -/
structure ManifestCodec (Text : Type) where
  toText : Manifest → Except String Text
  ofText : Text → Except String Manifest

variable {Text : Type}

/-- Serializing a manifest succeeds, and the text reads back as the manifest. -/
def ManifestCodec.RoundTrips (codec : ManifestCodec Text) : Prop :=
  ∀ m, ∃ text, codec.toText m = .ok text ∧ codec.ofText text = .ok m

/-! ## Importing a repository -/

/-- `BuildSpec::validate`, `source.rs:49–83`. -/
def buildSpecErrors (build : BuildSpec) : List String :=
  (if build.dockerfile = some "" then
    ["source.build.dockerfile must be non-empty when specified"] else []) ++
  (if build.context = some "" then
    ["source.build.context must be non-empty when specified"] else []) ++
  (if build.registry = some "" then
    ["source.build.registry must be non-empty when specified"] else [])

/-- `PreviewSpec::validate`, `source.rs:175–217`. -/
def previewSpecErrors (preview : PreviewSpec) : List String :=
  (if preview.ttl = some "" then
    ["source.preview.ttl must be non-empty when specified"] else []) ++
  (if preview.urlTemplate = some "" then
    ["source.preview.url_template must be non-empty when specified"] else [])

/-- The fields of `SourceSpec::validate` that are no specs of their own, `source.rs:251–274`. -/
def sourceFieldErrors (source : SourceSpec) : List String :=
  (if source.repository = "" then ["source.repository must be non-empty"] else []) ++
  (if source.branch = some "" then ["source.branch must be non-empty when specified"] else []) ++
  (if source.credentialsSecret = some "" then
    ["source.credentials_secret must be non-empty when specified"] else [])

/-- `SourceSpec::validate`, `source.rs:251–297`, of a source whose webhook settings and overrides
are in order. -/
def sourceSpecErrors (source : SourceSpec) : List String :=
  sourceFieldErrors source ++ (source.build.elim [] buildSpecErrors) ++
    (source.preview.elim [] previewSpecErrors)

/-- The `spec.source` of an imported project. -/
def importedSource (spec : GitHubImportSpec) : SourceSpec where
  repository := spec.repositoryUrl
  branch := some spec.branch
  credentialsSecret := spec.credentialsSecret
  build := some ⟨none, none, some spec.registry, []⟩
  preview := some ⟨true, some "72h", some "pr-\x7bpr_number\x7d.\x7bapp\x7d.preview.localhost"⟩

/-- The manifest of an imported project. -/
def importedManifest (spec : GitHubImportSpec) : Manifest where
  name := spec.projectName
  ns := spec.ns
  annotations := ⟨some "initial", none, none, none⟩
  spec := {
    image := s!"{spec.registry}:pending"
    source := some (importedSource spec)
    introspect := spec.introspect }
  settings := {
    webhook := some ⟨true, [.push, .pullRequest], none⟩
    previewReplicas := some 1 }

/-- `source_project_yaml`, `import.rs:94–145`. -/
def sourceProjectYaml (codec : ManifestCodec Text) (spec : GitHubImportSpec) : Except String Text :=
  match sourceSpecErrors (importedSource spec) with
  | [] => (codec.toText (importedManifest spec)).mapError
      fun e ↦ s!"Failed to serialize Project manifest: {e}"
  | errors =>
    let messages := "; ".intercalate errors
    .error s!"Invalid Project spec: {messages}"

/-! ## Editing the annotations -/

/-- Insert or remove one of the four annotations. -/
def setAnnotation (key : String) (value : Option String) (a : Annotations) : Annotations :=
  if key = "reinhardt.dev/build-trigger" then { a with buildTrigger := value }
  else if key = "reinhardt.dev/preview-action" then { a with previewAction := value }
  else if key = "reinhardt.dev/pr-number" then { a with prNumber := value }
  else if key = "reinhardt.dev/pr-branch" then { a with prBranch := value }
  else a

/-- The annotations after `with_annotations`: removals first, then the new values. -/
def editAnnotations (upserts : List (String × String)) (removals : List String)
    (a : Annotations) : Annotations :=
  upserts.foldl (fun a kv ↦ setAnnotation kv.1 (some kv.2) a)
    (removals.foldl (fun a key ↦ setAnnotation key none a) a)

/-- `with_annotations`, `import.rs:213–243`. -/
def withAnnotations (codec : ManifestCodec Text) (yaml : Text) (upserts : List (String × String))
    (removals : List String) : Except String Text :=
  match codec.ofText yaml with
  | .error e => .error s!"Invalid Project YAML: {e}"
  | .ok m =>
    (codec.toText { m with annotations := editAnnotations upserts removals m.annotations }).mapError
      fun e ↦ s!"Failed to serialize Project manifest: {e}"

/-- `non_empty_branch` and `non_empty_commit_sha`, `import.rs:245–261`. -/
def nonEmpty (what : String) (s : String) : Except String String :=
  if trim s = "" then .error s!"{what} must be non-empty" else .ok (trim s)

/-- `with_build_trigger`, `import.rs:147–154`. -/
def withBuildTrigger (codec : ManifestCodec Text) (yaml : Text) (commitSha : String) :
    Except String Text := do
  let trigger ← nonEmpty "Commit SHA" commitSha
  withAnnotations codec yaml [("reinhardt.dev/build-trigger", trigger)] []

/-- `with_preview_create`, `import.rs:156–176`. -/
def withPreviewCreate (codec : ManifestCodec Text) (yaml : Text) (prNumber : UInt64)
    (branch commitSha : String) : Except String Text := do
  let branch ← nonEmpty "Branch" branch
  let commitSha ← nonEmpty "Commit SHA" commitSha
  withAnnotations codec yaml
    [("reinhardt.dev/preview-action", "create"),
      ("reinhardt.dev/pr-number", toString prNumber.toNat), ("reinhardt.dev/pr-branch", branch),
      ("reinhardt.dev/build-trigger", commitSha)] []

/-- `with_preview_delete`, `import.rs:178–188`. -/
def withPreviewDelete (codec : ManifestCodec Text) (yaml : Text) (prNumber : UInt64) :
    Except String Text :=
  withAnnotations codec yaml
    [("reinhardt.dev/preview-action", "delete"),
      ("reinhardt.dev/pr-number", toString prNumber.toNat)]
    ["reinhardt.dev/build-trigger", "reinhardt.dev/pr-branch"]

/-- `apply_webhook_action_to_manifest`, `import.rs:190–211`. -/
def applyWebhookActionToManifest (codec : ManifestCodec Text) (yaml : Text)
    (action : WebhookAction) (productionBranch : String) : Except String (Option Text) :=
  match action with
  | .buildTrigger branch commitSha =>
    if branch = productionBranch then (withBuildTrigger codec yaml commitSha).map some
    else .ok none
  | .previewCreate prNumber branch commitSha =>
    (withPreviewCreate codec yaml prNumber branch commitSha).map some
  | .previewDelete prNumber => (withPreviewDelete codec yaml prNumber).map some
  | .tagRelease _ _ | .ignored => .ok none

/-! ## What an action does to the manifest -/

/-- The action changes the manifest: it is not ignored and its texts are not blank. -/
def WebhookAction.changes (productionBranch : String) : WebhookAction → Bool
  | .buildTrigger branch commitSha => branch = productionBranch && trim commitSha ≠ ""
  | .previewCreate _ branch commitSha => trim branch ≠ "" && trim commitSha ≠ ""
  | .previewDelete _ => true
  | .tagRelease _ _ | .ignored => false

/-- The annotations after an action that changes the manifest. -/
def WebhookAction.edit (a : Annotations) : WebhookAction → Annotations
  | .buildTrigger _ commitSha => { a with buildTrigger := some (trim commitSha) }
  | .previewCreate prNumber branch commitSha =>
    ⟨some (trim commitSha), some "create", some (toString prNumber.toNat), some (trim branch)⟩
  | .previewDelete prNumber => ⟨none, some "delete", some (toString prNumber.toNat), none⟩
  | .tagRelease _ _ | .ignored => a

theorem withAnnotations_ok {codec : ManifestCodec Text} (hcodec : codec.RoundTrips) {yaml : Text}
    {m : Manifest} (hm : codec.ofText yaml = .ok m) (upserts : List (String × String))
    (removals : List String) :
    ∃ text, withAnnotations codec yaml upserts removals = .ok text ∧
      codec.ofText text =
        .ok { m with annotations := editAnnotations upserts removals m.annotations } := by
  obtain ⟨text, ht, hr⟩ :=
    hcodec { m with annotations := editAnnotations upserts removals m.annotations }
  exact ⟨text, by simp [withAnnotations, hm, ht, Except.mapError], hr⟩

private theorem edit_buildTrigger (trigger : String) (a : Annotations) :
    editAnnotations [("reinhardt.dev/build-trigger", trigger)] [] a =
      { a with buildTrigger := some trigger } := by
  simp [editAnnotations, setAnnotation]

private theorem edit_previewCreate (n branch sha : String) (a : Annotations) :
    editAnnotations [("reinhardt.dev/preview-action", "create"), ("reinhardt.dev/pr-number", n),
      ("reinhardt.dev/pr-branch", branch), ("reinhardt.dev/build-trigger", sha)] [] a =
      ⟨some sha, some "create", some n, some branch⟩ := by
  simp [editAnnotations, setAnnotation]

private theorem edit_previewDelete (n : String) (a : Annotations) :
    editAnnotations [("reinhardt.dev/preview-action", "delete"), ("reinhardt.dev/pr-number", n)]
      ["reinhardt.dev/build-trigger", "reinhardt.dev/pr-branch"] a =
      ⟨none, some "delete", some n, none⟩ := by
  simp [editAnnotations, setAnnotation]

/-- An action that changes the manifest yields its edit. -/
theorem applyWebhookActionToManifest_of_changes {codec : ManifestCodec Text}
    (hcodec : codec.RoundTrips) {yaml : Text} {productionBranch : String} {m : Manifest}
    (hm : codec.ofText yaml = .ok m) {action : WebhookAction}
    (hc : action.changes productionBranch = true) :
    ∃ text, applyWebhookActionToManifest codec yaml action productionBranch = .ok (some text) ∧
      codec.ofText text = .ok { m with annotations := action.edit m.annotations } := by
  cases action with
  | buildTrigger branch commitSha =>
    simp only [WebhookAction.changes, ne_eq, decide_not, Bool.and_eq_true, decide_eq_true_eq,
      Bool.not_eq_eq_eq_not, Bool.not_true, decide_eq_false_iff_not] at hc
    obtain ⟨text, ht, hr⟩ := withAnnotations_ok hcodec hm
      [("reinhardt.dev/build-trigger", trim commitSha)] []
    refine ⟨text, ?_, by rw [hr, edit_buildTrigger]; rfl⟩
    simp [applyWebhookActionToManifest, hc.1, withBuildTrigger, nonEmpty, hc.2, ht, bind,
      Except.bind, Except.map]
  | previewCreate prNumber branch commitSha =>
    simp only [WebhookAction.changes, ne_eq, decide_not, Bool.and_eq_true,
      Bool.not_eq_eq_eq_not, Bool.not_true, decide_eq_false_iff_not] at hc
    obtain ⟨text, ht, hr⟩ := withAnnotations_ok hcodec hm
      [("reinhardt.dev/preview-action", "create"),
        ("reinhardt.dev/pr-number", toString prNumber.toNat),
        ("reinhardt.dev/pr-branch", trim branch),
        ("reinhardt.dev/build-trigger", trim commitSha)] []
    refine ⟨text, ?_, by rw [hr, edit_previewCreate]; rfl⟩
    simp only [applyWebhookActionToManifest, withPreviewCreate, nonEmpty, hc.1, hc.2, ht, bind,
      Except.bind, Except.map, ↓reduceIte]
  | previewDelete prNumber =>
    obtain ⟨text, ht, hr⟩ := withAnnotations_ok hcodec hm
      [("reinhardt.dev/preview-action", "delete"),
        ("reinhardt.dev/pr-number", toString prNumber.toNat)]
      ["reinhardt.dev/build-trigger", "reinhardt.dev/pr-branch"]
    refine ⟨text, ?_, by rw [hr, edit_previewDelete]; rfl⟩
    simp only [applyWebhookActionToManifest, withPreviewDelete, ht, Except.map]
  | tagRelease tag commitSha => cases hc
  | ignored => cases hc

/-- Any other action leaves the stored manifest alone: it is ignored or rejected. -/
theorem applyWebhookActionToManifest_of_not_changes (codec : ManifestCodec Text) (yaml text : Text)
    {productionBranch : String} {action : WebhookAction}
    (hc : action.changes productionBranch = false) :
    applyWebhookActionToManifest codec yaml action productionBranch ≠ .ok (some text) := by
  cases action with
  | buildTrigger branch commitSha =>
    by_cases hb : branch = productionBranch
    · have hs : trim commitSha = "" := by simpa [WebhookAction.changes, hb] using hc
      simp [applyWebhookActionToManifest, hb, withBuildTrigger, nonEmpty, hs, bind, Except.bind,
        Except.map]
    · simp [applyWebhookActionToManifest, hb]
  | previewCreate prNumber branch commitSha =>
    by_cases hb : trim branch = ""
    · simp [applyWebhookActionToManifest, withPreviewCreate, nonEmpty, hb, bind, Except.bind,
        Except.map]
    · have hs : trim commitSha = "" := by simpa [WebhookAction.changes, hb] using hc
      simp [applyWebhookActionToManifest, withPreviewCreate, nonEmpty, hb, hs, bind, Except.bind,
        Except.map]
  | previewDelete prNumber => cases hc
  | tagRelease tag commitSha => simp [applyWebhookActionToManifest]
  | ignored => simp [applyWebhookActionToManifest]

end ReinhardtCloud.Dashboard

import ReinhardtCloud.Base.Affixes
import ReinhardtCloud.Base.Characters
import ReinhardtCloud.Operator.BuildRequests
import ReinhardtCloud.Operator.IngressHosts
import ReinhardtCloud.Operator.Migration

/-!
# The spec of a preview

Library `Operator`. `build_preview_spec` with the host it fills in from a template
(`crates/reinhardt-cloud-operator/src/resources/preview.rs:60–232`), against the image that the
build pushes and the host that the parent's own Ingress has. Of the spec's fields `features`,
`image_pull_secrets`, `storage`, `infrastructure` and the TLS settings are left out.
-/

namespace ReinhardtCloud.Operator

open ReinhardtCloud.Base

/-! ## Hosts, `preview.rs:60–111` -/

/-- What `dns_safe_label` takes a character for. -/
def labelChar (c : Char) : Option Char :=
  if c.isAlphanum then some c
  else if c = '-' || c = '_' || c = '.' || c = '/' then some '-'
  else none

/-- The loop of `dns_safe_label`. -/
def labelLoop (label : List Char) (previousDash : Bool) : List Char → List Char
  | [] => label
  | c :: rest =>
    match labelChar c with
    | none => labelLoop label previousDash rest
    | some c =>
      if c = '-' && (label.isEmpty || previousDash) then labelLoop label previousDash rest
      else if label.length = 63 then label
      else labelLoop (label ++ [c]) (c = '-') rest

/-- `dns_safe_label`, `preview.rs:76–111`. -/
def dnsSafeLabel (value : String) : String :=
  let label := (labelLoop [] false (value.toList.flatMap toLowercase)).rdropWhile (· = '-')
  if label.isEmpty then "branch" else String.ofList label

/-- `preview_ingress_host`, `preview.rs:63–74`. -/
def previewIngressHost (template projectName prNumber branch : String) : String :=
  let branch := dnsSafeLabel branch
  replaceAll "\x7bbranch\x7d" branch (replaceAll "\x7bpr_number\x7d" prNumber
    (replaceAll "\x7bapp\x7d" projectName template))

/-! ## Specs, `preview.rs:113–232` -/

/-- `ServicesSpec`, `spec.rs:190–200`. -/
structure ServicesSpec where
  port : Option Int
  targetPort : Option Int
  ingressHost : Option String
  deriving DecidableEq

/-- `PreviewOverrides`, `source.rs`. -/
structure PreviewOverrides where
  replicas : Option Int
  database : Option Bool
  cache : Option Bool
  deriving DecidableEq

/-- `PreviewBudget`, `source.rs`: the cap on replicas. -/
structure PreviewBudget where
  maxReplicas : Option Int
  deriving DecidableEq

/-- A parent Project with its `services` as one value, and its preview's overrides and budget. -/
structure PreviewParent where
  project : Project
  services : Option ServicesSpec
  overrides : Option PreviewOverrides
  budget : Option PreviewBudget
  ingressHost_eq : project.spec.ingressHost = services.bind ServicesSpec.ingressHost
  servicePort_eq : project.spec.servicePort = services.bind ServicesSpec.port
  serviceTargetPort_eq : project.spec.serviceTargetPort = services.bind ServicesSpec.targetPort

/-- `source.build.registry`. -/
def PreviewParent.registry (parent : PreviewParent) : Option String :=
  (parent.project.spec.source.bind fun s ↦ s.build).bind fun b ↦ b.registry

/-- `source.preview.url_template`. -/
def PreviewParent.urlTemplate (parent : PreviewParent) : Option String :=
  (parent.project.spec.source.bind fun s ↦ s.preview).bind fun p ↦ p.urlTemplate

/-- The branch of a preview, `preview.rs:173–181`. -/
def PreviewParent.branch (parent : PreviewParent) (branchOverride : Option String) : String :=
  ((branchOverride.filter fun branch ↦ !isBlank branch).or
    (parent.project.spec.source.bind fun s ↦ s.branch)).getD "main"

/-- Its replicas, `preview.rs:144–151`. -/
def PreviewParent.replicas (parent : PreviewParent) : Option Int :=
  let requested := ((parent.overrides.bind fun o ↦ o.replicas).or (some 1)).getD 1
  match parent.budget.bind fun b ↦ b.maxReplicas with
  | some max => some (min requested max)
  | none => some requested

/-- Its host, `preview.rs:183–185`. -/
def PreviewParent.ingressHost (parent : PreviewParent) (prNumber : String)
    (branchOverride : Option String) : Option String :=
  parent.urlTemplate.map fun template ↦
    previewIngressHost template (previewProjectName parent.project.name prNumber) prNumber
      (parent.branch branchOverride)

/-- `build_preview_spec`, `preview.rs:122–232`. -/
def buildPreviewProjectSpec (parent : PreviewParent) (prNumber imageTag : String)
    (branchOverride : Option String) : Except Error ProjectSpec :=
  match parent.registry with
  | none => .error (.missingField "source.build.registry")
  | some registry =>
    let parentSpec := parent.project.spec
    let withDatabase := parent.overrides.any fun o ↦ o.database = some true
    let withCache := parent.overrides.any fun o ↦ o.cache = some true
    let services := parent.services.map fun s ↦
      { s with ingressHost := (parent.ingressHost prNumber branchOverride).or s.ingressHost }
    .ok {
      image := s!"{registry}:{imageTag}"
      replicas := parent.replicas
      database := if withDatabase then parentSpec.database else none
      databaseInstanceClass := if withDatabase then parentSpec.databaseInstanceClass else none
      databaseStorageGb := if withDatabase then parentSpec.databaseStorageGb else none
      databaseVersion := if withDatabase then parentSpec.databaseVersion else none
      cache := withCache && parentSpec.cache
      worker := parentSpec.worker
      authJwt := parentSpec.authJwt
      health := parentSpec.health
      servicePort := services.bind ServicesSpec.port
      serviceTargetPort := services.bind ServicesSpec.targetPort
      ingressHost := services.bind ServicesSpec.ingressHost
      env := parentSpec.env
      pages := parentSpec.pages
      isolation := parentSpec.isolation
      isolationNetwork := parentSpec.isolationNetwork
      deletionPolicy := .delete
      introspect := none
      source := none
      scale := none
      mail := false
      plugins := none
      serviceAccount := none
      tenant := none }

variable {parent : PreviewParent} {prNumber imageTag : String} {branchOverride : Option String}
  {spec : ProjectSpec}

/-- A preview has a spec exactly when its parent has a registry. -/
theorem buildPreviewProjectSpec_ok_iff :
    (∃ spec, buildPreviewProjectSpec parent prNumber imageTag branchOverride = .ok spec) ↔
      parent.registry.isSome = true := by
  unfold buildPreviewProjectSpec
  cases parent.registry with
  | none => exact iff_of_false (fun ⟨_, h⟩ ↦ nomatch h) Bool.false_ne_true
  | some registry => exact iff_of_true ⟨_, rfl⟩ rfl

/-- Its image is the one that the source build expects of it. -/
theorem image_buildPreviewProjectSpec
    (h : buildPreviewProjectSpec parent prNumber imageTag branchOverride = .ok spec) :
    buildPreviewSpec parent.project imageTag = .ok spec.image := by
  have hregistry : ((parent.project.spec.source.bind fun s ↦ s.build).bind fun b ↦ b.registry) =
      parent.registry := rfl
  rw [buildPreviewSpec, hregistry]
  rw [buildPreviewProjectSpec] at h
  cases hsome : parent.registry with
  | none =>
    rw [hsome] at h
    cases h
  | some registry =>
    rw [hsome] at h
    cases h
    rfl

/-- Its host is the filled-in template, or the parent's own where there is none. -/
theorem ingressHost_buildPreviewProjectSpec
    (h : buildPreviewProjectSpec parent prNumber imageTag branchOverride = .ok spec) {host : String}
    (hhost : parent.project.spec.ingressHost = some host) :
    spec.ingressHost = some ((parent.ingressHost prNumber branchOverride).getD host) := by
  rw [parent.ingressHost_eq] at hhost
  obtain ⟨services, hservices, hhost⟩ := Option.bind_eq_some_iff.mp hhost
  rw [buildPreviewProjectSpec] at h
  cases hsome : parent.registry with
  | none =>
    rw [hsome] at h
    cases h
  | some registry =>
    rw [hsome] at h
    cases h
    simp only [hservices, Option.map_some, Option.bind_some, hhost]
    cases parent.ingressHost prNumber branchOverride with
    | none => rfl
    | some rendered => rfl

/-! ## The image of a preview -/

/-- The `--destination` arguments of a Kaniko Job. -/
def Job.destinations (job : Job) : List String :=
  job.args.filter fun arg ↦ startsWith arg "--destination="

/-- Of a Kaniko Job's arguments one is a destination. -/
theorem filter_kanikoArgs (branch url dockerfile context destination : String)
    (buildArgs : StringMap) :
    ([s!"--git=branch={branch},url={url}", s!"--dockerfile={dockerfile}",
        s!"--context=dir://{context}", s!"--destination={destination}", "--cache=true"] ++
      buildArgs.map fun kv ↦ s!"--build-arg={kv.1}={kv.2}").filter
        (fun arg ↦ startsWith arg "--destination=") = ["--destination=" ++ destination] := by
  have hgit : startsWith s!"--git=branch={branch},url={url}" "--destination=" = false := by
    simp [startsWith, toString, List.isPrefixOf]
  have hdockerfile : startsWith s!"--dockerfile={dockerfile}" "--destination=" = false := by
    simp [startsWith, toString, List.isPrefixOf]
  have hcontext : startsWith s!"--context=dir://{context}" "--destination=" = false := by
    simp [startsWith, toString, List.isPrefixOf]
  have hdestination : startsWith s!"--destination={destination}" "--destination=" = true := by
    simp [startsWith, toString]
  have hcache : startsWith "--cache=true" "--destination=" = false := by
    simp [startsWith, List.isPrefixOf]
  have hbuildArgs : (buildArgs.map fun kv ↦ s!"--build-arg={kv.1}={kv.2}").filter
      (fun arg ↦ startsWith arg "--destination=") = [] := by
    rw [List.filter_eq_nil_iff]
    intro arg harg
    obtain ⟨kv, -, rfl⟩ := List.mem_map.mp harg
    simp [startsWith, toString, List.isPrefixOf]
  simp only [List.filter_append, List.filter_cons, hgit, hdockerfile, hcontext, hdestination,
    hcache, hbuildArgs, Bool.false_eq_true, ↓reduceIte, List.filter_nil, List.append_nil]
  rfl

/-- A Kaniko Job has one destination, the image reference of its tag. -/
theorem destinations_buildKanikoJobForBranch {app : Project} {branch : Option String} {job : Job}
    (h : buildKanikoJobForBranch app imageTag branch = .ok job) :
    ∃ destination, builtImageReference app imageTag = .ok destination ∧
      job.destinations = ["--destination=" ++ destination] := by
  obtain ⟨-, destination, hdestination, branch, url, dockerfile, context, buildArgs, hargs⟩ :=
    buildKanikoJobForBranch_ok h
  refine ⟨destination, hdestination, ?_⟩
  rw [Job.destinations, hargs]
  exact filter_kanikoArgs branch url dockerfile context destination buildArgs

/-- The Kaniko Job of a derived build pushes the recorded image. -/
theorem destinations_of_derive {app : Project} {b : BuildStatus} {job : Job}
    (hderive : deriveNewBuildStatus app = .ok (some b)) (h : buildJobForStatus app b = .ok job) :
    job.destinations = ["--destination=" ++ b.image] := by
  have himage := (derivedBuild_of_derive hderive).image
  obtain ⟨branch, hbranch⟩ := buildJobForStatus_eq app b
  obtain ⟨destination, hdestination, hjob⟩ :=
    destinations_buildKanikoJobForBranch (hbranch.symm.trans h)
  cases himage.symm.trans hdestination
  exact hjob

/-- With a registry the derived image is the preview's. -/
theorem image_of_registry {b : BuildStatus}
    (hderive : deriveNewBuildStatus parent.project = .ok (some b)) {registry : String}
    (hregistry : parent.registry = some registry) :
    buildPreviewSpec parent.project b.imageTag = .ok b.image := by
  have himage := (derivedBuild_of_derive hderive).image
  unfold builtImageReference at himage
  obtain ⟨build, hbuild, hsome⟩ := Option.bind_eq_some_iff.mp hregistry
  obtain ⟨source, hsource, hbuild⟩ := Option.bind_eq_some_iff.mp hbuild
  have hbase : (source.build.bind fun b ↦ b.registry) = some registry := by
    rw [hbuild]
    exact hsome
  simp only [hsource, hbase, Option.getD_some] at himage
  have hpath : ((parent.project.spec.source.bind fun s ↦ s.build).bind fun b ↦ b.registry) =
      some registry := hregistry
  rw [buildPreviewSpec, hpath]
  exact himage

/-- A preview runs the image its build pushes exactly when its parent names a registry. -/
theorem preview_runs_built_image_iff {b : BuildStatus} (prNumber : String)
    (hderive : deriveNewBuildStatus parent.project = .ok (some b)) :
    ((∃ spec, buildPreviewProjectSpec parent prNumber b.imageTag b.branch = .ok spec ∧
        spec.image = b.image) ∧
      ∀ job, buildJobForStatus parent.project b = .ok job →
        job.destinations = ["--destination=" ++ b.image]) ↔
      parent.registry.isSome = true := by
  constructor
  · rintro ⟨⟨spec, hspec, -⟩, -⟩
    exact buildPreviewProjectSpec_ok_iff.mp ⟨spec, hspec⟩
  · intro hregistry
    obtain ⟨registry, hsome⟩ := Option.isSome_iff_exists.mp hregistry
    obtain ⟨spec, hspec⟩ : ∃ spec,
        buildPreviewProjectSpec parent prNumber b.imageTag b.branch = .ok spec :=
      buildPreviewProjectSpec_ok_iff.mpr hregistry
    have himage := (image_buildPreviewProjectSpec hspec).symm.trans
      (image_of_registry hderive hsome)
    exact ⟨⟨spec, hspec, Except.ok.inj himage⟩, fun _ ↦ destinations_of_derive hderive⟩

/-- A Project with previews that asks for the build of a pull request. -/
def previewedShop (registry urlTemplate ingressHost : Option String) : PreviewParent where
  project := {
    name := "shop"
    ns := some "team"
    uid := some 7
    resourceVersion := some 1
    annotations := ⟨some "0123456789", some "create", some "5", some "topic"⟩
    spec := {
      image := "ghcr.io/team/shop:1"
      ingressHost := ingressHost
      source := some ⟨"https://github.com/team/shop", none, none, some ⟨none, none, registry, []⟩,
        some ⟨true, none, urlTemplate⟩⟩ }
    status := none }
  services := some ⟨none, none, ingressHost⟩
  overrides := none
  budget := none
  ingressHost_eq := rfl
  servicePort_eq := rfl
  serviceTargetPort_eq := rfl

/-- The build derived from its annotations. -/
def shopBuild : BuildStatus where
  phase := .pending
  target := .preview
  trigger := "0123456789"
  jobName := "shop-build-pr-5-01234567"
  image := "ghcr.io/team/shop:pr-5-01234567"
  imageTag := "pr-5-01234567"
  previewName := some "shop-pr-5"
  prNumber := some "5"
  branch := some "topic"
  reason := some "BuildPending"
  message := some "Kaniko build Job has been accepted"

theorem preview_runs_built_image_iff_shop :
    ∃ spec, buildPreviewProjectSpec (previewedShop (some "ghcr.io/team/shop") none none) "5"
      shopBuild.imageTag shopBuild.branch = .ok spec ∧ spec.image = shopBuild.image := by
  have hderive : deriveNewBuildStatus
      (previewedShop (some "ghcr.io/team/shop") none none).project = .ok (some shopBuild) := rfl
  exact ((preview_runs_built_image_iff "5" hderive).mpr rfl).1

/-- Without a registry the build falls back to the image of the spec and the preview does not. -/
theorem preview_without_registry :
    deriveNewBuildStatus (previewedShop none none none).project = .ok (some shopBuild) ∧
      shopBuild.target = .preview ∧
      ¬ ((∃ spec, buildPreviewProjectSpec (previewedShop none none none) "5" shopBuild.imageTag
          shopBuild.branch = .ok spec ∧ spec.image = shopBuild.image) ∧
        ∀ job, buildJobForStatus (previewedShop none none none).project shopBuild = .ok job →
          job.destinations = ["--destination=" ++ shopBuild.image]) :=
  ⟨rfl, rfl, fun h ↦ by
    obtain ⟨⟨spec, hspec, -⟩, -⟩ := h
    cases hspec⟩

/-! ## The host of a preview -/

/-- Two hosts are one DNS name once the white space around them is cut off, as the Ingress step
does. -/
def SameIngressHost (a b : String) : Prop := SameHost (trim a) (trim b)

instance (a b : String) : Decidable (SameIngressHost a b) := inferInstanceAs (Decidable (_ = _))

/-- A preview's host differs from its parent's exactly when it has no spec for want of a registry,
or there is a template and what it says for this pull request differs. -/
theorem preview_host_differs_iff {host : String} (imageTag prNumber : String)
    (branchOverride : Option String) (hhost : parent.project.spec.ingressHost = some host) :
    (∀ spec previewHost,
        buildPreviewProjectSpec parent prNumber imageTag branchOverride = .ok spec →
        spec.ingressHost = some previewHost → ¬ SameIngressHost previewHost host) ↔
      parent.registry = none ∨ ∃ template, parent.urlTemplate = some template ∧
        ¬ SameIngressHost (previewIngressHost template
          (previewProjectName parent.project.name prNumber) prNumber
          (parent.branch branchOverride)) host := by
  by_cases hregistry : parent.registry = none
  · refine iff_of_true ?_ (.inl hregistry)
    intro spec _ hspec
    have hsome := buildPreviewProjectSpec_ok_iff.mp ⟨spec, hspec⟩
    rw [hregistry] at hsome
    cases hsome
  · obtain ⟨spec, hspec⟩ : ∃ spec,
        buildPreviewProjectSpec parent prNumber imageTag branchOverride = .ok spec :=
      buildPreviewProjectSpec_ok_iff.mpr (Option.isSome_iff_ne_none.mpr hregistry)
    have hspecHost := ingressHost_buildPreviewProjectSpec hspec hhost
    have honly : (∀ spec' previewHost,
        buildPreviewProjectSpec parent prNumber imageTag branchOverride = .ok spec' →
        spec'.ingressHost = some previewHost → ¬ SameIngressHost previewHost host) ↔
        ¬ SameIngressHost ((parent.ingressHost prNumber branchOverride).getD host) host := by
      constructor
      · intro h
        exact h spec _ hspec hspecHost
      · intro h spec' previewHost hspec' hhost'
        cases Except.ok.inj (hspec.symm.trans hspec')
        rw [Option.some_inj.mp (hhost'.symm.trans hspecHost)]
        exact h
    rw [honly, or_iff_right hregistry, PreviewParent.ingressHost]
    cases htemplate : parent.urlTemplate with
    | none =>
      refine iff_of_false (fun h ↦ h rfl) ?_
      rintro ⟨template, h, -⟩
      cases h
    | some template =>
      constructor
      · intro h
        exact ⟨template, rfl, h⟩
      · rintro ⟨template', htemplate', h⟩
        cases htemplate'
        exact h

/-- With a template of its own the preview has another host. -/
theorem preview_host_differs_iff_shop :
    ∃ spec, buildPreviewProjectSpec (previewedShop (some "ghcr.io/team/shop")
        (some "pr-\x7bpr_number\x7d.example.com") (some "shop.example.com")) "5" "pr-5-01234567"
        (some "topic") = .ok spec ∧
      spec.ingressHost = some "pr-5.example.com" ∧
        ¬ SameIngressHost "pr-5.example.com" "shop.example.com" := by
  have hhost : (previewedShop (some "ghcr.io/team/shop")
      (some "pr-\x7bpr_number\x7d.example.com")
      (some "shop.example.com")).project.spec.ingressHost = some "shop.example.com" := rfl
  have hdiffers := (preview_host_differs_iff "pr-5-01234567" "5" (some "topic") hhost).mpr
    (.inr ⟨_, rfl, by decide⟩)
  exact ⟨_, rfl, rfl, hdiffers _ _ rfl rfl⟩

/-- The Ingress of that Project. -/
def shopIngress : ListedIngress :=
  ⟨some "team", "shop", some ⟨some [⟨some "shop.example.com"⟩]⟩⟩

/-- Without a template a preview takes its parent's host over, and its own reconcile is rejected
because of the parent's Ingress. -/
theorem preview_inherits_host :
    (∃ spec, buildPreviewProjectSpec (previewedShop (some "ghcr.io/team/shop") none
        (some "shop.example.com")) "5" "pr-5-01234567" (some "topic") = .ok spec ∧
      ∃ previewHost, spec.ingressHost = some previewHost ∧
        SameIngressHost previewHost "shop.example.com" ∧
        ensureIngressHostAvailable (.ok [shopIngress])
          { (previewedShop none none none).project with
            name := "shop-pr-5"
            spec := spec } "team-shop-preview" previewHost ≠ .ok ()) ∧
      ¬ ∀ spec previewHost, buildPreviewProjectSpec (previewedShop (some "ghcr.io/team/shop") none
          (some "shop.example.com")) "5" "pr-5-01234567" (some "topic") = .ok spec →
        spec.ingressHost = some previewHost → ¬ SameIngressHost previewHost "shop.example.com" := by
  refine ⟨⟨_, rfl, _, rfl, rfl, fun h ↦ nomatch h⟩, fun h ↦ ?_⟩
  exact h _ _ rfl rfl rfl

end ReinhardtCloud.Operator

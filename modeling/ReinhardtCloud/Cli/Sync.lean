import ReinhardtCloud.Cli.CloudTomlGenerator
import ReinhardtCloud.Cli.PagesImages

/-!
# Synchronizing the configuration

Library `Cli`. The command `sync` (`crates/reinhardt-cloud-cli/src/commands/sync.rs:26–139`) with
what it does to the pages section (`dockerfile_generator.rs:59–97,206–274`): which settings of an
existing `reinhardt-cloud.toml` survive it, and that it changes nothing a second time.
-/

namespace ReinhardtCloud.Cli

open ReinhardtCloud.Base

/-! ## The Dockerfile and the pages section -/

/-- `SkipReason`, `dockerfile_generator.rs:59–68`. -/
inductive SkipReason where
  | none
  | customDockerfile
  | alreadyExists
  deriving DecidableEq

/-- `is_default_dockerfile_path`, `dockerfile_generator.rs:70–73`. -/
def isDefaultDockerfilePath (path : String) : Bool := ["Dockerfile", "./Dockerfile"].contains path

/-- `should_skip_dockerfile`, `dockerfile_generator.rs:75–97`. -/
def shouldSkipDockerfile (config : ReinhardtCloudToml) (dockerfileExists force : Bool) :
    SkipReason :=
  if (config.build.bind BuildSection.dockerfile).any fun path ↦
      path ≠ "" && !isDefaultDockerfilePath path then .customDockerfile
  else if dockerfileExists && !force then .alreadyExists
  else .none

/-- `validate_build_context`, `dockerfile_generator.rs:244–258`. -/
def validateBuildContext (config : ReinhardtCloudToml) : Except String Unit :=
  if (config.build.bind BuildSection.context).any fun context ↦
      context.isEmpty || !(pathComponents context.toList).all (· = ['.']) then
    .error ("generated Dockerfiles require the workspace root build context ('.'); provide a " ++
      "custom Dockerfile for a different source.build.context")
  else .ok ()

/-- `validate_pages_runtime_image`, `dockerfile_generator.rs:263–274`. -/
def validatePagesRuntimeImage (config : ReinhardtCloudToml) : Except String Unit :=
  if (config.build.bind BuildSection.baseImage).isSome then
    .error ("generated Pages images require the default runtime base image because the " ++
      "operator seeds their static publication with `cp`; remove source.build.base_image (for " ++
      "example a distroless image), or provide a custom Dockerfile and set [pages].prebuilt " ++
      "explicitly")
  else .ok ()

/-- The text of the error for variables that conflict with a publication. A conflicting key has
only letters, digits and underscores, so that its `Debug` text is the key in quotes. -/
def conflictingEnvError (conflicts : List String) (root : StaticRoot) : String :=
  "[env] overrides [" ++ ", ".intercalate (conflicts.map fun key ↦ "\"" ++ key ++ "\"") ++
    "] conflict with the generated Pages publication (" ++ root.runtimePath ++ " at " ++ root.url ++
    ", production profile); remove them or set them to those values, or provide a custom Dockerfile"

/-- The section with the root, the URL and the flag of a publication. -/
def PagesSection.publishedAt (pages : PagesSection) (root : StaticRoot) : PagesSection :=
  { pages with
    staticRoot := some root.runtimePath
    staticUrl := some root.url
    prebuilt := some true }

/-- `configure_pages`, `dockerfile_generator.rs:206–242`. -/
def configurePages (tree : ProjectTree) (metadata : ProjectMetadata)
    (config : ReinhardtCloudToml) (dockerfileExists force : Bool) :
    Except String ReinhardtCloudToml :=
  if shouldSkipDockerfile config dockerfileExists force ≠ .none then .ok config
  else do
    validateBuildContext config
    if metadata.signals.pages then
      validatePagesRuntimeImage config
      let root ← readStaticRoot tree (config.build.elim [] fun build ↦ build.buildArgs.entries)
      let conflicts :=
        Operator.conflictingPublicationEnv root.runtimePath root.url config.env.entries
      if !conflicts.isEmpty then throw (conflictingEnvError conflicts root)
      return { config with pages := some ((config.pages.getD {}).publishedAt root) }
    else return { config with pages := none }

/-! ## The command -/

/-- The sections of an existing block over those of a generated one, `sync.rs:113–124`. -/
def InfrastructureSpec.overlay (existing generated : InfrastructureSpec) : InfrastructureSpec where
  postgres := existing.postgres.or generated.postgres
  buckets := existing.buckets.or generated.buckets
  dns := existing.dns.or generated.dns
  secrets := existing.secrets.or generated.secrets

/-- `merge_existing_infrastructure`, `sync.rs:99–127`. -/
def mergeExistingInfrastructure (existing generated : ReinhardtCloudToml) :
    Except String ReinhardtCloudToml :=
  match existing.infrastructure with
  | none => .ok generated
  | some infrastructure => do
    validationMessage infrastructure
    match generated.infrastructure with
    | none => return { generated with infrastructure := some infrastructure }
    | some derived =>
      return { generated with infrastructure := some (infrastructure.overlay derived) }

/-- What `sync` reads of a project besides the two files: its manifests, the database settings, the
directory, the Dockerfile that `collect_signals` and `generate` make for a configuration, and what
writing the files fails with, if it does. -/
structure ProjectState where
  above : List (Option Toml)
  manifest : Toml
  database : Option DatabaseConfig
  tree : ProjectTree
  dockerfile : ProjectMetadata → ReinhardtCloudToml → Except String String
  writeFault : Option String

/-- `reinhardt-cloud.toml` and the Dockerfile. -/
structure SyncFiles (Text : Type) where
  config : Option Text
  dockerfile : Option String
  deriving DecidableEq

/-- The configuration that `sync` writes, `sync.rs:39–50`. -/
def syncedConfig (project : ProjectState) (metadata : ProjectMetadata)
    (existing : ReinhardtCloudToml) (dockerfileExists force : Bool) :
    Except String ReinhardtCloudToml := do
  let config ← generateConfigPreservingExplicitInfrastructure metadata project.database
    existing.infrastructure
  let config ← mergeExistingInfrastructure existing config
  configurePages project.tree metadata
    { config with source := existing.source, pages := existing.pages } dockerfileExists force

/-- The Dockerfile that `sync` writes, `sync.rs:53–61`. -/
def syncedDockerfile (project : ProjectState) (metadata : ProjectMetadata)
    (config : ReinhardtCloudToml) (dockerfileExists force : Bool) :
    Except String (Option String) :=
  match shouldSkipDockerfile config dockerfileExists force with
  | .none => (project.dockerfile metadata config).map some
  | .customDockerfile | .alreadyExists => .ok none

/-- `execute`, `sync.rs:27–97`. -/
def sync {Text : Type} (codec : CloudTomlCodec Text) (project : ProjectState) (force : Bool)
    (files : SyncFiles Text) : Except String (SyncFiles Text) := do
  let some text := files.config |
    throw "reinhardt-cloud.toml not found. Run `reinhardt-cloud init` first."
  let existing ← codec.ofText text
  let metadata ← detectProject project.above project.manifest
  let dockerfileExists := files.dockerfile.isSome
  let config ← syncedConfig project metadata existing dockerfileExists force
  let dockerfile ← syncedDockerfile project metadata config dockerfileExists force
  if let some error := project.writeFault then throw error
  return {
    config := some (generateReinhardtCloudTomlString codec config)
    dockerfile := dockerfile.or files.dockerfile }

/-! ## The infrastructure -/

section Infrastructure

variable {metadata : ProjectMetadata} {database : Option DatabaseConfig}
  {existing config : ReinhardtCloudToml} {infrastructure : Option InfrastructureSpec}

theorem validationMessage_eq_ok_iff {spec : InfrastructureSpec} :
    validationMessage spec = .ok () ↔ spec.errors = [] := by
  rw [validationMessage, InfrastructureSpec.validate]
  cases h : spec.errors with
  | nil => exact iff_of_true rfl rfl
  | cons error rest => exact iff_of_false (fun h ↦ by cases h) (List.cons_ne_nil _ _)

namespace InfrastructureSpec

/-- A block has no errors if and only if its sections have none. -/
theorem errors_eq_nil_iff {spec : InfrastructureSpec} :
    spec.errors = [] ↔ (spec.postgres.map PostgresSpec.errors).getD [] = [] ∧
      (spec.buckets.getD []).flatMap BucketSpec.errors = [] ∧
      (spec.dns.getD []).flatMap DnsRecordSpec.errors = [] ∧
      (spec.secrets.getD []).flatMap SecretSpec.errors = [] := by
  rw [errors, List.append_eq_nil_iff, List.append_eq_nil_iff, List.append_eq_nil_iff, and_assoc,
    and_assoc]

theorem errors_overlay {spec derived : InfrastructureSpec} (h : spec.errors = [])
    (hderived : derived.errors = []) : (spec.overlay derived).errors = [] := by
  obtain ⟨hpostgres, hbuckets, hdns, hsecrets⟩ := errors_eq_nil_iff.mp h
  obtain ⟨hpostgres', hbuckets', hdns', hsecrets'⟩ := errors_eq_nil_iff.mp hderived
  have hor {α : Type} {x y : Option α} {f : Option α → List String} (hx : f x = [])
      (hy : f y = []) : f (x.or y) = [] := by
    cases x with
    | none => exact hy
    | some a => exact hx
  apply errors_eq_nil_iff.mpr
  exact ⟨hor (f := fun x ↦ (x.map PostgresSpec.errors).getD []) hpostgres hpostgres',
    hor (f := fun x ↦ (x.getD []).flatMap BucketSpec.errors) hbuckets hbuckets',
    hor (f := fun x ↦ (x.getD []).flatMap DnsRecordSpec.errors) hdns hdns',
    hor (f := fun x ↦ (x.getD []).flatMap SecretSpec.errors) hsecrets hsecrets'⟩

theorem overlay_self (spec : InfrastructureSpec) : spec.overlay spec = spec := by
  simp only [overlay, Option.or_self]

theorem overlay_overlay (spec derived : InfrastructureSpec) :
    (spec.overlay derived).overlay derived = spec.overlay derived := by
  simp only [overlay, Option.or_assoc, Option.or_self]

end InfrastructureSpec

/-- The infrastructure that `sync` writes for the derived and the existing one. -/
def syncInfrastructure (derived : Except DerivationError (Option InfrastructureSpec))
    (existing : Option InfrastructureSpec) : Except String (Option InfrastructureSpec) := do
  if let some infrastructure := existing then
    validationMessage infrastructure
  match derived, existing with
  | .ok generated, _ => return Option.merge InfrastructureSpec.overlay existing generated
  | .error error, none => throw error.display
  | .error _, some infrastructure => return some infrastructure

/-- The generated configuration with the existing infrastructure merged into it. -/
theorem merge_generated : (do
    let config ← generateConfigPreservingExplicitInfrastructure metadata database
      existing.infrastructure
    mergeExistingInfrastructure existing config) =
    (syncInfrastructure (derivedInfrastructure metadata database) existing.infrastructure).map
      (generated metadata database) := by
  unfold generateConfigPreservingExplicitInfrastructure mergeExistingInfrastructure
    syncInfrastructure generateConfig
  cases existing.infrastructure with
  | none =>
    cases derivedInfrastructure metadata database with
    | error error => rfl
    | ok derived => cases derived <;> rfl
  | some infrastructure =>
    show (validationMessage infrastructure >>= _) >>= _ =
      Except.map _ (validationMessage infrastructure >>= _)
    cases hvalid : validationMessage infrastructure with
    | error error => rfl
    | ok _ =>
      cases derivedInfrastructure metadata database with
      | error error =>
        show (validationMessage infrastructure >>= _) = _
        rw [hvalid]
        exact congrArg (fun spec ↦ Except.ok (generated metadata database (some spec)))
          infrastructure.overlay_self
      | ok derived =>
        show (validationMessage infrastructure >>= _) = _
        rw [hvalid]
        cases derived <;> rfl

theorem mapError_eq_ok_iff {ε ε' α : Type} {f : ε → ε'} {x : Except ε α} {a : α} :
    x.mapError f = .ok a ↔ x = .ok a := by
  cases x with
  | error error => exact iff_of_false (fun h ↦ by cases h) fun h ↦ by cases h
  | ok b => exact ⟨fun h ↦ by cases h; rfl, fun h ↦ by cases h; rfl⟩

/-- A block that is derived has passed its checks. -/
theorem errors_derived {input : InfrastructureDerivationInput} {derived : InfrastructureSpec}
    (h : deriveInfrastructureSpec input = .ok (some derived)) : derived.errors = [] := by
  unfold deriveInfrastructureSpec at h
  cases hexplicit : input.explicit with
  | some explicit =>
    rw [hexplicit] at h
    obtain ⟨_, hvalid, h⟩ := Operator.bind_eq_ok.mp h
    cases h
    exact validationMessage_eq_ok_iff.mp (mapError_eq_ok_iff.mp hvalid)
  | none =>
    rw [hexplicit] at h
    obtain ⟨postgres, -, h⟩ := Operator.bind_eq_ok.mp h
    obtain ⟨buckets, -, h⟩ := Operator.bind_eq_ok.mp h
    dsimp only at h
    split at h
    · cases h
    · obtain ⟨_, hvalid, h⟩ := Operator.bind_eq_ok.mp h
      cases h
      exact validationMessage_eq_ok_iff.mp (mapError_eq_ok_iff.mp hvalid)

/-- What is written is written again. -/
theorem syncInfrastructure_again {derived : Except DerivationError (Option InfrastructureSpec)}
    (hderived : ∀ spec, derived = .ok (some spec) → spec.errors = [])
    {existing written : Option InfrastructureSpec}
    (h : syncInfrastructure derived existing = .ok written) :
    syncInfrastructure derived written = .ok written := by
  unfold syncInfrastructure at h
  have hagain {spec : InfrastructureSpec} (hspec : spec.errors = [])
      (hmerge : ∀ generated, derived = .ok generated →
        Option.merge InfrastructureSpec.overlay (some spec) generated = some spec) :
      syncInfrastructure derived (some spec) = .ok (some spec) := by
    show (validationMessage spec >>= _) = _
    rw [validationMessage_eq_ok_iff.mpr hspec]
    cases derived with
    | error error => rfl
    | ok generated => exact congrArg Except.ok (hmerge generated rfl)
  cases existing with
  | none =>
    cases derived with
    | error error => cases h
    | ok generated =>
      cases generated with
      | none =>
        cases h
        rfl
      | some spec =>
        cases h
        apply hagain (hderived spec rfl)
        rintro _ ⟨⟩
        exact congrArg some spec.overlay_self
  | some infrastructure =>
    obtain ⟨_, hvalid, h⟩ := Operator.bind_eq_ok.mp h
    have hvalid := validationMessage_eq_ok_iff.mp hvalid
    cases derived with
    | error error =>
      cases h
      apply hagain hvalid
      rintro _ ⟨⟩
    | ok generated =>
      cases generated with
      | none =>
        cases h
        apply hagain hvalid
        rintro _ ⟨⟩
        rfl
      | some spec =>
        cases h
        apply hagain (InfrastructureSpec.errors_overlay hvalid (hderived spec rfl))
        rintro _ ⟨⟩
        exact congrArg some (infrastructure.overlay_overlay spec)

/-- An existing section is written as it is. -/
theorem syncInfrastructure_keeps {derived : Except DerivationError (Option InfrastructureSpec)}
    {existing written : Option InfrastructureSpec}
    (h : syncInfrastructure derived existing = .ok written) {β : Type}
    {part : InfrastructureSpec → Option β}
    (hover : ∀ spec generated : InfrastructureSpec,
      part (spec.overlay generated) = (part spec).or (part generated))
    {value : β} (hvalue : existing.bind part = some value) :
    written.bind part = some value := by
  cases existing with
  | none => cases hvalue
  | some infrastructure =>
    obtain ⟨_, -, h⟩ := Operator.bind_eq_ok.mp h
    rw [Option.bind_some] at hvalue
    cases derived with
    | error error =>
      cases h
      exact hvalue
    | ok generated =>
      cases generated with
      | none =>
        cases h
        exact hvalue
      | some spec =>
        cases h
        show part (infrastructure.overlay spec) = some value
        rw [hover, hvalue, Option.some_or]

end Infrastructure

/-! ## The pages section -/

section Pages

variable {tree : ProjectTree} {metadata : ProjectMetadata} {config written : ReinhardtCloudToml}
  {dockerfileExists force : Bool}

/-- The section that a generated Dockerfile goes with: none without the pages feature, otherwise
the existing one with the declared publication. -/
inductive PagesConfigured (tree : ProjectTree) (metadata : ProjectMetadata)
    (config : ReinhardtCloudToml) : Option PagesSection → Prop where
  | absent (signal : metadata.signals.pages = false) : PagesConfigured tree metadata config none
  | published (signal : metadata.signals.pages = true)
      (image : validatePagesRuntimeImage config = .ok ()) {root : StaticRoot}
      (declared : readStaticRoot tree
        (config.build.elim [] fun build ↦ build.buildArgs.entries) = .ok root)
      (compatible : Operator.conflictingPublicationEnv root.runtimePath root.url
        config.env.entries = []) :
      PagesConfigured tree metadata config (some ((config.pages.getD {}).publishedAt root))

theorem configurePages_of_skip (h : shouldSkipDockerfile config dockerfileExists force ≠ .none) :
    configurePages tree metadata config dockerfileExists force = .ok config := by
  rw [configurePages, if_pos h]

theorem configurePages_eq_ok_iff
    (hskip : shouldSkipDockerfile config dockerfileExists force = .none) :
    configurePages tree metadata config dockerfileExists force = .ok written ↔
      validateBuildContext config = .ok () ∧
        ∃ pages, PagesConfigured tree metadata config pages ∧
          written = { config with pages := pages } := by
  rw [configurePages, if_neg (not_not.mpr hskip), Operator.bind_eq_ok]
  constructor
  · rintro ⟨_, hcontext, h⟩
    refine ⟨hcontext, ?_⟩
    split at h
    · next hsignal =>
      obtain ⟨_, himage, h⟩ := Operator.bind_eq_ok.mp h
      obtain ⟨root, hroot, h⟩ := Operator.bind_eq_ok.mp h
      dsimp only at h
      split at h
      · cases h
      · next hconflicts =>
        cases h
        rw [Bool.not_eq_true, Bool.not_eq_false', List.isEmpty_iff] at hconflicts
        exact ⟨_, .published hsignal himage hroot hconflicts, rfl⟩
    · next hsignal =>
      cases h
      exact ⟨none, .absent (Bool.eq_false_of_not_eq_true hsignal), rfl⟩
  · rintro ⟨hcontext, pages, hpages, rfl⟩
    refine ⟨(), hcontext, ?_⟩
    cases hpages with
    | absent signal => rw [signal, if_neg Bool.false_ne_true]; rfl
    | published signal image declared compatible =>
      rw [if_pos signal, image]
      show (readStaticRoot tree _ >>= _) = _
      rw [declared]
      show (if !(Operator.conflictingPublicationEnv _ _ _).isEmpty then _ else _) = _
      rw [compatible]
      rfl

/-- Only the pages section can change, and it does not where no Dockerfile is generated. -/
theorem configurePages_frame
    (h : configurePages tree metadata config dockerfileExists force = .ok written) :
    written = { config with pages := written.pages } ∧
      (shouldSkipDockerfile config dockerfileExists force ≠ .none →
        written.pages = config.pages) := by
  by_cases hskip : shouldSkipDockerfile config dockerfileExists force = .none
  · obtain ⟨-, pages, -, rfl⟩ := (configurePages_eq_ok_iff hskip).mp h
    exact ⟨rfl, fun h ↦ absurd hskip h⟩
  · rw [configurePages_of_skip hskip] at h
    cases h
    exact ⟨rfl, fun _ ↦ rfl⟩

/-- The section is written again. -/
theorem pagesConfigured_again {pages : Option PagesSection}
    (h : PagesConfigured tree metadata config pages) :
    PagesConfigured tree metadata { config with pages := pages } pages := by
  cases h with
  | absent signal => exact .absent signal
  | @published signal image root declared compatible =>
    show PagesConfigured tree metadata _
      (some (((config.pages.getD {}).publishedAt root).publishedAt root))
    apply PagesConfigured.published signal
    · exact image
    · exact declared
    · exact compatible

theorem skip_of_skip {exists' : Bool} (hexists : dockerfileExists = true → exists' = true)
    (h : shouldSkipDockerfile config exists' force = .none) :
    shouldSkipDockerfile config dockerfileExists force = .none := by
  rw [shouldSkipDockerfile] at h ⊢
  split at h
  · cases h
  · next hcustom =>
    rw [if_neg hcustom]
    split at h
    · cases h
    · next hexisting =>
      apply if_neg
      intro hboth
      rw [Bool.and_eq_true] at hboth hexisting
      exact hexisting ⟨hexists hboth.1, hboth.2⟩

/-- The pages section is written again, where a Dockerfile that was there still is. -/
theorem configurePages_again
    (h : configurePages tree metadata config dockerfileExists force = .ok written)
    {exists' : Bool} (hexists : dockerfileExists = true → exists' = true) :
    configurePages tree metadata written exists' force = .ok written := by
  by_cases hagain : shouldSkipDockerfile written exists' force = .none
  · obtain ⟨hframe, -⟩ := configurePages_frame h
    have hskip : shouldSkipDockerfile config dockerfileExists force = .none := by
      apply skip_of_skip hexists
      rw [hframe] at hagain
      exact hagain
    obtain ⟨hcontext, pages, hpages, rfl⟩ := (configurePages_eq_ok_iff hskip).mp h
    exact (configurePages_eq_ok_iff hagain).mpr
      ⟨hcontext, pages, pagesConfigured_again hpages, rfl⟩
  · exact configurePages_of_skip hagain

/-- The integers of the written pages section are those of the existing one. -/
theorem representable_configurePages
    (h : configurePages tree metadata config dockerfileExists force = .ok written)
    (hconfig : config.Representable) : written.Representable := by
  by_cases hskip : shouldSkipDockerfile config dockerfileExists force = .none
  · obtain ⟨-, pages, hpages, rfl⟩ := (configurePages_eq_ok_iff hskip).mp h
    cases hpages with
    | absent signal =>
      rintro _ ⟨⟩
    | published signal image declared compatible =>
      rintro _ ⟨⟩ age hage
      rcases hpages : config.pages with _ | pages
      · rw [hpages] at hage
        cases hage
      · rw [hpages] at hage
        exact hconfig pages hpages age hage
  · rw [configurePages_of_skip hskip] at h
    cases h
    exact hconfig

end Pages

/-! ## Settings -/

/-- A setting that is there has the same value afterwards. -/
def Kept {β : Type} (setting : ReinhardtCloudToml → Option β)
    (existing written : ReinhardtCloudToml) : Prop :=
  ∀ value ∈ setting existing, setting written = some value

namespace ReinhardtCloudToml

variable (config : ReinhardtCloudToml)

def image : Option String := some config.app.image
def envEntry (key : String) : Option String := config.env.entries.lookup key
def ingressHost : Option String := config.services.bind ServicesSection.ingressHost
def tls : Option ServiceTlsSection := config.services.bind ServicesSection.tls
def minReplicas : Option Int32 := config.scale.bind ScaleSection.minReplicas
def maxReplicas : Option Int32 := config.scale.bind ScaleSection.maxReplicas
def storageBucket : Option String := config.storage.bind StorageSection.bucket
def databaseVersion : Option String := config.database.bind DatabaseSection.version
def instanceClass : Option String := config.database.bind DatabaseSection.instanceClass
def storageGb : Option Int32 := config.database.bind DatabaseSection.storageGb
def postgres : Option PostgresSpec := config.infrastructure.bind InfrastructureSpec.postgres
def buckets : Option (List BucketSpec) := config.infrastructure.bind InfrastructureSpec.buckets
def dns : Option (List DnsRecordSpec) := config.infrastructure.bind InfrastructureSpec.dns
def secrets : Option (List SecretSpec) := config.infrastructure.bind InfrastructureSpec.secrets

end ReinhardtCloudToml

open ReinhardtCloudToml

/-- The settings that `sync` preserves. -/
structure Preserved (skipsDockerfile : Prop) (existing written : ReinhardtCloudToml) : Prop where
  postgres : Kept postgres existing written
  buckets : Kept buckets existing written
  dns : Kept dns existing written
  secrets : Kept secrets existing written
  source : written.source = existing.source
  pages : skipsDockerfile → written.pages = existing.pages

/-- The settings that `sync` generates anew: they keep their values exactly where these are what is
generated. -/
structure Regenerated (metadata : ProjectMetadata) (derivedEnv : SortedMap String String)
    (existing written : ReinhardtCloudToml) : Prop where
  image : Kept image existing written ↔ existing.image = some (metadata.name ++ ":latest")
  env : ∀ key ∉ derivedEnv.keys,
    (Kept (envEntry · key) existing written ↔ existing.envEntry key = none)
  ingressHost : Kept ingressHost existing written ↔ existing.ingressHost = none
  tls : Kept tls existing written ↔ existing.tls = none
  replicas : Kept replicas existing written ↔ existing.replicas = none
  minReplicas : Kept minReplicas existing written ↔ ∀ count ∈ existing.minReplicas, count = 2
  maxReplicas : Kept maxReplicas existing written ↔ ∀ count ∈ existing.maxReplicas, count = 6
  mail : Kept mail existing written ↔ existing.mail = none
  storageBucket : Kept storageBucket existing written ↔ existing.storageBucket = none
  databaseVersion : Kept databaseVersion existing written ↔ existing.databaseVersion = none
  instanceClass : Kept instanceClass existing written ↔ existing.instanceClass = none
  storageGb : Kept storageGb existing written ↔ existing.storageGb = none

section Settings

variable {metadata : ProjectMetadata} {database : Option DatabaseConfig} {β : Type}
  {setting : ReinhardtCloudToml → Option β} {existing written : ReinhardtCloudToml}

theorem kept_iff_of_none (h : setting written = none) :
    Kept setting existing written ↔ setting existing = none := by
  rw [Option.eq_none_iff_forall_not_mem]
  apply forall₂_congr
  intro value _
  rw [h]
  exact iff_of_false (fun h ↦ by cases h) id

theorem kept_iff_of_some {generatedValue : β} (h : setting written = some generatedValue) :
    Kept setting existing written ↔ ∀ value ∈ setting existing, value = generatedValue := by
  apply forall₂_congr
  intro value _
  rw [h, Option.some.injEq, eq_comm]

theorem lookup_eq_none_of_not_mem_keys {m : SortedMap String String} {key : String}
    (h : key ∉ m.keys) : m.entries.lookup key = none := by
  apply List.lookup_eq_none_iff.mpr
  intro entry hentry
  apply bne_iff_ne.mpr
  rintro rfl
  exact h (List.mem_map_of_mem hentry)

/-- What a generated configuration has of the settings, whatever its infrastructure and the
sections that are copied. -/
theorem regenerated_of_generated {infrastructure : Option InfrastructureSpec}
    (h : written = { generated metadata database infrastructure with
      source := written.source, pages := written.pages }) :
    Regenerated metadata (databaseVariables database) existing written := by
  have hdatabase {γ : Type} {setting : DatabaseSection → Option γ}
      (hnone : ∀ engine, setting { engine := engine } = none) :
      written.database.bind setting = none := by
    rw [h]
    show Option.bind (if (resolveDatabase metadata database).1 then _ else _) setting = none
    by_cases hresolved : (resolveDatabase metadata database).1 = true
    · rw [if_pos hresolved]
      exact hnone _
    · rw [if_neg hresolved]
      rfl
  refine ⟨?_, ?_, ?_, ?_, ?_, ?_, ?_, ?_, ?_, ?_, ?_, ?_⟩
  · have himage : written.image = some (metadata.name ++ ":latest") := by
      rw [h]
      rfl
    rw [kept_iff_of_some himage, image]
    constructor
    · intro hvalue
      rw [hvalue existing.app.image rfl]
    · rintro hvalue _ ⟨⟩
      exact Option.some.inj hvalue
  · intro key hkey
    apply kept_iff_of_none
    rw [envEntry, h]
    show (generated metadata database infrastructure).env.entries.lookup key = none
    rw [env_generated]
    exact lookup_eq_none_of_not_mem_keys hkey
  · exact kept_iff_of_none (by rw [h]; rfl)
  · exact kept_iff_of_none (by rw [h]; rfl)
  · exact kept_iff_of_none (by rw [h]; rfl)
  · exact kept_iff_of_some (by rw [h]; rfl)
  · exact kept_iff_of_some (by rw [h]; rfl)
  · exact kept_iff_of_none (by rw [h]; rfl)
  · apply kept_iff_of_none
    rw [storageBucket, h]
    show Option.bind (if metadata.signals.objectStorage then some ({} : StorageSection) else none)
      StorageSection.bucket = none
    split <;> rfl
  · exact kept_iff_of_none (hdatabase fun _ ↦ rfl)
  · exact kept_iff_of_none (hdatabase fun _ ↦ rfl)
  · exact kept_iff_of_none (hdatabase fun _ ↦ rfl)

end Settings

/-! ## The command keeps what it preserves and settles -/

section Command

variable {Text : Type} {codec : CloudTomlCodec Text} {project : ProjectState} {force : Bool}
  {files after : SyncFiles Text} {metadata : ProjectMetadata}
  {existing written : ReinhardtCloudToml} {dockerfileExists : Bool}

/-- The configuration before its pages section is configured. -/
def mergedConfig (project : ProjectState) (metadata : ProjectMetadata)
    (existing : ReinhardtCloudToml) (infrastructure : Option InfrastructureSpec) :
    ReinhardtCloudToml :=
  { generated metadata project.database infrastructure with
    source := existing.source
    pages := existing.pages }

theorem syncedConfig_eq_ok_iff :
    syncedConfig project metadata existing dockerfileExists force = .ok written ↔
      ∃ infrastructure,
        syncInfrastructure (derivedInfrastructure metadata project.database)
          existing.infrastructure = .ok infrastructure ∧
        configurePages project.tree metadata (mergedConfig project metadata existing infrastructure)
          dockerfileExists force = .ok written := by
  have hsynced : syncedConfig project metadata existing dockerfileExists force =
      (do
        let config ← generateConfigPreservingExplicitInfrastructure metadata project.database
          existing.infrastructure
        mergeExistingInfrastructure existing config) >>= fun config ↦
      configurePages project.tree metadata
        { config with source := existing.source, pages := existing.pages } dockerfileExists
        force := (bind_assoc _ _ _).symm
  rw [hsynced, merge_generated]
  cases syncInfrastructure (derivedInfrastructure metadata project.database)
    existing.infrastructure with
  | error error => exact iff_of_false (fun h ↦ by cases h) fun ⟨_, h, _⟩ ↦ by cases h
  | ok infrastructure =>
    constructor
    · intro h
      exact ⟨infrastructure, rfl, h⟩
    · rintro ⟨_, ⟨⟩, h⟩
      exact h

/-- What is written: the infrastructure, the merged configuration, and a pages section. -/
structure Synced (project : ProjectState) (metadata : ProjectMetadata) (force : Bool)
    (dockerfileExists : Bool) (existing written : ReinhardtCloudToml) : Prop where
  infrastructure : syncInfrastructure (derivedInfrastructure metadata project.database)
    existing.infrastructure = .ok written.infrastructure
  configured : configurePages project.tree metadata
    (mergedConfig project metadata existing written.infrastructure) dockerfileExists force =
      .ok written
  frame : written = { mergedConfig project metadata existing written.infrastructure with
    pages := written.pages }
  pages : shouldSkipDockerfile existing dockerfileExists force ≠ .none →
    written.pages = existing.pages

theorem synced_of_syncedConfig
    (h : syncedConfig project metadata existing dockerfileExists force = .ok written) :
    Synced project metadata force dockerfileExists existing written := by
  obtain ⟨infrastructure, hinfrastructure, hconfigured⟩ := syncedConfig_eq_ok_iff.mp h
  obtain ⟨hframe, hpages⟩ := configurePages_frame hconfigured
  have hwritten : written.infrastructure = infrastructure := by
    rw [hframe]
    rfl
  subst hwritten
  exact ⟨hinfrastructure, hconfigured, hframe, hpages⟩

theorem sync_eq_ok_iff : sync codec project force files = .ok after ↔
    ∃ text existing metadata written dockerfile,
      files.config = some text ∧ codec.ofText text = .ok existing ∧
      detectProject project.above project.manifest = .ok metadata ∧
      syncedConfig project metadata existing files.dockerfile.isSome force = .ok written ∧
      syncedDockerfile project metadata written files.dockerfile.isSome force = .ok dockerfile ∧
      project.writeFault = none ∧
      after = ⟨some (generateReinhardtCloudTomlString codec written),
        dockerfile.or files.dockerfile⟩ := by
  unfold sync
  constructor
  · intro h
    split at h
    · next text htext =>
      obtain ⟨existing, hexisting, h⟩ := Operator.bind_eq_ok.mp h
      obtain ⟨metadata, hmetadata, h⟩ := Operator.bind_eq_ok.mp h
      obtain ⟨written, hwritten, h⟩ := Operator.bind_eq_ok.mp h
      obtain ⟨dockerfile, hdockerfile, h⟩ := Operator.bind_eq_ok.mp h
      dsimp only at h
      split at h
      · cases h
      · next hfault =>
        cases h
        refine ⟨text, existing, metadata, written, dockerfile, htext, hexisting, hmetadata,
          hwritten, hdockerfile, ?_, rfl⟩
        exact Option.eq_none_iff_forall_ne_some.mpr hfault
    · cases h
  · rintro ⟨text, existing, metadata, written, dockerfile, htext, hexisting, hmetadata, hwritten,
      hdockerfile, hfault, rfl⟩
    rw [htext, hfault]
    show (codec.ofText text >>= _) = _
    rw [hexisting]
    show (detectProject project.above project.manifest >>= _) = _
    rw [hmetadata]
    show (syncedConfig project metadata existing files.dockerfile.isSome force >>= _) = _
    rw [hwritten]
    show (syncedDockerfile project metadata written files.dockerfile.isSome force >>= _) = _
    rw [hdockerfile]
    rfl

theorem isSome_or_of_isSome {before dockerfile : Option String} (h : before.isSome = true) :
    (dockerfile.or before).isSome = true := by
  rw [Option.isSome_or, h, Bool.or_true]

/-- The Dockerfile that is written is written again. -/
theorem syncedDockerfile_again {config : ReinhardtCloudToml} {before dockerfile : Option String}
    (h : syncedDockerfile project metadata config before.isSome force = .ok dockerfile) :
    ∃ dockerfile', syncedDockerfile project metadata config (dockerfile.or before).isSome force =
      .ok dockerfile' ∧ dockerfile'.or (dockerfile.or before) = dockerfile.or before := by
  by_cases hagain : shouldSkipDockerfile config (dockerfile.or before).isSome force = .none
  · refine ⟨dockerfile, ?_, ?_⟩
    · rw [syncedDockerfile, skip_of_skip isSome_or_of_isSome hagain] at h
      rw [syncedDockerfile, hagain]
      exact h
    · rw [← Option.or_assoc, Option.or_self]
  · refine ⟨none, ?_, rfl⟩
    rw [syncedDockerfile]
    cases hskip : shouldSkipDockerfile config (dockerfile.or before).isSome force with
    | none => exact absurd hskip hagain
    | customDockerfile => rfl
    | alreadyExists => rfl

/-- The configuration that is written is written again, where a Dockerfile that was there still
is. -/
theorem syncedConfig_again
    (h : syncedConfig project metadata existing dockerfileExists force = .ok written)
    {exists' : Bool} (hexists : dockerfileExists = true → exists' = true) :
    syncedConfig project metadata written exists' force = .ok written := by
  have hsynced := synced_of_syncedConfig h
  have hmerged : mergedConfig project metadata written written.infrastructure = written :=
    (congrArg (mergedConfig project metadata · written.infrastructure) hsynced.frame).trans
      hsynced.frame.symm
  have hderived (spec : InfrastructureSpec)
      (hspec : derivedInfrastructure metadata project.database = .ok (some spec)) :
      spec.errors = [] := by
    rw [derivedInfrastructure] at hspec
    exact errors_derived hspec
  apply syncedConfig_eq_ok_iff.mpr
  refine ⟨written.infrastructure, syncInfrastructure_again hderived hsynced.infrastructure, ?_⟩
  rw [hmerged]
  exact configurePages_again hsynced.configured hexists

/-- The sections that are preserved. -/
theorem preserved_of_synced
    (h : syncedConfig project metadata existing dockerfileExists force = .ok written) :
    Preserved (shouldSkipDockerfile existing dockerfileExists force ≠ .none) existing written := by
  have hsynced := synced_of_syncedConfig h
  have hinfrastructure := hsynced.infrastructure
  refine ⟨?_, ?_, ?_, ?_, ?_, hsynced.pages⟩
  · exact fun value hvalue ↦ syncInfrastructure_keeps hinfrastructure (fun _ _ ↦ rfl) hvalue
  · exact fun value hvalue ↦ syncInfrastructure_keeps hinfrastructure (fun _ _ ↦ rfl) hvalue
  · exact fun value hvalue ↦ syncInfrastructure_keeps hinfrastructure (fun _ _ ↦ rfl) hvalue
  · exact fun value hvalue ↦ syncInfrastructure_keeps hinfrastructure (fun _ _ ↦ rfl) hvalue
  · rw [hsynced.frame]
    rfl

/-- What is written has integers of TOML. -/
theorem representable_synced (hexisting : existing.Representable)
    (h : syncedConfig project metadata existing dockerfileExists force = .ok written) :
    written.Representable := by
  exact representable_configurePages (synced_of_syncedConfig h).configured hexisting

/-- A successful `sync` preserves the infrastructure, the source and, where it generates no
Dockerfile, the pages; it generates the other settings anew; and it changes nothing a second
time. -/
theorem sync_preserves (hcodec : codec.Faithful) {text : Text} (htext : files.config = some text)
    (hexisting : codec.ofText text = .ok existing)
    (hmetadata : detectProject project.above project.manifest = .ok metadata)
    (h : sync codec project force files = .ok after) :
    ∃ text' written, after.config = some text' ∧ codec.ofText text' = .ok written ∧
      Preserved (shouldSkipDockerfile existing files.dockerfile.isSome force ≠ .none) existing
        written ∧
      Regenerated metadata (databaseVariables project.database) existing written ∧
      sync codec project force after = .ok after := by
  obtain ⟨text', existing', metadata', written, dockerfile, htext', hexisting', hmetadata',
    hwritten, hdockerfile, hfault, rfl⟩ := sync_eq_ok_iff.mp h
  obtain rfl := Option.some.inj (htext.symm.trans htext')
  obtain rfl := Except.ok.inj (hexisting.symm.trans hexisting')
  obtain rfl := Except.ok.inj (hmetadata.symm.trans hmetadata')
  have hread : codec.ofText (generateReinhardtCloudTomlString codec written) = .ok written :=
    ofText_generate hcodec (representable_synced (hcodec.representable text existing hexisting)
      hwritten)
  refine ⟨_, written, rfl, hread, preserved_of_synced hwritten, ?_, ?_⟩
  · have hgenerated : written = { generated metadata project.database written.infrastructure with
        source := written.source, pages := written.pages } := by
      rw [(synced_of_syncedConfig hwritten).frame]
      rfl
    exact regenerated_of_generated hgenerated
  · obtain ⟨dockerfile', hdockerfile', hsame⟩ := syncedDockerfile_again hdockerfile
    apply sync_eq_ok_iff.mpr
    refine ⟨_, written, metadata, written, dockerfile', rfl, hread, hmetadata,
      syncedConfig_again hwritten isSome_or_of_isSome, hdockerfile', hfault, ?_⟩
    rw [hsame]

end Command

/-! ## A file with settings of its own -/

/-- Configurations themselves as texts, with one text that says nothing. -/
def plainCodec : CloudTomlCodec (Option ReinhardtCloudToml) where
  toText config := if config.Representable then some (some config) else none
  ofText text :=
    match text with
    | some config => if config.Representable then .ok config else .error "invalid integer"
    | none => .error "missing field `app`"
  empty := none
  withHeader := id

theorem plainCodec_faithful : plainCodec.Faithful where
  reads_back config h := ⟨some config, if_pos h, if_pos h⟩
  comments _ := rfl
  representable text config h := by
    cases text with
    | none => cases h
    | some read =>
      by_cases hread : read.Representable
      · cases (if_pos hread).symm.trans h
        exact hread
      · cases (if_neg hread).symm.trans h

/-- A project without features, with a Dockerfile for any configuration. -/
def shopProject : ProjectState where
  above := []
  manifest := .table [
    ("package", .table [("name", .string "shop"), ("version", .string "0.1.0")]),
    ("dependencies", .table [("reinhardt-web", .table [("features", .array [])])])]
  database := none
  tree := ⟨fun _ ↦ none, none, fun _ ↦ .ok false⟩
  dockerfile _ _ := .ok "FROM scratch"
  writeFault := none

/-- Its configuration with a host and a variable. -/
def shopToml : ReinhardtCloudToml where
  app := ⟨"shop", "shop:latest"⟩
  services := some ⟨some 80, some 8000, some "shop.example.com", none⟩
  env := .insert .empty "LOG_LEVEL" "debug"

def shopMetadata : ProjectMetadata := ⟨"shop", "0.1.0", [], .fromFeatures []⟩

/-- The configuration without them. -/
def shopWritten : ReinhardtCloudToml := generated shopMetadata none none

theorem sync_shop : sync plainCodec shopProject false ⟨some (some shopToml), none⟩ =
    .ok ⟨some (some shopWritten), some "FROM scratch"⟩ := by
  decide +kernel

/-- The host and the variable are lost. -/
theorem sync_loses_settings :
    plainCodec.ofText (some shopToml) = .ok shopToml ∧
      sync plainCodec shopProject false ⟨some (some shopToml), none⟩ =
        .ok ⟨some (some shopWritten), some "FROM scratch"⟩ ∧
      plainCodec.ofText (some shopWritten) = .ok shopWritten ∧
      ¬ Kept ingressHost shopToml shopWritten ∧
      "LOG_LEVEL" ∉ (databaseVariables shopProject.database).keys ∧
      ¬ Kept (envEntry · "LOG_LEVEL") shopToml shopWritten := by
  refine ⟨by decide +kernel, sync_shop, by decide +kernel, ?_, by decide +kernel, ?_⟩
  · intro hkept
    cases hkept "shop.example.com" rfl
  · intro hkept
    cases hkept "debug" rfl

theorem sync_preserves_shop :
    ∃ text written, some (some shopWritten) = some text ∧ plainCodec.ofText text = .ok written ∧
      Preserved (shouldSkipDockerfile shopToml false false ≠ .none) shopToml written ∧
      Regenerated shopMetadata (databaseVariables none) shopToml written ∧
      sync plainCodec shopProject false ⟨some (some shopWritten), some "FROM scratch"⟩ =
        .ok ⟨some (some shopWritten), some "FROM scratch"⟩ :=
  sync_preserves plainCodec_faithful rfl (by decide +kernel) (by decide +kernel) sync_shop

end ReinhardtCloud.Cli

import ReinhardtCloud.Base.TomlText
import ReinhardtCloud.Cli.Deploy
import ReinhardtCloud.Cli.Sync
import ReinhardtCloud.Operator.JobNames

/-!
# Whether what `init` writes can be deployed

Library `Cli`. The configuration that `init` writes
(`crates/reinhardt-cloud-cli/src/commands/init.rs:36–66`), and for which projects `deploy` makes a
Project of it that passes its validation.
-/

namespace ReinhardtCloud.Cli

open ReinhardtCloud.Base

/-- The configuration that `init` writes, `init.rs:55–56`. -/
def initConfig (tree : ProjectTree) (metadata : ProjectMetadata)
    (database : Option DatabaseConfig) (dockerfileExists force : Bool) :
    Except String ReinhardtCloudToml := do
  let config ← generateConfig metadata database
  configurePages tree metadata config dockerfileExists force

/-- The file with a configuration reads back, and without any option but the namespace the project
is deployed with it, with the infrastructure that `init` derived, as a valid Project. -/
structure InitDeploys (toml : TomlCodec) (above : List (Option Toml)) (manifest : Toml)
    (metadata : ProjectMetadata) (database : Option DatabaseConfig) (ns : String)
    (config : ReinhardtCloudToml) : Prop where
  reads_back : cloudTomlFromStr toml
    (generateReinhardtCloudTomlString (cloudTomlCodec toml) config) = .ok config
  deploys : ∃ project, deploy toml { ns := ns } above manifest database
      (some (generateReinhardtCloudTomlString (cloudTomlCodec toml) config)) = .ok project ∧
    derivedInfrastructure metadata database = .ok project.settings.infrastructure ∧
    project.specErrors = [] ∧ Operator.isKubernetesName project.name = true

/-- A project without background tasks, with a database where it has object storage, and with a
name of lower-case letters, digits and inner hyphens. -/
structure DeployableProject (metadata : ProjectMetadata) (database : Option DatabaseConfig) :
    Prop where
  tasks : "tasks" ∉ metadata.features
  storage : "storage" ∈ metadata.features ∨ "static-files" ∈ metadata.features →
    database.isSome ∨ ∃ feature ∈ ["db-postgres", "db-mysql", "db-sqlite", "database"],
      feature ∈ metadata.features
  length : metadata.name.length ≤ 253
  chars : ∀ c ∈ metadata.name.toList, c.isUpper = false ∧ c ≠ '_'
  first : metadata.name.toList.head? ≠ some '-'
  last : metadata.name.toList.getLast? ≠ some '-'

/-! ## Names and features -/

section Metadata

variable {above : List (Option Toml)} {manifest : Toml} {metadata : ProjectMetadata}

theorem mem_packageName {name : String} (h : validatePackageName name = .ok ()) :
    name.toList ≠ [] ∧ ∀ c ∈ name.toList, c.isAlphanum = true ∨ c = '-' ∨ c = '_' := by
  unfold validatePackageName at h
  split at h
  · cases h
  · next hvalid =>
    rw [Bool.or_eq_true, not_or, Bool.not_eq_true', Bool.not_eq_false, List.all_eq_true] at hvalid
    obtain ⟨hempty, hchars⟩ := hvalid
    constructor
    · intro hnil
      exact hempty (String.isEmpty_iff.mpr (String.toList_eq_nil_iff.mp hnil))
    · intro c hc
      have hchar := hchars c hc
      rw [Bool.or_eq_true, Bool.or_eq_true, decide_eq_true_eq, decide_eq_true_eq, or_assoc] at hchar
      exact hchar

/-- A character of a package name is one of an object's name if it is no upper-case letter and no
underscore. -/
theorem dns1123_of_packageChar {c : Char} (h : c.isAlphanum = true ∨ c = '-' ∨ c = '_') :
    Operator.isDns1123Alphanumeric c = true ∨ c = '-' ↔ c.isUpper = false ∧ c ≠ '_' := by
  have hupper : c.isUpper = decide (65 ≤ c.toNat ∧ c.toNat ≤ 90) := rfl
  rw [hupper, decide_eq_false_iff_not]
  rcases h with h | rfl | rfl
  · have hunderscore : c ≠ '_' := by
      rintro rfl
      exact absurd h (by decide)
    have hdash : c ≠ '-' := by
      rintro rfl
      exact absurd h (by decide)
    rw [Operator.isAlphanum_iff] at h
    rw [Operator.isDns1123Alphanumeric_iff] at h ⊢
    constructor
    · rintro (hlower | hc)
      · exact ⟨by omega, hunderscore⟩
      · exact absurd hc hdash
    · rintro ⟨hlower, -⟩
      exact .inl (by omega)
  · decide
  · decide

/-- Letters and digits at the end of a text of letters, digits and hyphens. -/
theorem any_dns1123_iff {o : Option Char} (hsome : o.isSome = true)
    (h : ∀ c ∈ o, Operator.isDns1123Alphanumeric c = true ∨ c = '-') :
    o.any Operator.isDns1123Alphanumeric = true ↔ o ≠ some '-' := by
  obtain ⟨c, rfl⟩ := Option.isSome_iff_exists.mp hsome
  rw [Option.any_some, ne_eq, Option.some.injEq]
  constructor
  · rintro hword rfl
    exact absurd hword (by decide)
  · intro hne
    exact (h c rfl).resolve_right hne

/-- When a package name is the name of an object. -/
theorem isKubernetesName_packageName_iff {name : String}
    (h : validatePackageName name = .ok ()) :
    Operator.isKubernetesName name = true ↔
      name.length ≤ 253 ∧ (∀ c ∈ name.toList, c.isUpper = false ∧ c ≠ '_') ∧
        name.toList.head? ≠ some '-' ∧ name.toList.getLast? ≠ some '-' := by
  obtain ⟨hne, hchars⟩ := mem_packageName h
  have hsize : name.utf8ByteSize = name.length := by
    have hascii := utf8ByteSize_of_ascii (l := name.toList) fun c hc ↦ by
      have hchar := hchars c hc
      rw [Operator.isAlphanum_iff, Operator.isDns1123Alphanumeric_iff] at hchar
      show c.toNat ≤ 127
      rcases hchar with h | rfl | rfl
      · omega
      · decide
      · decide
    rw [String.ofList_toList, String.length_toList] at hascii
    exact hascii
  have hdns : (∀ c ∈ name.toList, Operator.isDns1123Alphanumeric c = true ∨ c = '-') ↔
      ∀ c ∈ name.toList, c.isUpper = false ∧ c ≠ '_' :=
    forall₂_congr fun c hc ↦ dns1123_of_packageChar (hchars c hc)
  rw [Operator.isKubernetesName_iff, hsize, ← hdns]
  apply and_congr_right
  intro _
  constructor
  · rintro ⟨⟨hhead, hall, -⟩, hlast⟩
    have hwords (c : Char) (hc : c ∈ name.toList) :
        Operator.isDns1123Alphanumeric c = true ∨ c = '-' := by
      rcases hall c hc with hword | hdash | hdot
      · exact .inl hword
      · exact .inr hdash
      · rw [hdot] at hc
        rcases hchars '.' hc with halnum | hdash | hunderscore
        · exact absurd halnum (by decide)
        · exact absurd hdash (by decide)
        · exact absurd hunderscore (by decide)
    refine ⟨hwords, ?_, ?_⟩
    · exact (any_dns1123_iff (List.isSome_head?.mpr hne) fun c hc ↦
        hwords c (List.mem_of_mem_head? hc)).mp hhead
    · exact (any_dns1123_iff (List.getLast?_isSome.mpr hne) fun c hc ↦
        hwords c (List.mem_of_mem_getLast? hc)).mp hlast
  · rintro ⟨hwords, hfirst, hlast⟩
    refine ⟨⟨?_, fun c hc ↦ (hwords c hc).imp_right .inl, ?_⟩, ?_⟩
    · exact (any_dns1123_iff (List.isSome_head?.mpr hne) fun c hc ↦
        hwords c (List.mem_of_mem_head? hc)).mpr hfirst
    · exact isChain_of_undotted Operator.dns1123_separators hwords
    · exact (any_dns1123_iff (List.getLast?_isSome.mpr hne) fun c hc ↦
        hwords c (List.mem_of_mem_getLast? hc)).mpr hlast

theorem detectProject_metadata (h : detectProject above manifest = .ok metadata) :
    validatePackageName metadata.name = .ok () ∧
      metadata.signals = InfraSignals.fromFeatures metadata.features := by
  obtain ⟨name, hname, h⟩ := Operator.bind_eq_ok.mp h
  obtain ⟨version, hversion, h⟩ := Operator.bind_eq_ok.mp h
  split at h
  · cases h
  · cases h
    refine ⟨?_, rfl⟩
    unfold packageName at hname
    split at hname
    · cases hname
    · next declared _ =>
      cases hvalid : validatePackageName declared with
      | error error =>
        rw [hvalid] at hname
        cases hname
      | ok _ =>
        rw [hvalid] at hname
        cases hname
        exact hvalid

theorem backgroundWorker_fromFeatures {features : List String} :
    (InfraSignals.fromFeatures features).backgroundWorker = true ↔ "tasks" ∈ features :=
  List.contains_iff_mem

theorem objectStorage_fromFeatures {features : List String} :
    (InfraSignals.fromFeatures features).objectStorage = true ↔
      "storage" ∈ features ∨ "static-files" ∈ features := by
  rw [← List.contains_iff_mem, ← List.contains_iff_mem, ← Bool.or_eq_true]
  rfl

theorem database_fromFeatures {features : List String} :
    (InfraSignals.fromFeatures features).database.isSome = true ↔
      ∃ feature ∈ ["db-postgres", "db-mysql", "db-sqlite", "database"], feature ∈ features := by
  have hdatabase : (InfraSignals.fromFeatures features).database =
      if features.contains "db-postgres" then some "postgresql"
      else if features.contains "db-mysql" then some "mysql"
      else if features.contains "db-sqlite" then some "sqlite"
      else if features.contains "database" then some "postgresql"
      else none := rfl
  rw [hdatabase]
  simp only [List.mem_cons, List.not_mem_nil, or_false, exists_eq_or_imp, exists_eq_left]
  simp only [← List.contains_iff_mem]
  cases features.contains "db-postgres" <;> cases features.contains "db-mysql" <;>
    cases features.contains "db-sqlite" <;> cases features.contains "database" <;> decide

end Metadata

/-! ## The configuration -/

section Config

variable {tree : ProjectTree} {metadata : ProjectMetadata} {database : Option DatabaseConfig}
  {dockerfileExists force : Bool} {config : ReinhardtCloudToml}

/-- The declared publication passes the checks of a pages section. -/
theorem pagesErrors_published {buildArgs : List (String × String)} {root : StaticRoot}
    (h : readStaticRoot tree buildArgs = .ok root) :
    Dashboard.pagesErrors (({} : PagesSection).publishedAt root).toPagesSpec = [] := by
  have hroot : root.runtimePath ≠ "" := by
    rw [StaticRoot.runtimePath]
    split
    · next hslash =>
      intro hempty
      rw [hempty] at hslash
      cases hslash
    · intro hempty
      have hlist := congrArg String.toList hempty
      rw [String.toList_append] at hlist
      cases (List.append_eq_nil_iff.mp hlist).1
  have hurl : root.url.toList.head? = some '/' ∧ root.url.toList.getLast? = some '/' := by
    have hcheck := checkUrl_of_readStaticRoot h
    unfold checkUrl at hcheck
    dsimp only at hcheck
    split at hcheck
    · cases hcheck
    · next hends =>
      rw [Bool.or_eq_true, Bool.or_eq_true, Bool.or_eq_true, decide_eq_true_eq,
        decide_eq_true_eq] at hends
      push Not at hends
      exact ⟨hends.1.1.1, hends.1.1.2⟩
  rw [Dashboard.pagesErrors, List.append_eq_nil_iff, List.append_eq_nil_iff]
  refine ⟨⟨messageUnless_eq_nil_iff.mpr ?_, messageUnless_eq_nil_iff.mpr ?_⟩, rfl⟩
  · exact decide_eq_true hroot
  · show (decide _ && decide _) = true
    rw [Bool.and_eq_true, decide_eq_true_eq, decide_eq_true_eq]
    exact hurl

/-- A configuration that `init` writes. -/
structure Initial (metadata : ProjectMetadata) (database : Option DatabaseConfig)
    (config : ReinhardtCloudToml) : Prop where
  infrastructure : derivedInfrastructure metadata database = .ok config.infrastructure
  generated : config = { generated metadata database config.infrastructure with
    pages := config.pages }
  pages : ∀ pages ∈ config.pages, Dashboard.pagesErrors pages.toPagesSpec = []
  representable : config.Representable

theorem initial_of_initConfig
    (h : initConfig tree metadata database dockerfileExists force = .ok config) :
    Initial metadata database config := by
  obtain ⟨start, hstart, h⟩ := Operator.bind_eq_ok.mp h
  obtain ⟨infrastructure, hderived, hstart⟩ := Operator.bind_eq_ok.mp hstart
  have hderived := mapError_eq_ok_iff.mp hderived
  have hgenerated : start = generated metadata database infrastructure :=
    (Except.ok.inj hstart).symm
  subst hgenerated
  have hnone : (generated metadata database infrastructure).Representable := by
    rintro _ ⟨⟩
  obtain ⟨hframe, -⟩ := configurePages_frame h
  have hkept : config.infrastructure = infrastructure := by
    rw [hframe]
    rfl
  subst hkept
  refine ⟨hderived, hframe, ?_, representable_configurePages h hnone⟩
  by_cases hskip : shouldSkipDockerfile (generated metadata database config.infrastructure)
      dockerfileExists force = .none
  · obtain ⟨-, pages, hpages, heq⟩ := (configurePages_eq_ok_iff hskip).mp h
    rw [heq]
    cases hpages with
    | absent signal =>
      rintro _ ⟨⟩
    | published signal image declared compatible =>
      rintro _ ⟨⟩
      exact pagesErrors_published declared
  · rw [configurePages_of_skip hskip] at h
    rw [← Except.ok.inj h]
    rintro _ ⟨⟩

/-- Without a database and object storage nothing is derived. -/
theorem deriveInfrastructureSpec_nothing {name : String} {signals : IntrospectInfraSignals}
    (hdatabase : signals.database = none) (hstorage : signals.storage = none) :
    deriveInfrastructureSpec ⟨name, signals, none, []⟩ = .ok none := by
  unfold deriveInfrastructureSpec
  dsimp only
  rw [hdatabase, hstorage]
  rfl

/-- Object storage on the local disk is not managed. -/
theorem deriveInfrastructureSpec_local {name : String} {signals : IntrospectInfraSignals}
    (hdatabase : signals.database = none) (hstorage : signals.storage = some "local") :
    deriveInfrastructureSpec ⟨name, signals, none, []⟩ =
      .error (.unsupportedStorageBackend "local") := by
  unfold deriveInfrastructureSpec
  dsimp only
  rw [hdatabase, hstorage]
  rfl

/-- For a database there is infrastructure. -/
theorem deriveInfrastructureSpec_database {name engine : String}
    {signals : IntrospectInfraSignals} {infrastructure : Option InfrastructureSpec}
    (hdatabase : signals.database = some engine)
    (h : deriveInfrastructureSpec ⟨name, signals, none, []⟩ = .ok infrastructure) :
    infrastructure.isSome = true := by
  unfold deriveInfrastructureSpec at h
  dsimp only at h
  obtain ⟨postgres, hpostgres, h⟩ := Operator.bind_eq_ok.mp h
  obtain ⟨buckets, -, h⟩ := Operator.bind_eq_ok.mp h
  rw [hdatabase, derivePostgres] at hpostgres
  split at hpostgres
  · cases hpostgres
    rw [if_neg (by rw [Option.isNone_some, Bool.false_and]; exact Bool.false_ne_true)] at h
    obtain ⟨_, -, h⟩ := Operator.bind_eq_ok.mp h
    cases h
    rfl
  · cases hpostgres

/-- There is infrastructure if and only if there is a database. -/
theorem isSome_derivedInfrastructure {infrastructure : Option InfrastructureSpec}
    (h : derivedInfrastructure metadata database = .ok infrastructure) :
    infrastructure.isSome = (resolveDatabase metadata database).1 := by
  unfold derivedInfrastructure at h
  dsimp only at h
  by_cases hdatabase : (resolveDatabase metadata database).1 = true
  · rw [if_pos hdatabase] at h
    rw [hdatabase]
    exact deriveInfrastructureSpec_database rfl h
  · rw [if_neg hdatabase] at h
    rw [Bool.eq_false_of_not_eq_true hdatabase]
    cases (deriveInfrastructureSpec_nothing rfl rfl).symm.trans h
    rfl

/-- The Project that is made of a configuration with one replica and given infrastructure. -/
def projectOf (config : ReinhardtCloudToml) (name ns : String)
    (introspect : Option Operator.IntrospectOutput)
    (infrastructure : Option InfrastructureSpec) : Dashboard.Manifest where
  name := name
  ns := ns
  annotations := ⟨none, none, none, none⟩
  spec := { config.toProjectSpec with
    image := config.app.image
    replicas := some 1
    introspect := introspect }
  settings := { config.toSpecSettings with infrastructure := infrastructure }

/-- Only the concurrency of the worker can be wrong. -/
theorem specErrors_buildConfig (hasDatabase : Bool) (engine : String)
    (derived infrastructure : Option InfrastructureSpec) (pages : Option PagesSection)
    (name ns : String) (introspect : Option Operator.IntrospectOutput)
    {config : ReinhardtCloudToml}
    (hconfig : config = { buildConfig metadata database hasDatabase engine derived with
      pages := pages })
    (hpages : ∀ published ∈ pages, Dashboard.pagesErrors published.toPagesSpec = [])
    (hinfrastructure : ∀ spec ∈ infrastructure, spec.errors = []) :
    (projectOf config name ns introspect infrastructure).specErrors =
      messageUnless (!metadata.signals.backgroundWorker) "worker.concurrency must be > 0" := by
  subst hconfig
  have hpagesErrors : (pages.map PagesSection.toPagesSpec).elim [] Dashboard.pagesErrors = [] := by
    cases pages with
    | none => rfl
    | some pages => exact hpages pages rfl
  have hinfrastructureErrors : infrastructure.elim [] InfrastructureSpec.errors = [] := by
    cases infrastructure with
    | none => rfl
    | some spec => exact hinfrastructure spec rfl
  let project := projectOf { buildConfig metadata database hasDatabase engine derived with
    pages := pages } name ns introspect infrastructure
  have hdatabase : (project.spec.database.elim [] fun _ ↦
      Dashboard.errorOf (Operator.Database.validateSpec project.spec)) = [] := by
    cases hasDatabase <;> rfl
  have hworker : messageUnless
      (!project.spec.worker || project.settings.workerConcurrency.all (0 < ·))
        "worker.concurrency must be > 0" =
      messageUnless (!metadata.signals.backgroundWorker) "worker.concurrency must be > 0" := by
    show messageUnless (!Option.isSome (if metadata.signals.backgroundWorker then
      some ({} : WorkerSection) else none) || Option.all _ (Option.map _
        (if metadata.signals.backgroundWorker then some ({} : WorkerSection) else none))) _ = _
    cases metadata.signals.backgroundWorker <;> rfl
  show [] ++ [] ++ _ ++ _ ++ [] ++ [] ++ [] ++ [] ++ _ ++ [] ++ [] ++ [] ++ _ ++ [] = _
  rw [hdatabase, hworker]
  show [] ++ [] ++ [] ++ _ ++ [] ++ [] ++ [] ++ [] ++
    (pages.map PagesSection.toPagesSpec).elim [] Dashboard.pagesErrors ++ [] ++ [] ++ [] ++
    infrastructure.elim [] InfrastructureSpec.errors ++ [] = _
  rw [hpagesErrors, hinfrastructureErrors]
  simp only [List.append_nil, List.nil_append]

/-- The infrastructure of the Project: that of the configuration, or what is derived where it has
none. -/
def deployedInfrastructure (derived : Option InfrastructureSpec) (introspect : IntrospectOutput) :
    Except String (Option InfrastructureSpec) :=
  match derived with
  | some spec => .ok (some spec)
  | none => (deriveInfrastructureSpec ⟨introspect.appName, introspect.signals, none,
      []⟩).mapError DerivationError.display

theorem buildProjectSpec_buildConfig (hasDatabase : Bool) (engine : String)
    (derived : Option InfrastructureSpec) (pages : Option PagesSection) (ns : String)
    (introspect : IntrospectOutput) {config : ReinhardtCloudToml}
    (hconfig : config = { buildConfig metadata database hasDatabase engine derived with
      pages := pages }) :
    buildProjectSpec (some config) introspect.appName config.app.image 1 (some introspect) =
      (deployedInfrastructure derived introspect).map fun infrastructure ↦
        let project := projectOf config introspect.appName ns (some introspect.forOperator)
          infrastructure
        (project.spec, project.settings) := by
  subst hconfig
  cases derived with
  | some spec => rfl
  | none =>
    show (Except.mapError DerivationError.display (deriveInfrastructureSpec
      ⟨introspect.appName, introspect.signals, none, []⟩) >>= _) = _
    rw [deployedInfrastructure]
    cases deriveInfrastructureSpec ⟨introspect.appName, introspect.signals, none, []⟩ <;> rfl

/-- What is deployed of a configuration without replicas. -/
theorem deployedManifest_eq (hasDatabase : Bool) (engine : String)
    (derived : Option InfrastructureSpec) (pages : Option PagesSection) (ns : String)
    (introspect : IntrospectOutput) {config : ReinhardtCloudToml}
    (hconfig : config = { buildConfig metadata database hasDatabase engine derived with
      pages := pages }) :
    deployedManifest { ns := ns } (some config) (some introspect) =
      (deployedInfrastructure derived introspect).bind fun infrastructure ↦
        validated (projectOf config introspect.appName ns (some introspect.forOperator)
          infrastructure) := by
  have hreplicas : config.replicas = none := by
    rw [hconfig]
    rfl
  have hbuilt : deployedManifest { ns := ns } (some config) (some introspect) =
      (buildProjectSpec (some config) introspect.appName config.app.image 1
        (some introspect)).bind fun built ↦
          validated ⟨introspect.appName, ns, ⟨none, none, none, none⟩, built.1, built.2⟩ := by
    unfold deployedManifest
    dsimp only [Option.map_some, Option.or_some, Option.none_or, Option.bind_some]
    rw [hreplicas]
    rfl
  rw [hbuilt, buildProjectSpec_buildConfig hasDatabase engine derived pages ns introspect hconfig]
  cases deployedInfrastructure derived introspect with
  | error error => rfl
  | ok infrastructure => rfl

theorem validated_eq_ok_iff {project result : Dashboard.Manifest} :
    validated project = .ok result ↔ result = project ∧ project.specErrors = [] := by
  rw [validated]
  cases project.specErrors with
  | nil =>
    rw [List.isEmpty_nil, if_pos rfl, Except.ok.injEq, eq_comm]
    exact (and_iff_left rfl).symm
  | cons error rest =>
    exact iff_of_false (fun h ↦ by cases h) fun h ↦ List.cons_ne_nil _ _ h.2

/-- The introspection that is synthesized for a project. -/
def introspectOf (metadata : ProjectMetadata) (database : Option DatabaseConfig) :
    IntrospectOutput where
  appName := metadata.name
  appVersion := metadata.version
  databases := database.toList.map fun config ↦ ("default", config.engine)
  declared := metadata.features
  resolved := metadata.features
  signals := synthesizeInfraSignals metadata.signals

/-- The Project gets the infrastructure of the configuration, unless its object storage is to be
derived anew. -/
theorem deployedInfrastructure_eq_ok_iff (h : Initial metadata database config)
    {infrastructure : Option InfrastructureSpec} :
    deployedInfrastructure config.infrastructure (introspectOf metadata database) =
        .ok infrastructure ↔
      infrastructure = config.infrastructure ∧
        ((resolveDatabase metadata database).1 = true ∨ metadata.signals.objectStorage =
          false) := by
  have hsome := isSome_derivedInfrastructure h.infrastructure
  cases hderived : config.infrastructure with
  | some spec =>
    rw [hderived] at hsome
    rw [deployedInfrastructure, ← hsome, Except.ok.injEq, eq_comm]
    exact (and_iff_left (.inl rfl)).symm
  | none =>
    rw [hderived] at hsome
    have hdatabase : (introspectOf metadata database).signals.database = none := by
      show metadata.signals.database = none
      have hboth := hsome.symm
      rw [resolveDatabase, Option.isSome_none, Bool.or_eq_false_iff, Option.isSome_eq_false_iff,
        Option.isNone_iff_eq_none] at hboth
      exact hboth.1
    have hstorage : (introspectOf metadata database).signals.storage =
        if metadata.signals.objectStorage then some "local" else none := rfl
    rw [deployedInfrastructure, ← hsome]
    cases hobject : metadata.signals.objectStorage with
    | false =>
      rw [hobject] at hstorage
      rw [deriveInfrastructureSpec_nothing hdatabase hstorage, Except.mapError, Except.ok.injEq,
        eq_comm]
      exact (and_iff_left (.inr rfl)).symm
    | true =>
      rw [hobject] at hstorage
      rw [deriveInfrastructureSpec_local hdatabase hstorage]
      apply iff_of_false
      · intro hok
        cases hok
      · rintro ⟨-, hfalse | hfalse⟩
        · cases hfalse
        · cases hfalse

theorem specErrors_initial (h : Initial metadata database config) (ns : String) :
    (projectOf config metadata.name ns (some (introspectOf metadata database).forOperator)
        config.infrastructure).specErrors =
      messageUnless (!metadata.signals.backgroundWorker) "worker.concurrency must be > 0" := by
  have hderived (spec : InfrastructureSpec) (hspec : spec ∈ config.infrastructure) :
      spec.errors = [] := by
    have hinfrastructure := h.infrastructure
    rw [Option.mem_def.mp hspec, derivedInfrastructure] at hinfrastructure
    exact errors_derived hinfrastructure
  exact specErrors_buildConfig _ _ _ config.infrastructure _ metadata.name ns _ h.generated h.pages
    hderived

/-- When a Project is made of what `init` writes. -/
theorem deployedManifest_eq_ok_iff (h : Initial metadata database config) (ns : String)
    {project : Dashboard.Manifest} :
    deployedManifest { ns := ns } (some config) (some (introspectOf metadata database)) =
        .ok project ↔
      project = projectOf config metadata.name ns
        (some (introspectOf metadata database).forOperator) config.infrastructure ∧
      ((resolveDatabase metadata database).1 = true ∨ metadata.signals.objectStorage = false) ∧
      metadata.signals.backgroundWorker = false := by
  rw [deployedManifest_eq _ _ _ _ ns _ h.generated]
  cases hinfrastructure : deployedInfrastructure config.infrastructure
    (introspectOf metadata database) with
  | error error =>
    apply iff_of_false
    · intro hok
      cases hok
    · rintro ⟨-, hstorage, -⟩
      cases hinfrastructure.symm.trans
        ((deployedInfrastructure_eq_ok_iff h).mpr ⟨rfl, hstorage⟩)
  | ok infrastructure =>
    obtain ⟨rfl, hstorage⟩ := (deployedInfrastructure_eq_ok_iff h).mp hinfrastructure
    rw [Except.bind]
    have hname : (introspectOf metadata database).appName = metadata.name := rfl
    rw [hname]
    rw [validated_eq_ok_iff, specErrors_initial h, messageUnless_eq_nil_iff, Bool.not_eq_true']
    exact and_congr_right fun _ ↦ (and_iff_right hstorage).symm

end Config

/-! ## Which projects can be deployed -/

/-- The database of a project is detected or in its settings. -/
theorem resolveDatabase_fst_iff {metadata : ProjectMetadata} {database : Option DatabaseConfig}
    (h : metadata.signals = InfraSignals.fromFeatures metadata.features) :
    (resolveDatabase metadata database).1 = true ↔ database.isSome = true ∨
      ∃ feature ∈ ["db-postgres", "db-mysql", "db-sqlite", "database"],
        feature ∈ metadata.features := by
  rw [resolveDatabase, Bool.or_eq_true, h, database_fromFeatures, or_comm]

theorem deployableProject_iff {above : List (Option Toml)} {manifest : Toml}
    {metadata : ProjectMetadata} (h : detectProject above manifest = .ok metadata)
    (database : Option DatabaseConfig) :
    DeployableProject metadata database ↔
      ((resolveDatabase metadata database).1 = true ∨ metadata.signals.objectStorage = false) ∧
        metadata.signals.backgroundWorker = false ∧
        Operator.isKubernetesName metadata.name = true := by
  obtain ⟨hname, hsignals⟩ := detectProject_metadata h
  rw [isKubernetesName_packageName_iff hname, resolveDatabase_fst_iff hsignals, hsignals,
    ← Bool.not_eq_true, ← Bool.not_eq_true, objectStorage_fromFeatures,
    backgroundWorker_fromFeatures]
  constructor
  · rintro ⟨htasks, hstorage, hlength, hchars, hfirst, hlast⟩
    refine ⟨?_, htasks, hlength, hchars, hfirst, hlast⟩
    by_cases hobject : "storage" ∈ metadata.features ∨ "static-files" ∈ metadata.features
    · exact .inl (hstorage hobject)
    · exact .inr hobject
  · rintro ⟨hstorage, htasks, hlength, hchars, hfirst, hlast⟩
    exact ⟨htasks, fun hobject ↦ hstorage.resolve_right fun hnot ↦ hnot hobject, hlength, hchars,
      hfirst, hlast⟩

theorem initDeploys_iff {toml : TomlCodec} {above : List (Option Toml)} {manifest : Toml}
    {metadata : ProjectMetadata} (hmetadata : detectProject above manifest = .ok metadata)
    {database : Option DatabaseConfig} {config : ReinhardtCloudToml}
    (hinitial : Initial metadata database config) (ns : String) :
    InitDeploys toml above manifest metadata database ns config ↔
      cloudTomlFromStr toml (generateReinhardtCloudTomlString (cloudTomlCodec toml) config) =
          .ok config ∧
        DeployableProject metadata database := by
  have hintrospect : synthesizeIntrospectFromProject above manifest database =
      some (introspectOf metadata database) := by
    rw [synthesizeIntrospectFromProject, hmetadata]
    rfl
  have hdeploy (hread : cloudTomlFromStr toml
      (generateReinhardtCloudTomlString (cloudTomlCodec toml) config) = .ok config) :
      deploy toml { ns := ns } above manifest database
        (some (generateReinhardtCloudTomlString (cloudTomlCodec toml) config)) =
          deployedManifest { ns := ns } (some config) (some (introspectOf metadata database)) := by
    rw [deploy, hintrospect, readReinhardtCloudToml, hread]
    rfl
  rw [deployableProject_iff hmetadata]
  constructor
  · rintro ⟨hread, project, hok, -, -, hname⟩
    rw [hdeploy hread, deployedManifest_eq_ok_iff hinitial] at hok
    obtain ⟨rfl, hstorage, htasks⟩ := hok
    exact ⟨hread, hstorage, htasks, hname⟩
  · rintro ⟨hread, hstorage, htasks, hname⟩
    refine ⟨hread, projectOf config metadata.name ns
      (some (introspectOf metadata database).forOperator) config.infrastructure, ?_,
      hinitial.infrastructure, ?_, hname⟩
    · rw [hdeploy hread, deployedManifest_eq_ok_iff hinitial]
      exact ⟨rfl, hstorage, htasks⟩
    · rw [specErrors_initial hinitial, messageUnless_eq_nil_iff, htasks]
      rfl

/-- What `init` writes reads back, and is deployed as a valid Project with the derived
infrastructure exactly for projects without background tasks, with a database where they have
object storage, and with a name that is one of objects. -/
theorem init_deploys_iff {toml : TomlCodec}
    (hcomments : ∀ text, toml.parse (tomlHeader ++ text) = toml.parse text)
    {above : List (Option Toml)} {manifest : Toml} {metadata : ProjectMetadata}
    (hmetadata : detectProject above manifest = .ok metadata) {tree : ProjectTree}
    {database : Option DatabaseConfig} {dockerfileExists force : Bool}
    {config : ReinhardtCloudToml}
    (hconfig : initConfig tree metadata database dockerfileExists force = .ok config)
    (ns : String) :
    InitDeploys toml above manifest metadata database ns config ↔
      DeployableProject metadata database := by
  have hinitial := initial_of_initConfig hconfig
  rw [initDeploys_iff hmetadata hinitial]
  exact and_iff_right
    (ofText_generate (cloudTomlCodec_faithful hcomments) hinitial.representable)

/-! ## Background tasks -/

/-- A project with features and without dependencies besides. -/
def featureManifest (features : List String) : Toml :=
  .table [("package", .table [("name", .string "shop"), ("version", .string "0.1.0")]),
    ("dependencies", .table [("reinhardt-web", .table
      [("features", .array (features.map .string))])])]

/-- What is detected of it. -/
def featureMetadata (features : List String) : ProjectMetadata :=
  ⟨"shop", "0.1.0", features, .fromFeatures features⟩

/-- The workers of background tasks get no concurrency. -/
theorem not_init_deploys :
    detectProject [] (featureManifest ["tasks"]) = .ok (featureMetadata ["tasks"]) ∧
      initConfig ⟨fun _ ↦ none, none, fun _ ↦ .ok false⟩ (featureMetadata ["tasks"]) none false
        false = .ok (generated (featureMetadata ["tasks"]) none none) ∧
      ∀ toml, ¬ InitDeploys toml [] (featureManifest ["tasks"]) (featureMetadata ["tasks"]) none
        "default" (generated (featureMetadata ["tasks"]) none none) := by
  have hmetadata : detectProject [] (featureManifest ["tasks"]) =
      .ok (featureMetadata ["tasks"]) := by
    decide +kernel
  have hconfig : initConfig ⟨fun _ ↦ none, none, fun _ ↦ .ok false⟩ (featureMetadata ["tasks"])
      none false false = .ok (generated (featureMetadata ["tasks"]) none none) := by
    decide +kernel
  refine ⟨hmetadata, hconfig, ?_⟩
  intro toml h
  obtain ⟨-, hdeployable⟩ := (initDeploys_iff hmetadata (initial_of_initConfig hconfig)
    "default").mp h
  exact hdeployable.tasks (List.mem_singleton.mpr rfl)

theorem init_deploys_shop :
    InitDeploys (TomlCodec.codes.skippingComments TomlCodec.skipComments_codes) []
      (featureManifest ["db-postgres"]) (featureMetadata ["db-postgres"]) none "default"
      (generated (featureMetadata ["db-postgres"]) none
        (some { postgres := some ⟨none, some "16", some 7⟩ })) := by
  have hmetadata : detectProject [] (featureManifest ["db-postgres"]) =
      .ok (featureMetadata ["db-postgres"]) := by
    decide +kernel
  have hconfig : initConfig ⟨fun _ ↦ none, none, fun _ ↦ .ok false⟩
      (featureMetadata ["db-postgres"]) none false false =
        .ok (generated (featureMetadata ["db-postgres"]) none
          (some { postgres := some ⟨none, some "16", some 7⟩ })) := by
    decide +kernel
  have hword : "shop".toList.all (fun c ↦ !c.isUpper && c != '_') = true := by
    decide +kernel
  have hchars (c : Char) (hc : c ∈ "shop".toList) : c.isUpper = false ∧ c ≠ '_' := by
    have hchar := List.all_eq_true.mp hword c hc
    rw [Bool.and_eq_true, Bool.not_eq_true', bne_iff_ne] at hchar
    exact hchar
  apply (init_deploys_iff (TomlCodec.parse_skippingComments _ _ (by decide +kernel)) hmetadata
    hconfig "default").mpr
  refine ⟨by decide, ?_, by decide, hchars, by decide +kernel, by decide +kernel⟩
  rintro (hstorage | hstatic)
  · exact absurd hstorage (by decide)
  · exact absurd hstatic (by decide)

end ReinhardtCloud.Cli

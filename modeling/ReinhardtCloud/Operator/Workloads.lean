import ReinhardtCloud.Base.Affixes
import ReinhardtCloud.Operator.Operations
import ReinhardtCloud.Operator.SourceBuild

/-!
# Deployment, Service and Ingress

Library `Operator`. The builders of `crates/reinhardt-cloud-operator/src/resources/{deployment,
service,ingress}.rs`, the pages configuration of `inference/pages.rs` and the Ingress step of
`apply` (`reconciler.rs:1186–1283,1586–1634,766–805`). Environment, volumes, probes, labels,
annotations and TLS sections are left out, as is the check of plugins, whose outcome is a parameter.
-/

namespace ReinhardtCloud.Operator

open ReinhardtCloud.Base

/-- `require_namespace`, `resources.rs:38–45`. -/
def requireNamespace (app : Project) : Except Error String :=
  match app.ns with
  | some ns => .ok ns
  | none => .error (.missingNamespace app.name)

/-- `validate_port`, `resources.rs:48–54`. -/
def validatePort (field : String) (port : Int) : Except Error Int :=
  if 1 ≤ port ∧ port ≤ 65535 then .ok port else .error (.invalidPort field port)

theorem validatePort_eq_ok_iff {field : String} {port p : Int} :
    validatePort field port = .ok p ↔ p = port ∧ 1 ≤ port ∧ port ≤ 65535 := by
  unfold validatePort
  split
  · next h => simp [h, eq_comm]
  · next h => simp [h]

/-- `owner_reference`, `labels.rs`: the owner's UID. -/
def ownerReference (app : Project) : Except Error Uid :=
  match app.uid with
  | some uid => .ok uid
  | none => .error (.ownerReference app.name)

/-- A step of a builder that succeeds. -/
theorem bind_eq_ok {ε α β : Type} {x : Except ε α} {f : α → Except ε β} {b : β} :
    (x >>= f) = .ok b ↔ ∃ a, x = .ok a ∧ f a = .ok b := by
  cases x with
  | error e => simp [bind, Except.bind]
  | ok a => simp [bind, Except.bind]

/-! ## Pages, `inference/pages.rs` -/

/-- `ResolvedPagesConfig`. -/
structure ResolvedPagesConfig where
  staticRoot : String := "/app/staticfiles"
  staticUrl : String := "/static/"
  serverImage : String := "joseluisq/static-web-server:2-alpine"
  prebuilt : Bool := false
  deriving DecidableEq

/-- `should_enable_pages`, `pages.rs:55–64`. -/
def shouldEnablePages (app : Project) : Bool :=
  app.spec.pages.isSome || app.spec.introspect.any fun i ↦ i.signals.pages

/-- `resolve_pages_config`, `pages.rs:69–98`. -/
def resolvePagesConfig (app : Project) : Option ResolvedPagesConfig :=
  if shouldEnablePages app then
    let defaults : ResolvedPagesConfig := {}
    match app.spec.pages with
    | some pages => some
        { staticRoot := pages.staticRoot.getD defaults.staticRoot
          staticUrl := pages.staticUrl.getD defaults.staticUrl
          serverImage := pages.serverImage.getD defaults.serverImage
          prebuilt := pages.prebuilt.getD defaults.prebuilt }
    | none => some defaults
  else none

/-- The parts of a slash-separated path. -/
def pathParts (path : List Char) : List (List Char) := path.splitOn '/'

/-- `is_working_directory`, `crd/pages.rs`. -/
def isWorkingDirectory (value : String) : Bool :=
  value ≠ "" && (pathParts value.toList).all (fun part ↦ part = ['.'] || part.isEmpty) &&
    value.toList.head? = some '.'

/-- `conflicting_publication_env`, `crd/pages.rs`. -/
def conflictingPublicationEnv (staticRoot staticUrl : String) (env : StringMap) : List String :=
  (env.filter fun (key, value) ↦
    let key := key.map Char.toUpper
    (key = "REINHARDT_ENV" && value ≠ "production") ||
      (["REINHARDT_STATIC_FILES__ROOT", "REINHARDT_STATIC__ROOT",
        "REINHARDT_STATIC_ROOT"].contains key && value ≠ staticRoot) ||
      (["REINHARDT_STATIC_FILES__URL", "REINHARDT_STATIC__URL",
        "REINHARDT_STATIC_URL"].contains key && value ≠ staticUrl) ||
      (["REINHARDT_CORE__BASE_DIR", "REINHARDT_BASE_DIR"].contains key &&
        !isWorkingDirectory value) ||
      ["REINHARDT_CLOUD_CONFIG_DIR"].contains key).map Prod.fst

/-- `root.trim_end_matches('/')`. -/
def trimEndSlashes (root : String) : List Char := (root.toList.reverse.dropWhile (· = '/')).reverse

/-- The checks of a pages configuration in `build_deployment`, `deployment.rs:117–160`. -/
def checkPages (config : ResolvedPagesConfig) (env : StringMap) : Except Error Unit :=
  let root := trimEndSlashes config.staticRoot
  if root.head? ≠ some '/' || root.isEmpty ||
      ((pathParts root).any fun part ↦ part = ['.'] || part = ['.', '.']) || root.any isControl then
    .error (.invalidStaticRoot config.staticRoot)
  else if config.prebuilt then
    let segments := ((pathParts root).drop 1).map String.ofList
    let allowed := 2 ≤ segments.length && segments.head? = some "app" &&
      (segments.all fun part ↦ part ≠ "") &&
      !(["settings", "migrations", "src", "target", ".git", ".agents", ".codex"].contains
        ((segments.drop 1).headD ""))
    if !allowed then .error (.invalidStaticRoot config.staticRoot)
    else
      let conflicts := conflictingPublicationEnv config.staticRoot config.staticUrl env
      if conflicts.isEmpty then .ok () else .error (.conflictingPagesEnv conflicts)
  else .ok ()

/-! ## Plugin checks -/

/-- `PLUGIN_WASM_DIR_PREFIX`, `crd/plugins.rs`. -/
def pluginWasmDirPrefix : String := "/var/lib/dentdelion"

/-- The errors of `PluginSpec::validate`, `crd/plugins.rs:98–149`. -/
def PluginSpec.errors (plugin : PluginSpec) : List String :=
  let trimmedDir := trim plugin.wasmDir
  let isAbsolute := startsWith trimmedDir "/"
  let hasParentDir := (trimmedDir.toList.splitOn '/').any (· = ['.', '.'])
  (if isBlank plugin.name then ["plugins[].name must be non-empty"] else []) ++
  (if trimmedDir = "" then ["plugins[].wasm_dir must be non-empty"]
  else
    (if isAbsolute then []
    else ["plugins[].wasm_dir must be an absolute path (start with '/')"]) ++
    (if hasParentDir then ["plugins[].wasm_dir must not contain '..' path components"] else []) ++
    if isAbsolute && !hasParentDir && (!startsWith trimmedDir (pluginWasmDirPrefix ++ "/") ||
        String.ofList (trimmedDir.toList.rdropWhile (· = '/')) = pluginWasmDirPrefix) then
      ["plugins[].wasm_dir must be under " ++ pluginWasmDirPrefix ++ "/"]
    else []) ++
  (if plugin.memoryLimitMb = some 0 then ["plugins[].memory_limit_mb must be > 0"] else []) ++
  (if plugin.timeoutMs = some 0 then ["plugins[].timeout_ms must be > 0"] else [])

/-- `validate_plugin_specs`, `resources/plugins.rs`. -/
def validatePluginSpecs (plugins : List PluginSpec) : Except Error Unit :=
  let messages := plugins.zipIdx.flatMap fun (plugin, idx) ↦
    plugin.errors.map fun message ↦ s!"plugins[{idx}]: {message}"
  if messages.isEmpty then .ok () else .error (.invalidPluginSpec ("; ".intercalate messages))

/-! ## `build_deployment` -/

/-- A container: its name, image and the ports it listens on. -/
structure Container where
  name : String
  image : String
  ports : List Int
  deriving DecidableEq

/-- A `Deployment`: metadata, replicas and the containers of its Pods. -/
structure Deployment where
  name : String
  ns : String
  owner : Uid
  replicas : Int
  initContainers : List Container
  containers : List Container
  deriving DecidableEq

/-- The outcome of `build_plugin_volumes`, a parameter where any outcome will do. -/
structure PodChecks where
  plugins : Project → Except Error Unit

/-- The check of `build_plugin_volumes`. -/
def pluginChecks : PodChecks := ⟨fun app ↦ validatePluginSpecs (app.spec.plugins.getD [])⟩

/-- Plugins that pass. -/
def passingChecks : PodChecks := ⟨fun _ ↦ .ok ()⟩

/-- The checks of `build_main_container_probe`, `deployment.rs:27–51`. -/
def checkMainContainerProbe (app : Project) (defaultPort : Int) : Except Error Unit :=
  match app.spec.health with
  | none => .ok ()
  | some health => do
    let _ ← validatePort "health.port" (health.port.getD defaultPort)
    let periodSeconds := health.intervalSeconds.getD 10
    if periodSeconds < 1 then .error (.invalidProbePeriod "health.interval_seconds" periodSeconds)
    else .ok ()

/-- The init container that seeds the static files, `deployment.rs:168–213`. -/
def staticFilesInit (app : Project) (config : ResolvedPagesConfig) : Container where
  name := if config.prebuilt then "seed-static-files" else "collectstatic"
  image := app.spec.image
  ports := []

/-- The static-server sidecar, `deployment.rs:239–295`. -/
def staticServer (config : ResolvedPagesConfig) : Container where
  name := "static-server"
  image := config.serverImage
  ports := [8080]

/-- `build_deployment`, `deployment.rs:60–372`. -/
def buildDeployment (checks : PodChecks) (app : Project)
    (pagesConfig : Option ResolvedPagesConfig) : Except Error Deployment := do
  let ns ← requireNamespace app
  let replicas := app.spec.replicas.getD 1
  let port ← validatePort "target_port" (app.spec.serviceTargetPort.getD 8000)
  let owner ← ownerReference app
  checks.plugins app
  pagesConfig.elim (.ok ()) fun config ↦ checkPages config app.spec.env
  checkMainContainerProbe app port
  let _ ← app.validatedImagePullSecrets
  return {
    name := app.name
    ns := ns
    owner := owner
    replicas := replicas
    initContainers := (pagesConfig.map (staticFilesInit app)).toList
    containers := ⟨app.name, app.spec.image, [port]⟩ :: (pagesConfig.map staticServer).toList }

/-! ## `build_service` -/

/-- `ServicePort`. -/
structure ServicePort where
  name : Option String
  port : Int
  targetPort : Int
  deriving DecidableEq

/-- A `Service`: metadata and ports. -/
structure Service where
  name : String
  ns : String
  owner : Uid
  ports : List ServicePort
  deriving DecidableEq

/-- `build_service`, `service.rs:21–84`. -/
def buildService (app : Project) (pagesEnabled : Bool) : Except Error Service := do
  let ns ← requireNamespace app
  let port ← validatePort "port" (app.spec.servicePort.getD 80)
  let targetPort ← validatePort "target_port" (app.spec.serviceTargetPort.getD 8000)
  let owner ← ownerReference app
  return {
    name := app.name
    ns := ns
    owner := owner
    ports := ⟨if pagesEnabled then some "http-app" else none, port, targetPort⟩ ::
      if pagesEnabled then [⟨some "http-static", 8080, 8080⟩] else [] }

/-! ## `build_ingress` -/

/-- `HTTPIngressPath`: the path and the Service port of its backend. -/
structure HttpIngressPath where
  path : String
  serviceName : String
  servicePort : UInt16
  deriving DecidableEq

/-- An `Ingress`: metadata and its one rule. -/
structure Ingress where
  name : String
  ns : String
  owner : Uid
  host : Option String
  paths : List HttpIngressPath
  deriving DecidableEq

/-- Append a path unless it is there, `ingress.rs:124–131`. -/
def appendPath (paths : List HttpIngressPath) (wanted : Bool) (path : HttpIngressPath) :
    List HttpIngressPath :=
  if wanted && !(paths.any fun p ↦ p.path = path.path) then paths ++ [path] else paths

/-- Insert the static path before a catch-all path, `ingress.rs:134–146`. -/
def insertStaticPath (paths : List HttpIngressPath) (path : HttpIngressPath) :
    List HttpIngressPath :=
  if paths.any fun p ↦ p.path = path.path then paths
  else
    (paths.takeWhile fun p ↦ p.path ≠ "/") ++ path :: paths.dropWhile fun p ↦ p.path ≠ "/"

theorem mem_appendPath {paths : List HttpIngressPath} {wanted : Bool}
    {path p : HttpIngressPath} (h : p ∈ appendPath paths wanted path) : p ∈ paths ∨ p = path := by
  unfold appendPath at h
  split at h
  · rwa [List.mem_append, List.mem_singleton] at h
  · exact Or.inl h

theorem subset_appendPath {paths : List HttpIngressPath} {wanted : Bool}
    {path p : HttpIngressPath} (h : p ∈ paths) : p ∈ appendPath paths wanted path := by
  unfold appendPath
  split
  · exact List.mem_append_left _ h
  · exact h

theorem mem_insertStaticPath {paths : List HttpIngressPath} {path p : HttpIngressPath}
    (h : p ∈ insertStaticPath paths path) : p ∈ paths ∨ p = path := by
  unfold insertStaticPath at h
  split at h
  · exact Or.inl h
  · rw [List.mem_append, List.mem_cons] at h
    rcases h with h | h | h
    · exact Or.inl (List.takeWhile_subset _ h)
    · exact Or.inr h
    · exact Or.inl (List.dropWhile_subset _ h)

theorem subset_insertStaticPath {paths : List HttpIngressPath} {path p : HttpIngressPath}
    (h : p ∈ paths) : p ∈ insertStaticPath paths path := by
  unfold insertStaticPath
  split
  · exact h
  · rw [← List.takeWhile_append_dropWhile (p := fun p : HttpIngressPath ↦ p.path ≠ "/")
      (l := paths), List.mem_append] at h
    rw [List.mem_append, List.mem_cons]
    exact h.imp_right Or.inr

/-- The paths of `build_ingress`, `ingress.rs:116–146`. -/
def ingressPaths (app : Project) (routes : List String) (appPort : UInt16)
    (signals : Option InfraSignals) (pagesConfig : Option ResolvedPagesConfig) :
    List HttpIngressPath :=
  let httpPath := fun path port ↦ (⟨path, app.name, port⟩ : HttpIngressPath)
  let paths := routes.map fun route ↦ httpPath route appPort
  let paths := appendPath paths (signals.any fun s ↦ s.graphql) (httpPath "/graphql/" appPort)
  let paths := appendPath paths (signals.any fun s ↦ s.adminPanel) (httpPath "/admin/" appPort)
  match pagesConfig with
  | some config => insertStaticPath paths (httpPath config.staticUrl 8080)
  | none => paths

/-- `build_ingress`, `ingress.rs:106–213`. -/
def buildIngress (app : Project) (routes : List String) (appPort : UInt16) (host : Option String)
    (signals : Option InfraSignals) (pagesConfig : Option ResolvedPagesConfig) :
    Except Error (Option Ingress) :=
  let paths := ingressPaths app routes appPort signals pagesConfig
  if paths.isEmpty then .ok none
  else do
    let ns ← requireNamespace app
    let owner ← ownerReference app
    return some ⟨app.name, ns, owner, host, paths⟩

theorem paths_of_buildIngress {app : Project} {routes : List String} {appPort : UInt16}
    {host : Option String} {signals : Option InfraSignals}
    {pagesConfig : Option ResolvedPagesConfig} {ing : Ingress}
    (h : buildIngress app routes appPort host signals pagesConfig = .ok (some ing)) :
    ing.paths = ingressPaths app routes appPort signals pagesConfig := by
  simp only [buildIngress] at h
  split at h
  · cases h
  · simp only [bind_eq_ok] at h
    obtain ⟨ns, -, owner, -, hing⟩ := h
    obtain rfl := Option.some.inj (Except.ok.inj hing)
    rfl

/-- `port as u16`. -/
def asU16 (port : Int) : UInt16 := UInt16.ofNat (port % 65536).toNat

/-- `resolve_app_port`, `reconciler.rs:1186–1200`. -/
def resolveAppPort (app : Project) : UInt16 :=
  match app.spec.serviceTargetPort with
  | some port => asU16 port
  | none => (app.spec.introspect.map fun i ↦ i.defaultPort).getD 8000

/-- `resolve_ingress_config`, `reconciler.rs:1252–1283`. -/
def resolveIngressConfig (app : Project) : Option (List String × UInt16) :=
  if app.spec.ingressHost.isSome then none
  else app.spec.introspect.bind fun i ↦
    if i.routes.isEmpty then none else some (i.routes, resolveAppPort app)

/-- The Ingress step of `apply`, `reconciler.rs:766–805,1586–1634`. `normalizeHost` trims and
checks a host: the empty one is none, one that may not be used is an error. -/
def ingressStep (normalizeHost : String → Except Error (Option String)) (app : Project)
    (pagesConfig : Option ResolvedPagesConfig) : Except Error (Option Ingress) :=
  let signals := app.spec.introspect.map fun i ↦ i.signals
  match resolveIngressConfig app with
  | some (routes, port) => buildIngress app routes port none signals pagesConfig
  | none =>
    match app.spec.ingressHost with
    | some host => do
      let host ← normalizeHost host
      buildIngress app ["/"] (resolveAppPort app) host signals pagesConfig
    | none => .ok none

end ReinhardtCloud.Operator

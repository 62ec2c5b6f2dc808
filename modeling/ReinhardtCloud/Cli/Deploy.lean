import ReinhardtCloud.Cli.CloudTomlGenerator
import ReinhardtCloud.Cli.CloudTomlText
import ReinhardtCloud.Dashboard.SpecChecks

/-!
# The Project that a deploy makes

Library `Cli`. What `deploy` reads of a project and builds from it
(`crates/reinhardt-cloud-cli/src/commands/deploy.rs:122–226,403–516,594–701`), with the conversion
of a configuration (`reinhardt-cloud-types/src/reinhardt_cloud_toml.rs:294–422`).
-/

namespace ReinhardtCloud.Cli

open ReinhardtCloud.Base

/-! ## Introspection without the application -/

/-- `IntrospectOutput`, `introspect.rs`: the application, its databases with their aliases and
engines, and its features. The rest is empty, or at its defaults, without the application. -/
structure IntrospectOutput where
  appName : String
  appVersion : String
  databases : List (String × String)
  declared : List String
  resolved : List String
  signals : IntrospectInfraSignals
  deriving DecidableEq

/-- `synthesize_infra_signals`, `deploy.rs:122–162`. -/
def synthesizeInfraSignals (detected : InfraSignals) : IntrospectInfraSignals where
  database := detected.database
  cache := detected.cache
  websocket := detected.websocket
  backgroundWorker := detected.backgroundWorker
  grpc := detected.grpc
  storage := if detected.objectStorage then some "local" else none
  mail := none
  sessionBackend := if detected.sessions then some "db" else none
  graphql := detected.graphql
  adminPanel := false
  i18n := false
  pages := detected.pages

/-- `synthesize_introspect_from_project`, `deploy.rs:164–209`. -/
def synthesizeIntrospectFromProject (above : List (Option Toml)) (manifest : Toml)
    (database : Option DatabaseConfig) : Option IntrospectOutput :=
  (detectProject above manifest).toOption.map fun project ↦ {
    appName := project.name
    appVersion := project.version
    databases := database.toList.map fun config ↦ ("default", config.engine)
    declared := project.features
    resolved := project.features
    signals := synthesizeInfraSignals project.signals }

/-- What the operator reads of it. -/
def IntrospectOutput.forOperator (introspect : IntrospectOutput) : Operator.IntrospectOutput where
  signals := {
    database := introspect.signals.database
    cache := introspect.signals.cache
    backgroundWorker := introspect.signals.backgroundWorker
    grpc := introspect.signals.grpc
    storage := introspect.signals.storage
    mail := introspect.signals.mail
    sessionBackend := introspect.signals.sessionBackend
    graphql := introspect.signals.graphql
    adminPanel := introspect.signals.adminPanel
    i18n := introspect.signals.i18n
    pages := introspect.signals.pages }
  routes := []
  appVersion := introspect.appVersion

/-- `read_reinhardt_cloud_toml`, `deploy.rs:211–226`, of a file that can be read if it is there. -/
def readReinhardtCloudToml (toml : TomlCodec) :
    Option String → Except String (Option ReinhardtCloudToml)
  | none => .ok none
  | some text =>
    match cloudTomlFromStr toml text with
    | .ok config => .ok (some config)
    | .error error => .error ("Failed to parse reinhardt-cloud.toml: " ++ error)

/-! ## `to_project_spec`, `reinhardt_cloud_toml.rs:294–422` -/

def databaseEngineOf (engine : String) : Operator.DatabaseEngine :=
  if engine = "mysql" then .mysql else if engine = "sqlite" then .sqlite else .postgresql

def scaleMetricOf (metric : String) : Operator.ScaleMetric :=
  if metric = "memory" then .memory else if metric = "rps" then .rps else .cpu

def webhookEventOf (event : String) : Option Dashboard.SourceWebhookEvent :=
  if event = "push" then some .push
  else if event = "pull_request" then some .pullRequest
  else if event = "tag" then some .tag
  else none

def SourceSection.toSourceSpec (source : SourceSection) : Operator.SourceSpec where
  repository := source.repository
  branch := source.branch
  credentialsSecret := source.credentialsSecret
  build := source.build.map fun build ↦
    ⟨build.dockerfile, build.context, build.registry, build.buildArgs.entries⟩
  preview := source.preview.map fun preview ↦ ⟨preview.enabled, preview.ttl, preview.urlTemplate⟩

def ServiceTlsSection.toServiceTlsSpec (tls : ServiceTlsSection) : Dashboard.ServiceTlsSpec :=
  ⟨tls.enabled, tls.secretName, tls.issuer, tls.clusterIssuer⟩

def WebhookTomlSection.toWebhookSpec (webhook : WebhookTomlSection) : Dashboard.WebhookSpec :=
  ⟨webhook.enabled, webhook.events.filterMap webhookEventOf, webhook.secretRef⟩

def PagesSection.toPagesSpec (pages : PagesSection) : Operator.PagesSpec :=
  ⟨pages.staticRoot, pages.staticUrl, pages.serverImage, pages.prebuilt⟩

namespace ReinhardtCloudToml

variable (config : ReinhardtCloudToml)

/-- The spec but for what stands beside it. -/
def toProjectSpec : Operator.ProjectSpec where
  image := config.app.image
  source := config.source.map SourceSection.toSourceSpec
  database := config.database.map fun database ↦ databaseEngineOf database.engine
  cache := config.cache.isSome
  worker := config.worker.isSome
  authJwt := config.auth.any AuthSection.jwt
  mail := config.mail.isSome
  scale := config.scale.map fun scale ↦ scale.metric.map scaleMetricOf
  ingressHost := config.services.bind ServicesSection.ingressHost
  replicas := config.replicas.map fun replicas ↦ replicas.count.toInt
  env := config.env.entries
  health := config.health.map fun health ↦
    ⟨health.path, health.port.map Int32.toInt, health.intervalSeconds.map Int32.toInt⟩
  pages := config.pages.map PagesSection.toPagesSpec
  servicePort := (config.services.bind ServicesSection.port).map Int32.toInt
  serviceTargetPort := (config.services.bind ServicesSection.targetPort).map Int32.toInt
  scaleMinReplicas := (config.scale.bind ScaleSection.minReplicas).map Int32.toInt
  scaleMaxReplicas := (config.scale.bind ScaleSection.maxReplicas).map Int32.toInt
  scaleTargetValue := (config.scale.bind ScaleSection.targetValue).map Int32.toInt
  databaseInstanceClass := config.database.bind DatabaseSection.instanceClass
  databaseStorageGb := (config.database.bind DatabaseSection.storageGb).map Int32.toInt
  databaseVersion := config.database.bind DatabaseSection.version

/-- What stands beside the spec. -/
def toSpecSettings : Dashboard.SpecSettings where
  workerConcurrency := config.worker.map fun worker ↦ worker.concurrency.toInt
  smtpPort := (config.mail.bind MailSection.smtpPort).map Int32.toInt
  tls := (config.services.bind ServicesSection.tls).map ServiceTlsSection.toServiceTlsSpec
  webhook := (config.source.bind SourceSection.webhook).map WebhookTomlSection.toWebhookSpec
  previewReplicas := (((config.source.bind SourceSection.preview).bind
    PreviewTomlSection.overrides).bind PreviewOverridesTomlSection.replicas).map Int32.toInt
  previewMaxReplicas := (((config.source.bind SourceSection.preview).bind
    PreviewTomlSection.budget).bind PreviewBudgetTomlSection.maxReplicas).map Int32.toInt
  infrastructure := config.infrastructure

end ReinhardtCloudToml

/-! ## The command -/

/-- `DeployArgs`: those that decide about the Project. -/
structure DeployArgs where
  name : Option String := none
  image : Option String := none
  replicas : Option UInt32 := none
  ns : String := "default"
  deriving DecidableEq

/-- `typed_secret_refs`, `deploy.rs:438–459`. No configuration has an OAuth application or a Secret
of its mail server. -/
def typedSecretRefs (spec : Operator.ProjectSpec) (settings : Dashboard.SpecSettings) :
    List String :=
  (spec.source.bind Operator.SourceSpec.credentialsSecret).toList ++
    (settings.webhook.bind Dashboard.WebhookSpec.secretRef).toList

/-- `build_project_spec`, `deploy.rs:403–436`. -/
def buildProjectSpec (config : Option ReinhardtCloudToml) (projectName image : String)
    (replicas : Int) (introspect : Option IntrospectOutput) :
    Except String (Operator.ProjectSpec × Dashboard.SpecSettings) := do
  let spec := { config.elim { image := image } ReinhardtCloudToml.toProjectSpec with
    image := image
    replicas := some replicas
    introspect := introspect.map IntrospectOutput.forOperator }
  let settings := config.elim {} ReinhardtCloudToml.toSpecSettings
  match settings.infrastructure, introspect with
  | none, some introspect =>
    let infrastructure ← (deriveInfrastructureSpec {
      projectName := projectName
      signals := introspect.signals
      explicit := none
      typedSecretRefs := typedSecretRefs spec settings }).mapError DerivationError.display
    return (spec, { settings with infrastructure := infrastructure })
  | _, _ => return (spec, settings)

/-- A Project that passes its validation, `deploy.rs:693–700`. -/
def validated (project : Dashboard.Manifest) : Except String Dashboard.Manifest :=
  if project.specErrors.isEmpty then .ok project
  else .error ("invalid Project spec: " ++ "; ".intercalate project.specErrors)

/-- The Project that `execute_inner` prints, applies or submits, `deploy.rs:637–701`. -/
def deployedManifest (args : DeployArgs) (config : Option ReinhardtCloudToml)
    (introspect : Option IntrospectOutput) : Except String Dashboard.Manifest := do
  let some projectName := (args.name.or (introspect.map IntrospectOutput.appName)).or
      (config.map fun config ↦ config.app.name) |
    throw "--name is required (or run from a reinhardt project directory)"
  let some image := args.image.or (config.map fun config ↦ config.app.image) |
    throw "--image is required"
  let replicas := (args.replicas.or ((config.bind ReinhardtCloudToml.replicas).map fun replicas ↦
    replicas.count.toUInt32)).getD 1
  if 2 ^ 31 ≤ replicas.toNat then
    throw s!"replicas value {replicas.toNat} exceeds i32::MAX"
  let built ← buildProjectSpec config projectName image replicas.toNat introspect
  validated ⟨projectName, args.ns, ⟨none, none, none, none⟩, built.1, built.2⟩

/-- `execute_inner` where `manage introspect` fails: what the Project is made of. -/
def deploy (toml : TomlCodec) (args : DeployArgs) (above : List (Option Toml)) (manifest : Toml)
    (database : Option DatabaseConfig) (file : Option String) :
    Except String Dashboard.Manifest := do
  let introspect := synthesizeIntrospectFromProject above manifest database
  let config ← readReinhardtCloudToml toml file
  deployedManifest args config introspect

end ReinhardtCloud.Cli

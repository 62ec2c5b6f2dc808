import ReinhardtCloud.Cli.CloudToml
import ReinhardtCloud.Cli.FeatureDetection
import ReinhardtCloud.Cli.Infrastructure

/-!
# Generated configurations

Library `Cli`. What `init` and `sync` generate from the metadata of a project and its database
settings (`crates/reinhardt-cloud-cli/src/toml_generator.rs:25–182`,
`settings_reader.rs:12–56`). The loader of the settings files is a library of the framework; here
is what it yields.
-/

namespace ReinhardtCloud.Cli

open ReinhardtCloud.Base

/-! ## Database settings -/

/-- `DatabaseConfig`, `settings_reader.rs:12–20`. -/
structure DatabaseConfig where
  engine : String
  host : Option String
  port : Option UInt16
  name : String
  user : Option String
  deriving DecidableEq

/-- Insert an entry whose value is there. -/
def insertSome (key : String) (value : Option String) (env : SortedMap String String) :
    SortedMap String String :=
  value.elim env (env.insert key)

/-- `deployment_env`, `settings_reader.rs:41–56`. -/
def DatabaseConfig.deploymentEnv (config : DatabaseConfig) : SortedMap String String :=
  let env := insertSome "REINHARDT_DATABASE_HOST" (config.host.filter (· ≠ "")) .empty
  let env := insertSome "REINHARDT_DATABASE_PORT" (config.port.map fun p ↦ toString p.toNat) env
  let env := insertSome "REINHARDT_DATABASE_NAME" ((some config.name).filter (· ≠ "")) env
  insertSome "REINHARDT_DATABASE_USER" (config.user.filter (· ≠ "")) env

/-- The database variables taken from settings. -/
def databaseVariables (database : Option DatabaseConfig) : SortedMap String String :=
  database.elim .empty DatabaseConfig.deploymentEnv

/-! ## The generator, `toml_generator.rs` -/

/-- `resolve_database`, `toml_generator.rs:74–85`. -/
def resolveDatabase (metadata : ProjectMetadata) (database : Option DatabaseConfig) :
    Bool × String :=
  (metadata.signals.database.isSome || database.isSome,
    ((database.map DatabaseConfig.engine).or metadata.signals.database).getD "postgresql")

/-- `convert_infra_signals`, `toml_generator.rs:163–182`. -/
def convertInfraSignals (signals : InfraSignals) (effectiveDatabase : Option String) :
    IntrospectInfraSignals where
  database := effectiveDatabase
  cache := signals.cache
  websocket := signals.websocket
  backgroundWorker := signals.backgroundWorker
  grpc := signals.grpc
  storage := none
  mail := none
  sessionBackend := if signals.sessions then some "db" else none
  graphql := signals.graphql
  adminPanel := false
  i18n := false
  pages := signals.pages

/-- `build_config`, `toml_generator.rs:87–152`. -/
def buildConfig (metadata : ProjectMetadata) (database : Option DatabaseConfig)
    (hasDatabase : Bool) (engine : String) (infrastructure : Option InfrastructureSpec) :
    ReinhardtCloudToml where
  app := ⟨metadata.name, metadata.name ++ ":latest"⟩
  database := if hasDatabase then some { engine := engine } else none
  auth := if metadata.signals.jwt then some ⟨true⟩ else none
  health := some ⟨some "/api/healthz/", some 8000, some 10⟩
  services := some ⟨some 80, some 8000, none, none⟩
  scale := some ⟨some 2, some 6, some "cpu", some 70⟩
  cache := metadata.signals.cache.map fun backend ↦ { backend := backend }
  worker := if metadata.signals.backgroundWorker then some {} else none
  storage := if metadata.signals.objectStorage then some {} else none
  infrastructure := infrastructure
  env := SortedMap.empty.extend (databaseVariables database).entries

/-- The infrastructure of a project without explicit one. -/
def derivedInfrastructure (metadata : ProjectMetadata) (database : Option DatabaseConfig) :
    Except DerivationError (Option InfrastructureSpec) :=
  let resolved := resolveDatabase metadata database
  deriveInfrastructureSpec {
    projectName := metadata.name
    signals := convertInfraSignals metadata.signals
      (if resolved.1 then some resolved.2 else none)
    explicit := none
    typedSecretRefs := [] }

/-- `generate_config`, `toml_generator.rs:25–45`. -/
def generateConfig (metadata : ProjectMetadata) (database : Option DatabaseConfig) :
    Except String ReinhardtCloudToml := do
  let infrastructure ← (derivedInfrastructure metadata database).mapError DerivationError.display
  let (hasDatabase, engine) := resolveDatabase metadata database
  return buildConfig metadata database hasDatabase engine infrastructure

/-- `generate_config_preserving_explicit_infrastructure`, `toml_generator.rs:47–72`. -/
def generateConfigPreservingExplicitInfrastructure (metadata : ProjectMetadata)
    (database : Option DatabaseConfig) (explicit : Option InfrastructureSpec) :
    Except String ReinhardtCloudToml := do
  if let some infrastructure := explicit then
    validationMessage infrastructure
  match generateConfig metadata database, explicit with
  | .ok config, _ => return config
  | .error error, none => throw error
  | .error _, some infrastructure =>
    let (hasDatabase, engine) := resolveDatabase metadata database
    return buildConfig metadata database hasDatabase engine (some infrastructure)

/-! ## What is generated -/

/-- A generated configuration up to its infrastructure. -/
def generated (metadata : ProjectMetadata) (database : Option DatabaseConfig)
    (infrastructure : Option InfrastructureSpec) : ReinhardtCloudToml :=
  buildConfig metadata database (resolveDatabase metadata database).1
    (resolveDatabase metadata database).2 infrastructure

theorem env_generated (metadata : ProjectMetadata) (database : Option DatabaseConfig)
    (infrastructure : Option InfrastructureSpec) :
    (generated metadata database infrastructure).env = databaseVariables database :=
  SortedMap.extend_entries _

end ReinhardtCloud.Cli

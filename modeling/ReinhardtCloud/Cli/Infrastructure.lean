import Mathlib.Data.String.Basic
import ReinhardtCloud.Base.Characters
import ReinhardtCloud.Base.SortedMap
import ReinhardtCloud.Cli.InfrastructureBlock

/-!
# Managed infrastructure

Library `Cli`. The `infrastructure` block of a Project derived from the signals of an application
(`crates/reinhardt-cloud-core/src/infrastructure_derivation.rs:12–119`).
-/

namespace ReinhardtCloud.Cli

open ReinhardtCloud.Base

/-! ## Its derivation -/

/-- `InfraSignals`, `introspect.rs:166–206`. -/
structure IntrospectInfraSignals where
  database : Option String := none
  cache : Option String := none
  websocket : Bool := false
  backgroundWorker : Bool := false
  grpc : Bool := false
  storage : Option String := none
  mail : Option String := none
  sessionBackend : Option String := none
  graphql : Bool := false
  adminPanel : Bool := false
  i18n : Bool := false
  pages : Bool := false
  deriving DecidableEq

/-- `InfrastructureDerivationInput`, `infrastructure_derivation.rs:13–22`. -/
structure InfrastructureDerivationInput where
  projectName : String
  signals : IntrospectInfraSignals
  explicit : Option InfrastructureSpec
  typedSecretRefs : List String

/-- `DerivationError`, `infrastructure_derivation.rs:26–44`. -/
inductive DerivationError where
  | unsupportedDatabaseEngine (engine : String)
  | unsupportedStorageBackend (backend : String)
  | invalidExplicitInfrastructure (message : String)
  | invalidDerivedInfrastructure (message : String)
  deriving DecidableEq

/-- The `Display` of an error, `infrastructure_derivation.rs:26–44`. -/
def DerivationError.display : DerivationError → String
  | .unsupportedDatabaseEngine engine =>
    s!"unsupported managed database engine `{engine}`; supported values: postgres, postgresql"
  | .unsupportedStorageBackend backend =>
    s!"unsupported managed storage backend `{backend}`; supported values: s3, gcs"
  | .invalidExplicitInfrastructure message => s!"invalid explicit infrastructure: {message}"
  | .invalidDerivedInfrastructure message => s!"invalid derived infrastructure: {message}"

/-- `validation_message`, `infrastructure_derivation.rs:111–119`. -/
def validationMessage (spec : InfrastructureSpec) : Except String Unit :=
  spec.validate.mapError ("; ".intercalate ·)

/-- The Postgres of a database signal, `infrastructure_derivation.rs:57–69`. -/
def derivePostgres : Option String → Except DerivationError (Option PostgresSpec)
  | none => .ok none
  | some engine =>
    if engine = "postgres" || engine = "postgresql" then
      .ok (some { tier := none, version := some "16", backupRetentionDays := some 7 })
    else .error (.unsupportedDatabaseEngine engine)

/-- The bucket of a storage signal, `infrastructure_derivation.rs:71–81`. -/
def deriveBuckets (projectName : String) :
    Option String → Except DerivationError (Option (List BucketSpec))
  | none => .ok none
  | some backend =>
    if backend = "s3" || backend = "gcs" then
      .ok (some [{ name := s!"{projectName}-assets", isPublic := false }])
    else .error (.unsupportedStorageBackend backend)

/-- The secrets of the typed references, `infrastructure_derivation.rs:83–99`. -/
def deriveSecrets (typedSecretRefs : List String) : Option (List SecretSpec) :=
  let names := (typedSecretRefs.map trim).filter (· ≠ "")
  let secretNames := (SortedMap.empty.extend (names.map (·, ()))).entries.map Prod.fst
  if secretNames.isEmpty then none
  else some (secretNames.map fun name ↦
    { name := name, description := some "Application-managed secret reference" })

/-- `derive_infrastructure_spec`, `infrastructure_derivation.rs:47–109`. -/
def deriveInfrastructureSpec (input : InfrastructureDerivationInput) :
    Except DerivationError (Option InfrastructureSpec) :=
  match input.explicit with
  | some explicit => do
    (validationMessage explicit).mapError .invalidExplicitInfrastructure
    return some explicit
  | none => do
    let postgres ← derivePostgres input.signals.database
    let buckets ← deriveBuckets input.projectName input.signals.storage
    let spec : InfrastructureSpec :=
      { postgres := postgres, buckets := buckets, secrets := deriveSecrets input.typedSecretRefs }
    if spec.postgres.isNone && spec.buckets.all List.isEmpty && spec.dns.all List.isEmpty &&
        spec.secrets.all List.isEmpty then
      return none
    (validationMessage spec).mapError .invalidDerivedInfrastructure
    return some spec

end ReinhardtCloud.Cli

import ReinhardtCloud.Operator.Environment
import ReinhardtCloud.Operator.Workloads

/-!
# Database resources

Library `Operator`. `infer_database_resources` for the three platforms
(`crates/reinhardt-cloud-operator/src/inference/database.rs`), the credentials Secret of
`inference/secrets.rs:99–134` and that of an introspected database,
`resources/database.rs:21–92`. A random password is a parameter. Of the Pod template of the
StatefulSet its one container stands here.
-/

namespace ReinhardtCloud.Operator.Database

/-! ## Validation -/

/-- `ALLOWED_DATABASE_INSTANCE_CLASSES`, `crd/database.rs:8–18`. -/
def allowedInstanceClasses : List String :=
  ["db.t3.micro", "db.t3.small", "db.t3.medium", "db.t3.large", "db.r5.large", "db-f1-micro",
    "db-g1-small", "db-custom-1-3840", "db-custom-2-8192"]

/-- `AWS_DATABASE_INSTANCE_CLASSES`. -/
def awsInstanceClasses : List String :=
  ["db.t3.micro", "db.t3.small", "db.t3.medium", "db.t3.large", "db.r5.large"]

/-- `GCP_DATABASE_INSTANCE_CLASSES`. -/
def gcpInstanceClasses : List String :=
  ["db-f1-micro", "db-g1-small", "db-custom-1-3840", "db-custom-2-8192"]

/-- `DatabaseSpec::validate`, `crd/database.rs:70–93`. -/
def validateSpec (spec : ProjectSpec) : Except String Unit :=
  if spec.databaseStorageGb.any fun gb ↦ gb ≤ 0 then .error "database.storage_gb must be > 0"
  else if spec.databaseStorageGb.any fun gb ↦ 100 < gb then
    .error "database.storage_gb must be <= 100"
  else if spec.databaseInstanceClass.any fun c ↦ !allowedInstanceClasses.contains c then
    .error ("database.instance_class must be one of: " ++ ", ".intercalate allowedInstanceClasses)
  else .ok ()

/-- `PlatformConfig`: the platform and its database defaults, `inference/platform.rs`. -/
structure PlatformConfig where
  platform : Platform
  instanceClass : String
  storageGb : Int
  region : String
  deriving DecidableEq

namespace PlatformConfig

/-- `aws_defaults`. -/
def awsDefaults : PlatformConfig := ⟨.aws, "db.t3.micro", 20, "us-east-1"⟩

/-- `gcp_defaults`. -/
def gcpDefaults : PlatformConfig := ⟨.gcp, "db-f1-micro", 10, "us-central1"⟩

/-- `onprem_defaults`. -/
def onpremDefaults : PlatformConfig := ⟨.onpremise, "", 20, ""⟩

end PlatformConfig

/-- The refusal of an instance class of another platform, `database.rs:189–193`. -/
def instanceClassError (instanceClass platform : String) (allowed : List String) : Error :=
  .databaseProvisioning (s!"database.instance_class '{instanceClass}' is not allowed for " ++
    s!"{platform}; allowed values: " ++ ", ".intercalate allowed)

/-- `validate_database_for_platform`, `database.rs:171–197`. -/
def validateDatabaseForPlatform (spec : ProjectSpec) (platform : Platform) : Except Error Unit := do
  (validateSpec spec).mapError .databaseProvisioning
  match spec.databaseInstanceClass with
  | none => .ok ()
  | some instanceClass =>
    match platform with
    | .onpremise => .error (.databaseProvisioning
        "database.instance_class is not supported for onpremise databases")
    | .aws =>
      if awsInstanceClasses.contains instanceClass then .ok ()
      else .error (instanceClassError instanceClass "Aws" awsInstanceClasses)
    | .gcp =>
      if gcpInstanceClasses.contains instanceClass then .ok ()
      else .error (instanceClassError instanceClass "Gcp" gcpInstanceClasses)

/-! ## Identifiers -/

/-- `engine_to_string`. -/
def engineToString : DatabaseEngine → Option String
  | .postgresql => some "postgres"
  | .mysql => some "mysql"
  | .sqlite => none

/-- `default_engine_version`. -/
def defaultEngineVersion : DatabaseEngine → String
  | .postgresql => "16"
  | .mysql => "8.0"
  | .sqlite => ""

/-- `max_identifier_len`. -/
def maxIdentifierLen : DatabaseEngine → Nat
  | .mysql => 32
  | .postgresql => 63
  | .sqlite => 63

/-- `sanitize_identifier`, `database.rs:82–96`. -/
def sanitizeIdentifier (name : String) (engine : DatabaseEngine) : String :=
  let sanitized := name.toList.map fun c ↦ if c.isAlphanum then c else '_'
  let sanitized :=
    if sanitized.head?.any Char.isAlpha then sanitized else "app_".toList ++ sanitized
  String.ofList (sanitized.take (maxIdentifierLen engine))

/-- `sanitize_db_name`, `resources/database.rs:37–53`. -/
def sanitizeDbName (name : String) : String :=
  let sanitized := (replaceChar '-' '_' name).toList.filter fun c ↦ c.isAlphanum || c = '_'
  let sanitized := if sanitized.head?.any Char.isDigit then '_' :: sanitized else sanitized
  String.ofList (sanitized.take 63)

/-- `engine_to_gcp_version`, `database.rs:103–122`. -/
def engineToGcpVersion (engine : DatabaseEngine) (version : Option String) : Option String :=
  match engine, version.map (replaceChar '.' '_') with
  | .postgresql, some v => some s!"POSTGRES_{v}"
  | .mysql, some v => some s!"MYSQL_{v}"
  | .postgresql, none => some "POSTGRES_16"
  | .mysql, none => some "MYSQL_8_0"
  | .sqlite, _ => none

/-! ## Objects -/

/-- A `StatefulSet`: metadata, selector and the one container with its volume. -/
structure StatefulSet where
  name : String
  ns : String
  labels : StringMap
  replicas : Int
  serviceName : String
  selector : StringMap
  containerName : String
  image : String
  port : Int
  envFromSecret : String
  mountPath : String
  volumeClaim : String
  deriving DecidableEq

/-- A `PersistentVolumeClaim`. -/
structure PersistentVolumeClaim where
  name : String
  ns : String
  labels : StringMap
  accessModes : List String
  storage : String
  deriving DecidableEq

/-- A headless `Service`. -/
structure DbService where
  name : String
  ns : String
  labels : StringMap
  selector : StringMap
  port : Int
  targetPort : Int
  deriving DecidableEq

/-- A `ConfigMap`. -/
structure ConfigMap where
  name : String
  ns : String
  labels : StringMap
  data : StringMap
  deriving DecidableEq

/-- A credentials `Secret`. -/
structure DbSecret where
  name : String
  ns : String
  labels : StringMap
  owner : Option Uid
  data : StringMap
  deriving DecidableEq

/-- The `spec` of a cloud provider's object. -/
inductive DynamicSpec where
  | dbInstance (engine engineVersion dbInstanceClass : String) (allocatedStorage : Int)
      (masterUsername passwordSecret dbName : String)
  | sqlInstance (databaseVersion region tier : String) (dataDiskSizeGb : Int)
  | sqlDatabase (instanceRef : String)
  | sqlUser (instanceRef passwordSecret : String)
  deriving DecidableEq

/-- The kind of a cloud provider's object. -/
def DynamicSpec.kind : DynamicSpec → String
  | .dbInstance .. => "DBInstance"
  | .sqlInstance .. => "SQLInstance"
  | .sqlDatabase .. => "SQLDatabase"
  | .sqlUser .. => "SQLUser"

/-- A `DynamicObject`. -/
structure DynamicObject where
  name : String
  ns : String
  labels : StringMap
  spec : DynamicSpec
  deriving DecidableEq

/-- `DatabaseResource`, `database.rs:126–139`. -/
inductive Resource where
  | statefulSet (o : StatefulSet)
  | pvc (o : PersistentVolumeClaim)
  | service (o : DbService)
  | configMap (o : ConfigMap)
  | secret (o : DbSecret)
  | dynamic (o : DynamicObject)
  deriving DecidableEq

/-- The kind of a resource. -/
def Resource.kind : Resource → ObjectKind
  | .statefulSet _ => .statefulSet
  | .pvc _ => .persistentVolumeClaim
  | .service _ => .service
  | .configMap _ => .configMap
  | .secret _ => .secret
  | .dynamic o => .dynamic o.spec.kind

/-- The name of a resource. -/
def Resource.name : Resource → String
  | .statefulSet o => o.name
  | .pvc o => o.name
  | .service o => o.name
  | .configMap o => o.name
  | .secret o => o.name
  | .dynamic o => o.name

/-! ## Builders -/

/-- `standard_db_labels`. -/
def standardDbLabels (projectName : String) : StringMap :=
  [("app.kubernetes.io/component", "database"),
    ("app.kubernetes.io/managed-by", "reinhardt-cloud-operator"),
    ("app.kubernetes.io/name", projectName)]

/-- `db_selector_labels`. -/
def dbSelectorLabels (projectName : String) : StringMap :=
  [("app.kubernetes.io/component", "database"), ("app.kubernetes.io/name", projectName)]

/-- `legacy_stateful_set_selector_labels`. -/
def legacyStatefulSetSelectorLabels (projectName : String) : StringMap :=
  [("app.kubernetes.io/name", projectName)]

/-- `standard_secret_labels`. -/
def standardSecretLabels (projectName : String) : StringMap :=
  [("app.kubernetes.io/managed-by", "reinhardt-cloud-operator"),
    ("app.kubernetes.io/name", projectName)]

/-- `standard_labels`, `resources/labels.rs:61–82`. -/
def standardLabels (app : Project) (component : String) : StringMap :=
  [("app.kubernetes.io/component", component), ("app.kubernetes.io/instance", app.name),
    ("app.kubernetes.io/managed-by", "reinhardt-cloud-operator"),
    ("app.kubernetes.io/name", app.name),
    ("paas.reinhardt-cloud.dev/owner", app.ns.getD "<unknown>" ++ "." ++ app.name)]

/-- `build_db_credentials_secret`, `secrets.rs:99–134`. -/
def buildDbCredentialsSecret (projectName ns user password database : String) : DbSecret where
  name := s!"{projectName}-db-credentials"
  ns := ns
  labels := standardSecretLabels projectName
  owner := none
  data := [("POSTGRES_DB", database), ("POSTGRES_PASSWORD", password), ("POSTGRES_USER", user),
    ("password", password), ("username", user)]

/-- The `init.sql` of `build_onprem_postgres`, `database.rs:322–327`. -/
def initSql (dbName dbUser dbPassword : String) : String :=
  s!"CREATE DATABASE {dbName};\n" ++ s!"CREATE USER {dbUser} WITH PASSWORD '" ++ dbPassword ++
    ("';\n" ++ s!"GRANT ALL PRIVILEGES ON DATABASE {dbName} TO {dbUser};\n")

/-- The user of an on-premise database. -/
def onpremUser (projectName : String) : String := replaceChar '-' '_' projectName

/-- The name of an on-premise database. -/
def onpremDatabase (projectName : String) : String := s!"{onpremUser projectName}_db"

/-- `build_onprem_postgres`, `database.rs:200–357`. -/
def buildOnpremPostgres (projectName ns : String) (version : Option String) (storageGb : Int)
    (dbPassword : String) : List Resource :=
  let dbName := onpremDatabase projectName
  let dbUser := onpremUser projectName
  let labels := standardDbLabels projectName
  [.statefulSet
      { name := s!"{projectName}-db"
        ns := ns
        labels := labels
        replicas := 1
        serviceName := s!"{projectName}-db"
        selector := legacyStatefulSetSelectorLabels projectName
        containerName := "postgres"
        image := "postgres:" ++ version.getD "16"
        port := 5432
        envFromSecret := s!"{projectName}-db-credentials"
        mountPath := "/var/lib/postgresql/data"
        volumeClaim := s!"{projectName}-db-data" },
    .pvc ⟨s!"{projectName}-db-data", ns, labels, ["ReadWriteOnce"], s!"{storageGb}Gi"⟩,
    .service ⟨s!"{projectName}-db", ns, labels, dbSelectorLabels projectName, 5432, 5432⟩,
    .configMap ⟨s!"{projectName}-db-init", ns, labels,
      [("init.sql", initSql dbName dbUser dbPassword)]⟩,
    .secret (buildDbCredentialsSecret projectName ns dbUser dbPassword dbName)]

/-- `build_aws_rds`, `database.rs:362–429`. -/
def buildAwsRds (projectName ns : String) (engine : DatabaseEngine) (spec : ProjectSpec)
    (config : PlatformConfig) (password : String) : List Resource :=
  match engineToString engine with
  | none => []
  | some engineName =>
    let masterUsername := sanitizeIdentifier projectName engine
    let dbName := sanitizeIdentifier s!"{projectName}_db" engine
    [.dynamic ⟨s!"{projectName}-rds", ns, standardDbLabels projectName,
        .dbInstance engineName (spec.databaseVersion.getD (defaultEngineVersion engine))
          (spec.databaseInstanceClass.getD config.instanceClass)
          (spec.databaseStorageGb.getD config.storageGb) masterUsername
          s!"{projectName}-db-credentials" dbName⟩,
      .secret (buildDbCredentialsSecret projectName ns masterUsername password dbName)]

/-- `build_gcp_cloud_sql`, `database.rs:435–555`. -/
def buildGcpCloudSql (projectName ns : String) (engine : DatabaseEngine) (spec : ProjectSpec)
    (config : PlatformConfig) (storageGb : Int) (password : String) : List Resource :=
  match engineToGcpVersion engine spec.databaseVersion with
  | none => []
  | some databaseVersion =>
    let dbName := sanitizeIdentifier s!"{projectName}_db" engine
    let user := sanitizeIdentifier projectName engine
    let labels := standardDbLabels projectName
    let instanceRef := s!"{projectName}-sql-instance"
    [.dynamic ⟨instanceRef, ns, labels, .sqlInstance databaseVersion config.region
        (spec.databaseInstanceClass.getD "db-f1-micro") storageGb⟩,
      .dynamic ⟨s!"{projectName}-sql-database", ns, labels, .sqlDatabase instanceRef⟩,
      .dynamic ⟨s!"{projectName}-sql-user", ns, labels,
        .sqlUser instanceRef s!"{projectName}-db-credentials"⟩,
      .secret (buildDbCredentialsSecret projectName ns user password dbName)]

/-- `infer_database_resources`, `database.rs:144–169`. -/
def inferDatabaseResources (app : Project) (config : PlatformConfig) (password : String) :
    Except Error (List Resource) :=
  match app.spec.database with
  | none => .ok []
  | some engine => do
    validateDatabaseForPlatform app.spec config.platform
    match app.ns with
    | none => return []
    | some ns =>
      let storageGb := app.spec.databaseStorageGb.getD config.storageGb
      return match config.platform with
        | .onpremise => buildOnpremPostgres app.name ns app.spec.databaseVersion storageGb password
        | .aws => buildAwsRds app.name ns engine app.spec config password
        | .gcp => buildGcpCloudSql app.name ns engine app.spec config storageGb password

/-- `build_db_secret`, `resources/database.rs:59–92`. -/
def buildDbSecret (app : Project) (password : String) : Except Error DbSecret := do
  let ns ← requireNamespace app
  let owner ← ownerReference app
  let user := sanitizeDbName app.name
  let db := user
  let databaseUrl := s!"postgresql://{user}:{password}@{app.name}-postgresql:5432/{db}"
  return {
    name := s!"{app.name}-db-credentials"
    ns := ns
    labels := standardLabels app "database"
    owner := some owner
    data := [("DATABASE_URL", databaseUrl), ("POSTGRES_DB", db), ("POSTGRES_PASSWORD", password),
      ("POSTGRES_USER", user), ("password", password), ("username", user)] }

/-- The resources are the objects that `apply` addresses, in its order. -/
theorem addressed_of_inferDatabaseResources {app : Project} {config : PlatformConfig}
    {password ns : String} {engine : DatabaseEngine} {resources : List Resource}
    (hdb : app.spec.database = some engine) (hns : app.ns = some ns)
    (h : inferDatabaseResources app config password = .ok resources) :
    (resources.map fun r ↦ (r.kind, r.name)) =
      (Operator.inferDatabaseResources config.platform engine).map fun op ↦
        (op.kind, op.name.resolve app.name) := by
  unfold inferDatabaseResources at h
  rw [hdb, hns] at h
  obtain ⟨-, -, hresources⟩ := bind_eq_ok.mp h
  obtain rfl := Except.ok.inj hresources
  cases config.platform with
  | onpremise => rfl
  | aws => cases engine <;> rfl
  | gcp =>
    simp only [buildGcpCloudSql]
    cases engine with
    | sqlite => rfl
    | postgresql => cases app.spec.databaseVersion <;> rfl
    | mysql => cases app.spec.databaseVersion <;> rfl

end ReinhardtCloud.Operator.Database

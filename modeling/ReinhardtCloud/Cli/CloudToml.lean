import Mathlib.Data.String.Basic
import ReinhardtCloud.Base.SortedMap
import ReinhardtCloud.Cli.InfrastructureBlock

/-!
# The deployment configuration of a project

Library `Cli`. The schema of `reinhardt-cloud.toml`
(`crates/reinhardt-cloud-types/src/reinhardt_cloud_toml.rs:18–270`) with its pages section
(`crd/pages.rs:10–65`). The TOML library enters as a codec of whole configurations.
-/

namespace ReinhardtCloud.Cli

open ReinhardtCloud.Base

/-- `AppSection`. -/
structure AppSection where
  name : String
  image : String
  deriving DecidableEq

/-- `DatabaseSection`. -/
structure DatabaseSection where
  engine : String
  instanceClass : Option String := none
  storageGb : Option Int32 := none
  version : Option String := none
  deriving DecidableEq

/-- `AuthSection`. -/
structure AuthSection where
  jwt : Bool
  deriving DecidableEq

/-- `HealthSection`. -/
structure HealthSection where
  path : Option String
  port : Option Int32
  intervalSeconds : Option Int32
  deriving DecidableEq

/-- `ServiceTlsSection`. -/
structure ServiceTlsSection where
  enabled : Bool
  secretName : Option String
  issuer : Option String
  clusterIssuer : Option String
  deriving DecidableEq

/-- `ServicesSection`. -/
structure ServicesSection where
  port : Option Int32
  targetPort : Option Int32
  ingressHost : Option String
  tls : Option ServiceTlsSection
  deriving DecidableEq

/-- `ReplicasSection`. -/
structure ReplicasSection where
  count : Int32
  deriving DecidableEq

/-- `ScaleSection`. -/
structure ScaleSection where
  minReplicas : Option Int32
  maxReplicas : Option Int32
  metric : Option String
  targetValue : Option Int32
  deriving DecidableEq

/-- `CacheSection`. -/
structure CacheSection where
  backend : String
  instanceType : Option String := none
  deriving DecidableEq

/-- `WorkerSection`. Its `Default` is derived: the concurrency is 0 there, and 4 where a file leaves
it out. -/
structure WorkerSection where
  concurrency : Int32 := 0
  command : Option (List String) := none
  deriving DecidableEq

/-- `StorageSection`. -/
structure StorageSection where
  backend : Option String := none
  bucket : Option String := none
  deriving DecidableEq

/-- `MailSection`. -/
structure MailSection where
  smtpHost : Option String
  smtpPort : Option Int32
  deriving DecidableEq

/-- `BuildSection`. -/
structure BuildSection where
  registry : Option String := none
  dockerfile : Option String := none
  context : Option String := none
  baseImage : Option String := none
  buildArgs : SortedMap String String := .empty
  deriving DecidableEq

/-- `WebhookTomlSection`. -/
structure WebhookTomlSection where
  enabled : Bool
  events : List String
  secretRef : Option String
  deriving DecidableEq

/-- `PreviewOverridesTomlSection`. -/
structure PreviewOverridesTomlSection where
  replicas : Option Int32
  deriving DecidableEq

/-- `PreviewBudgetTomlSection`. -/
structure PreviewBudgetTomlSection where
  maxReplicas : Option Int32
  maxCpu : Option String
  maxMemory : Option String
  deriving DecidableEq

/-- `PreviewTomlSection`. -/
structure PreviewTomlSection where
  enabled : Bool
  ttl : Option String
  urlTemplate : Option String
  overrides : Option PreviewOverridesTomlSection
  budget : Option PreviewBudgetTomlSection
  deriving DecidableEq

/-- `SourceSection`. -/
structure SourceSection where
  repository : String
  branch : Option String := none
  provider : Option String := none
  credentialsSecret : Option String := none
  build : Option BuildSection := none
  webhook : Option WebhookTomlSection := none
  preview : Option PreviewTomlSection := none
  deriving DecidableEq

/-- `PagesResourceRequirements`. -/
structure PagesResourceRequirements where
  requests : SortedMap String String
  limits : SortedMap String String
  deriving DecidableEq

/-- `PagesSpec`, `crd/pages.rs:16–47`, with all its fields. -/
structure PagesSection where
  staticRoot : Option String := none
  staticUrl : Option String := none
  serverImage : Option String := none
  serverResources : Option PagesResourceRequirements := none
  cacheMaxAge : Option UInt64 := none
  brotli : Option Bool := none
  gzip : Option Bool := none
  prebuilt : Option Bool := none
  deriving DecidableEq

/-- `ReinhardtCloudToml`. -/
structure ReinhardtCloudToml where
  app : AppSection
  database : Option DatabaseSection := none
  auth : Option AuthSection := none
  health : Option HealthSection := none
  services : Option ServicesSection := none
  replicas : Option ReplicasSection := none
  scale : Option ScaleSection := none
  cache : Option CacheSection := none
  worker : Option WorkerSection := none
  storage : Option StorageSection := none
  mail : Option MailSection := none
  infrastructure : Option InfrastructureSpec := none
  source : Option SourceSection := none
  pages : Option PagesSection := none
  env : SortedMap String String := .empty
  deriving DecidableEq

/-- `source.build`. -/
def ReinhardtCloudToml.build (config : ReinhardtCloudToml) : Option BuildSection :=
  config.source.bind fun source ↦ source.build

/-- An integer of TOML has 64 bits with a sign. -/
def ReinhardtCloudToml.Representable (config : ReinhardtCloudToml) : Prop :=
  ∀ pages ∈ config.pages, ∀ age ∈ pages.cacheMaxAge, age.toNat < 2 ^ 63

instance (config : ReinhardtCloudToml) : Decidable config.Representable :=
  inferInstanceAs (Decidable (∀ pages ∈ config.pages, ∀ age ∈ pages.cacheMaxAge, _ < _))

/-- `toml::to_string_pretty` and `toml::from_str` for configurations, the empty text, and a text
behind the comment lines that a generated file begins with. -/
structure CloudTomlCodec (Text : Type) where
  toText : ReinhardtCloudToml → Option Text
  ofText : Text → Except String ReinhardtCloudToml
  empty : Text
  withHeader : Text → Text

/-- A configuration with integers of TOML can be written and reads back, comment lines say nothing,
and what is read has integers of TOML. -/
structure CloudTomlCodec.Faithful {Text : Type} (codec : CloudTomlCodec Text) : Prop where
  reads_back : ∀ config : ReinhardtCloudToml, config.Representable →
    ∃ text, codec.toText config = some text ∧ codec.ofText text = .ok config
  comments : ∀ text, codec.ofText (codec.withHeader text) = codec.ofText text
  representable : ∀ text config, codec.ofText text = .ok config → config.Representable

/-- `generate_reinhardt_cloud_toml_string`, `toml_generator.rs:185–193`. -/
def generateReinhardtCloudTomlString {Text : Type} (codec : CloudTomlCodec Text)
    (config : ReinhardtCloudToml) : Text :=
  codec.withHeader ((codec.toText config).getD codec.empty)

/-- A generated file reads back. -/
theorem ofText_generate {Text : Type} {codec : CloudTomlCodec Text} (hcodec : codec.Faithful)
    {config : ReinhardtCloudToml} (h : config.Representable) :
    codec.ofText (generateReinhardtCloudTomlString codec config) = .ok config := by
  obtain ⟨text, htext, hread⟩ := hcodec.reads_back config h
  rw [generateReinhardtCloudTomlString, htext, Option.getD_some, hcodec.comments, hread]

end ReinhardtCloud.Cli

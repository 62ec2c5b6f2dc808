import ReinhardtCloud.Base.TomlValues
import ReinhardtCloud.Cli.CloudToml

/-!
# The text of a configuration

Library `Cli`. What the derives of `serde` make of the sections of `reinhardt-cloud.toml`
(`crates/reinhardt-cloud-types/src/reinhardt_cloud_toml.rs:18–292`, `crd/infrastructure.rs:57–248`,
`crd/pages.rs:16–65`): over any TOML library that reads what it prints and skips comment lines,
configurations read back.
-/

namespace ReinhardtCloud.Cli

open ReinhardtCloud.Base

/-! ## Sections -/

def AppSection.serde : Serde AppSection :=
  (Record.field "name" Serde.string.required <|
    .field "image" Serde.string.required .nil).serde
    (fun s ↦ (s.name, s.image, ⟨⟩)) (fun f ↦ ⟨f.1, f.2.1⟩) (fun _ ↦ rfl) fun _ ↦ rfl

def DatabaseSection.serde : Serde DatabaseSection :=
  (Record.field "engine" Serde.string.required <|
    .field "instance_class" Serde.string.optional <|
    .field "storage_gb" Serde.int32.optional <|
    .field "version" Serde.string.optional .nil).serde
    (fun s ↦ (s.engine, s.instanceClass, s.storageGb, s.version, ⟨⟩))
    (fun f ↦ ⟨f.1, f.2.1, f.2.2.1, f.2.2.2.1⟩) (fun _ ↦ rfl) fun _ ↦ rfl

def AuthSection.serde : Serde AuthSection :=
  (Record.field "jwt" (Serde.boolean.defaulted false) .nil).serde
    (fun s ↦ (s.jwt, ⟨⟩)) (fun f ↦ ⟨f.1⟩) (fun _ ↦ rfl) fun _ ↦ rfl

def HealthSection.serde : Serde HealthSection :=
  (Record.field "path" Serde.string.optional <|
    .field "port" Serde.int32.optional <|
    .field "interval_seconds" Serde.int32.optional .nil).serde
    (fun s ↦ (s.path, s.port, s.intervalSeconds, ⟨⟩)) (fun f ↦ ⟨f.1, f.2.1, f.2.2.1⟩)
    (fun _ ↦ rfl) fun _ ↦ rfl

def ServiceTlsSection.serde : Serde ServiceTlsSection :=
  (Record.field "enabled" (Serde.boolean.defaulted false) <|
    .field "secret_name" Serde.string.optional <|
    .field "issuer" Serde.string.optional <|
    .field "cluster_issuer" Serde.string.optional .nil).serde
    (fun s ↦ (s.enabled, s.secretName, s.issuer, s.clusterIssuer, ⟨⟩))
    (fun f ↦ ⟨f.1, f.2.1, f.2.2.1, f.2.2.2.1⟩) (fun _ ↦ rfl) fun _ ↦ rfl

def ServicesSection.serde : Serde ServicesSection :=
  (Record.field "port" Serde.int32.optional <|
    .field "target_port" Serde.int32.optional <|
    .field "ingress_host" Serde.string.optional <|
    .field "tls" ServiceTlsSection.serde.optional .nil).serde
    (fun s ↦ (s.port, s.targetPort, s.ingressHost, s.tls, ⟨⟩))
    (fun f ↦ ⟨f.1, f.2.1, f.2.2.1, f.2.2.2.1⟩) (fun _ ↦ rfl) fun _ ↦ rfl

/-- A missing count is `default_replica_count`. -/
def ReplicasSection.serde : Serde ReplicasSection :=
  (Record.field "count" (Serde.int32.defaulted 1) .nil).serde
    (fun s ↦ (s.count, ⟨⟩)) (fun f ↦ ⟨f.1⟩) (fun _ ↦ rfl) fun _ ↦ rfl

def ScaleSection.serde : Serde ScaleSection :=
  (Record.field "min_replicas" Serde.int32.optional <|
    .field "max_replicas" Serde.int32.optional <|
    .field "metric" Serde.string.optional <|
    .field "target_value" Serde.int32.optional .nil).serde
    (fun s ↦ (s.minReplicas, s.maxReplicas, s.metric, s.targetValue, ⟨⟩))
    (fun f ↦ ⟨f.1, f.2.1, f.2.2.1, f.2.2.2.1⟩) (fun _ ↦ rfl) fun _ ↦ rfl

/-- A missing backend is `default_cache_backend`. -/
def CacheSection.serde : Serde CacheSection :=
  (Record.field "backend" (Serde.string.defaulted "redis") <|
    .field "instance_type" Serde.string.optional .nil).serde
    (fun s ↦ (s.backend, s.instanceType, ⟨⟩)) (fun f ↦ ⟨f.1, f.2.1⟩) (fun _ ↦ rfl) fun _ ↦ rfl

/-- A missing concurrency is `default_concurrency`. -/
def WorkerSection.serde : Serde WorkerSection :=
  (Record.field "concurrency" (Serde.int32.defaulted 4) <|
    .field "command" Serde.string.list.optional .nil).serde
    (fun s ↦ (s.concurrency, s.command, ⟨⟩)) (fun f ↦ ⟨f.1, f.2.1⟩) (fun _ ↦ rfl) fun _ ↦ rfl

def StorageSection.serde : Serde StorageSection :=
  (Record.field "backend" Serde.string.optional <|
    .field "bucket" Serde.string.optional .nil).serde
    (fun s ↦ (s.backend, s.bucket, ⟨⟩)) (fun f ↦ ⟨f.1, f.2.1⟩) (fun _ ↦ rfl) fun _ ↦ rfl

def MailSection.serde : Serde MailSection :=
  (Record.field "smtp_host" Serde.string.optional <|
    .field "smtp_port" Serde.int32.optional .nil).serde
    (fun s ↦ (s.smtpHost, s.smtpPort, ⟨⟩)) (fun f ↦ ⟨f.1, f.2.1⟩) (fun _ ↦ rfl) fun _ ↦ rfl

/-! ## The infrastructure, `crd/infrastructure.rs` -/

def PostgresSpec.serde : Serde PostgresSpec :=
  (Record.field "tier" Serde.string.optional <|
    .field "version" Serde.string.optional <|
    .field "backup_retention_days" Serde.uint32.optional .nil).serde
    (fun s ↦ (s.tier, s.version, s.backupRetentionDays, ⟨⟩)) (fun f ↦ ⟨f.1, f.2.1, f.2.2.1⟩)
    (fun _ ↦ rfl) fun _ ↦ rfl

def BucketSpec.serde : Serde BucketSpec :=
  (Record.field "name" Serde.string.required <|
    .field "public" (Serde.boolean.defaulted false) .nil).serde
    (fun s ↦ (s.name, s.isPublic, ⟨⟩)) (fun f ↦ ⟨f.1, f.2.1⟩) (fun _ ↦ rfl) fun _ ↦ rfl

def DnsRecordSpec.serde : Serde DnsRecordSpec :=
  (Record.field "host" Serde.string.required <|
    .field "type" Serde.string.required .nil).serde
    (fun s ↦ (s.host, s.recordType, ⟨⟩)) (fun f ↦ ⟨f.1, f.2.1⟩) (fun _ ↦ rfl) fun _ ↦ rfl

def SecretSpec.serde : Serde SecretSpec :=
  (Record.field "name" Serde.string.required <|
    .field "description" Serde.string.optional .nil).serde
    (fun s ↦ (s.name, s.description, ⟨⟩)) (fun f ↦ ⟨f.1, f.2.1⟩) (fun _ ↦ rfl) fun _ ↦ rfl

def InfrastructureSpec.serde : Serde InfrastructureSpec :=
  (Record.field "postgres" PostgresSpec.serde.optional <|
    .field "buckets" BucketSpec.serde.list.optional <|
    .field "dns" DnsRecordSpec.serde.list.optional <|
    .field "secrets" SecretSpec.serde.list.optional .nil).serde
    (fun s ↦ (s.postgres, s.buckets, s.dns, s.secrets, ⟨⟩))
    (fun f ↦ ⟨f.1, f.2.1, f.2.2.1, f.2.2.2.1⟩) (fun _ ↦ rfl) fun _ ↦ rfl

/-! ## The source -/

/-- A map that is empty where it is missing. -/
def mapField : FieldSerde (SortedMap String String) :=
  Serde.string.map.defaulted .empty

def BuildSection.serde : Serde BuildSection :=
  (Record.field "registry" Serde.string.optional <|
    .field "dockerfile" Serde.string.optional <|
    .field "context" Serde.string.optional <|
    .field "base_image" Serde.string.optional <|
    .field "build_args" mapField .nil).serde
    (fun s ↦ (s.registry, s.dockerfile, s.context, s.baseImage, s.buildArgs, ⟨⟩))
    (fun f ↦ ⟨f.1, f.2.1, f.2.2.1, f.2.2.2.1, f.2.2.2.2.1⟩) (fun _ ↦ rfl) fun _ ↦ rfl

def WebhookTomlSection.serde : Serde WebhookTomlSection :=
  (Record.field "enabled" (Serde.boolean.defaulted false) <|
    .field "events" (Serde.string.list.defaulted []) <|
    .field "secret_ref" Serde.string.optional .nil).serde
    (fun s ↦ (s.enabled, s.events, s.secretRef, ⟨⟩)) (fun f ↦ ⟨f.1, f.2.1, f.2.2.1⟩)
    (fun _ ↦ rfl) fun _ ↦ rfl

def PreviewOverridesTomlSection.serde : Serde PreviewOverridesTomlSection :=
  (Record.field "replicas" Serde.int32.optional .nil).serde
    (fun s ↦ (s.replicas, ⟨⟩)) (fun f ↦ ⟨f.1⟩) (fun _ ↦ rfl) fun _ ↦ rfl

def PreviewBudgetTomlSection.serde : Serde PreviewBudgetTomlSection :=
  (Record.field "max_replicas" Serde.int32.optional <|
    .field "max_cpu" Serde.string.optional <|
    .field "max_memory" Serde.string.optional .nil).serde
    (fun s ↦ (s.maxReplicas, s.maxCpu, s.maxMemory, ⟨⟩)) (fun f ↦ ⟨f.1, f.2.1, f.2.2.1⟩)
    (fun _ ↦ rfl) fun _ ↦ rfl

def PreviewTomlSection.serde : Serde PreviewTomlSection :=
  (Record.field "enabled" (Serde.boolean.defaulted false) <|
    .field "ttl" Serde.string.optional <|
    .field "url_template" Serde.string.optional <|
    .field "overrides" PreviewOverridesTomlSection.serde.optional <|
    .field "budget" PreviewBudgetTomlSection.serde.optional .nil).serde
    (fun s ↦ (s.enabled, s.ttl, s.urlTemplate, s.overrides, s.budget, ⟨⟩))
    (fun f ↦ ⟨f.1, f.2.1, f.2.2.1, f.2.2.2.1, f.2.2.2.2.1⟩) (fun _ ↦ rfl) fun _ ↦ rfl

def SourceSection.serde : Serde SourceSection :=
  (Record.field "repository" Serde.string.required <|
    .field "branch" Serde.string.optional <|
    .field "provider" Serde.string.optional <|
    .field "credentials_secret" Serde.string.optional <|
    .field "build" BuildSection.serde.optional <|
    .field "webhook" WebhookTomlSection.serde.optional <|
    .field "preview" PreviewTomlSection.serde.optional .nil).serde
    (fun s ↦ (s.repository, s.branch, s.provider, s.credentialsSecret, s.build, s.webhook,
      s.preview, ⟨⟩))
    (fun f ↦ ⟨f.1, f.2.1, f.2.2.1, f.2.2.2.1, f.2.2.2.2.1, f.2.2.2.2.2.1, f.2.2.2.2.2.2.1⟩)
    (fun _ ↦ rfl) fun _ ↦ rfl

/-! ## The pages, `crd/pages.rs` -/

def PagesResourceRequirements.serde : Serde PagesResourceRequirements :=
  (Record.field "requests" mapField <| .field "limits" mapField .nil).serde
    (fun s ↦ (s.requests, s.limits, ⟨⟩)) (fun f ↦ ⟨f.1, f.2.1⟩) (fun _ ↦ rfl) fun _ ↦ rfl

def PagesSection.serde : Serde PagesSection :=
  (Record.field "static_root" Serde.string.optional <|
    .field "static_url" Serde.string.optional <|
    .field "server_image" Serde.string.optional <|
    .field "server_resources" PagesResourceRequirements.serde.optional <|
    .field "cache_max_age" Serde.uint64.optional <|
    .field "brotli" Serde.boolean.optional <|
    .field "gzip" Serde.boolean.optional <|
    .field "prebuilt" Serde.boolean.optional .nil).serde
    (fun s ↦ (s.staticRoot, s.staticUrl, s.serverImage, s.serverResources, s.cacheMaxAge, s.brotli,
      s.gzip, s.prebuilt, ⟨⟩))
    (fun f ↦ ⟨f.1, f.2.1, f.2.2.1, f.2.2.2.1, f.2.2.2.2.1, f.2.2.2.2.2.1, f.2.2.2.2.2.2.1,
      f.2.2.2.2.2.2.2.1⟩)
    (fun _ ↦ rfl) fun _ ↦ rfl

/-! ## The configuration -/

def ReinhardtCloudToml.serde : Serde ReinhardtCloudToml :=
  (Record.field "app" AppSection.serde.required <|
    .field "database" DatabaseSection.serde.optional <|
    .field "auth" AuthSection.serde.optional <|
    .field "health" HealthSection.serde.optional <|
    .field "services" ServicesSection.serde.optional <|
    .field "replicas" ReplicasSection.serde.optional <|
    .field "scale" ScaleSection.serde.optional <|
    .field "cache" CacheSection.serde.optional <|
    .field "worker" WorkerSection.serde.optional <|
    .field "storage" StorageSection.serde.optional <|
    .field "mail" MailSection.serde.optional <|
    .field "infrastructure" InfrastructureSpec.serde.optional <|
    .field "source" SourceSection.serde.optional <|
    .field "pages" PagesSection.serde.optional <|
    .field "env" mapField .nil).serde
    (fun c ↦ (c.app, c.database, c.auth, c.health, c.services, c.replicas, c.scale, c.cache,
      c.worker, c.storage, c.mail, c.infrastructure, c.source, c.pages, c.env, ⟨⟩))
    (fun f ↦ ⟨f.1, f.2.1, f.2.2.1, f.2.2.2.1, f.2.2.2.2.1, f.2.2.2.2.2.1, f.2.2.2.2.2.2.1,
      f.2.2.2.2.2.2.2.1, f.2.2.2.2.2.2.2.2.1, f.2.2.2.2.2.2.2.2.2.1, f.2.2.2.2.2.2.2.2.2.2.1,
      f.2.2.2.2.2.2.2.2.2.2.2.1, f.2.2.2.2.2.2.2.2.2.2.2.2.1, f.2.2.2.2.2.2.2.2.2.2.2.2.2.1,
      f.2.2.2.2.2.2.2.2.2.2.2.2.2.2.1⟩)
    (fun _ ↦ rfl) fun _ ↦ rfl

/-- A configuration fits into a document if and only if its integers are those of TOML. -/
theorem fits_serde_iff (config : ReinhardtCloudToml) :
    ReinhardtCloudToml.serde.fits config ↔ config.Representable := by
  simp [ReinhardtCloudToml.serde, AppSection.serde, DatabaseSection.serde, AuthSection.serde,
    HealthSection.serde, ServicesSection.serde, ServiceTlsSection.serde, ReplicasSection.serde,
    ScaleSection.serde, CacheSection.serde, WorkerSection.serde, StorageSection.serde,
    MailSection.serde, InfrastructureSpec.serde, PostgresSpec.serde, BucketSpec.serde,
    DnsRecordSpec.serde, SecretSpec.serde, SourceSection.serde, BuildSection.serde,
    WebhookTomlSection.serde, PreviewTomlSection.serde, PreviewOverridesTomlSection.serde,
    PreviewBudgetTomlSection.serde, PagesSection.serde, PagesResourceRequirements.serde, mapField,
    Serde.defaulted, ReinhardtCloudToml.Representable]

/-! ## Documents -/

/-- The comment lines of a generated file, `toml_generator.rs:188–190`. -/
def tomlHeader : String :=
  "# reinhardt-cloud.toml — Generated by `reinhardt-cloud init`\n" ++
    "# All values are inferred from the reinhardt-web project.\n" ++
    "# Edit to customize deployment configuration.\n\n"

/-- `toml::from_str` of a configuration. The messages are the library's. -/
def cloudTomlFromStr (toml : TomlCodec) (text : String) : Except String ReinhardtCloudToml :=
  match (toml.parse text).bind ReinhardtCloudToml.serde.read with
  | some config => .ok config
  | none => .error "not a reinhardt-cloud.toml"

theorem cloudTomlFromStr_eq_ok_iff {toml : TomlCodec} {text : String}
    {config : ReinhardtCloudToml} : cloudTomlFromStr toml text = .ok config ↔
      (toml.parse text).bind ReinhardtCloudToml.serde.read = some config := by
  rw [cloudTomlFromStr]
  cases (toml.parse text).bind ReinhardtCloudToml.serde.read with
  | none => exact iff_of_false (fun h ↦ by cases h) fun h ↦ by cases h
  | some read => rw [Except.ok.injEq, Option.some.injEq]

/-- Configurations as documents of a TOML library. -/
def cloudTomlCodec (toml : TomlCodec) : CloudTomlCodec String where
  toText config := (toml.toString (ReinhardtCloudToml.serde.write config)).toOption
  ofText := cloudTomlFromStr toml
  empty := ""
  withHeader text := tomlHeader ++ text

/-- What a TOML library prints and reads makes a codec of configurations, if it skips the comment
lines. -/
theorem cloudTomlCodec_faithful {toml : TomlCodec}
    (hcomments : ∀ text, toml.parse (tomlHeader ++ text) = toml.parse text) :
    (cloudTomlCodec toml).Faithful where
  reads_back config h := by
    obtain ⟨text, htext, hread⟩ := (toml.reads_back_iff ReinhardtCloudToml.serde rfl).mpr
      ((fits_serde_iff config).mpr h)
    refine ⟨text, ?_, cloudTomlFromStr_eq_ok_iff.mpr hread⟩
    show (toml.toString (ReinhardtCloudToml.serde.write config)).toOption = some text
    rw [htext]
    rfl
  comments text := by
    show cloudTomlFromStr toml (tomlHeader ++ text) = cloudTomlFromStr toml text
    rw [cloudTomlFromStr, cloudTomlFromStr, hcomments]
  representable text config h := by
    obtain ⟨v, hparse, hread⟩ := Option.bind_eq_some_iff.mp (cloudTomlFromStr_eq_ok_iff.mp h)
    exact (fits_serde_iff config).mp
      (ReinhardtCloudToml.serde.fits_of_read config v (toml.parse_valid text v hparse) hread)

end ReinhardtCloud.Cli

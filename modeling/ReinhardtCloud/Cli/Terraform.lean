import ReinhardtCloud.Base.Hcl
import ReinhardtCloud.Cli.Infrastructure

/-!
# Generated Terraform

Library `Cli`. The renderer of `terraform generate`
(`crates/reinhardt-cloud-cli/src/commands/terraform.rs:170–501`), line by line.
-/

namespace ReinhardtCloud.Cli

open ReinhardtCloud.Base

/-- `is_safe_terraform_identifier`, `infrastructure.rs:27–35`. -/
def isSafeTerraformIdentifier (value : String) : Bool :=
  match value.toList with
  | [] => false
  | first :: rest =>
    (first.isAlpha || first = '_') && rest.all fun c ↦ c.isAlphanum || c = '_'

/-- `Provider`, `terraform.rs:20–23`. -/
inductive Provider where
  | gcp
  | aws
  deriving DecidableEq

/-- `s.replace('.', "_")`. -/
def dotsToUnderscores (s : String) : String :=
  String.ofList (s.toList.map fun c ↦ if c = '.' then '_' else c)

/-! ## Blocks -/

/-- A module block: its label behind the app's name, its source and its name prefix first. -/
def renderModule (app label source : String) (attributes : List String) : List String :=
  ("module \"" ++ (app ++ "_" ++ label) ++ "\" \x7b") ::
    (("  source      = \"" ++ source ++ "\"") ::
      ("  name_prefix = \"$\x7bvar.name_prefix\x7d-" ++ app ++ "\"") :: attributes ++ ["\x7d"])

/-- A variable block. -/
def renderVariable (label : String) (attributes : List String) : List String :=
  ("variable \"" ++ label ++ "\" \x7b") :: (attributes ++ ["\x7d"])

/-- The first block of `render_gcp_hcl`. -/
def renderGcpVariables (app : String) : List String :=
  ["# Generated by reinhardt-cloud terraform generate",
    "# App: " ++ app,
    "# Provider: gcp",
    "#",
    "# Variables expected from cluster bootstrap outputs (terraform/examples/gcp-minimal):",
    "#   var.project_id, var.region, var.network_id, var.name_prefix",
    ""] ++
  renderVariable "project_id"
    ["  description = \"GCP project ID.\"",
      "  type        = string"] ++ [""] ++
  renderVariable "region"
    ["  description = \"GCP region.\"",
      "  type        = string",
      "  default     = \"us-central1\""] ++ [""] ++
  renderVariable "network_id"
    ["  description = \"Self-link of the VPC network (from bootstrap outputs).\"",
      "  type        = string"] ++ [""] ++
  renderVariable "name_prefix"
    ["  description = \"Bootstrap name prefix (e.g., reinhardt-prod).\"",
      "  type        = string"]

/-- The first block of `render_aws_hcl`. -/
def renderAwsVariables (app : String) : List String :=
  ["# Generated by reinhardt-cloud terraform generate",
    "# App: " ++ app,
    "# Provider: aws",
    "#",
    "# Variables expected from cluster bootstrap outputs (terraform/examples/aws-minimal):",
    "#   var.vpc_id, var.subnet_ids, var.name_prefix",
    ""] ++
  renderVariable "vpc_id"
    ["  description = \"VPC ID (from bootstrap outputs).\"",
      "  type        = string"] ++ [""] ++
  renderVariable "subnet_ids"
    ["  description = \"Private subnet IDs (from bootstrap outputs).\"",
      "  type        = list(string)"] ++ [""] ++
  renderVariable "name_prefix"
    ["  description = \"Bootstrap name prefix (e.g., reinhardt-prod).\"",
      "  type        = string"]

/-- The Cloud SQL name of a Postgres version. -/
def cloudSqlVersion (version : String) : String := "POSTGRES_" ++ dotsToUnderscores version

/-- `render_gcp_cloudsql`. -/
def renderGcpCloudsql (app : String) (pg : PostgresSpec) : List String :=
  renderModule app "postgres" "../../modules/gcp/per-app/cloudsql"
    ["  project_id  = var.project_id",
      "  region      = var.region",
      "  network_id  = var.network_id",
      "  tier        = \"" ++ pg.tier.getD "db-f1-micro" ++ "\"",
      "  database_version      = \"" ++ (pg.version.map cloudSqlVersion).getD "POSTGRES_16" ++ "\"",
      "  backup_retention_days = " ++ toString (pg.backupRetentionDays.getD 7).toNat]

/-- `render_gcp_bucket`. -/
def renderGcpBucket (app : String) (bucket : BucketSpec) : List String :=
  renderModule app ("bucket_" ++ bucket.name) "../../modules/gcp/per-app/gcs"
    ["  project_id  = var.project_id",
      "  bucket_name = \"" ++ bucket.name ++ "\"",
      "  public      = " ++ if bucket.isPublic then "true" else "false"]

/-- `render_gcp_dns`. -/
def renderGcpDns (app : String) (record : DnsRecordSpec) : List String :=
  renderModule app ("dns_" ++ dotsToUnderscores record.host) "../../modules/gcp/per-app/dns"
    ["  project_id  = var.project_id",
      "  host        = \"" ++ record.host ++ "\"",
      "  record_type = \"" ++ record.recordType ++ "\""]

/-- `render_gcp_secret`. -/
def renderGcpSecret (app : String) (secret : SecretSpec) : List String :=
  renderModule app ("secret_" ++ secret.name) "../../modules/gcp/per-app/secrets"
    ["  project_id  = var.project_id",
      "  secret_name = \"" ++ secret.name ++ "\"",
      "  description = \"" ++ secret.description.getD "Application secret" ++ "\""]

/-- `render_aws_rds`, with the variable of its password. -/
def renderAwsRds (app : String) (pg : PostgresSpec) : List String :=
  renderModule app "rds" "../../modules/aws/per-app/rds"
    ["  vpc_id      = var.vpc_id",
      "  subnet_ids  = var.subnet_ids",
      "  instance_class        = \"" ++ pg.tier.getD "db.t3.micro" ++ "\"",
      "  engine_version        = \"" ++ pg.version.getD "16.3" ++ "\"",
      "  backup_retention_days = " ++ toString (pg.backupRetentionDays.getD 7).toNat,
      "  db_password           = var." ++ (app ++ "_db_password")] ++ [""] ++
  renderVariable (app ++ "_db_password")
    ["  description = \"" ++ ("Master password for the " ++ app ++ " RDS instance.") ++ "\"",
      "  type        = string",
      "  sensitive   = true"]

/-- `render_aws_bucket`. -/
def renderAwsBucket (app : String) (bucket : BucketSpec) : List String :=
  renderModule app ("bucket_" ++ bucket.name) "../../modules/aws/per-app/s3"
    ["  bucket_name = \"" ++ bucket.name ++ "\"",
      "  public      = " ++ if bucket.isPublic then "true" else "false"]

/-- `render_aws_dns`. -/
def renderAwsDns (app : String) (record : DnsRecordSpec) : List String :=
  renderModule app ("dns_" ++ dotsToUnderscores record.host) "../../modules/aws/per-app/route53"
    ["  host        = \"" ++ record.host ++ "\"",
      "  record_type = \"" ++ record.recordType ++ "\""]

/-- `render_aws_secret`. -/
def renderAwsSecret (app : String) (secret : SecretSpec) : List String :=
  renderModule app ("secret_" ++ secret.name) "../../modules/aws/per-app/secretsmanager"
    ["  secret_name = \"" ++ secret.name ++ "\"",
      "  description = \"" ++ secret.description.getD "Application secret" ++ "\""]

/-! ## Documents -/

/-- What an infrastructure declares. -/
inductive Resource where
  | postgres (spec : PostgresSpec)
  | bucket (spec : BucketSpec)
  | dns (spec : DnsRecordSpec)
  | secret (spec : SecretSpec)

/-- The declared resources, in the order of the blocks. -/
def InfrastructureSpec.resources (infra : InfrastructureSpec) : List Resource :=
  (infra.postgres.map .postgres).toList ++ (infra.buckets.getD []).map .bucket ++
    (infra.dns.getD []).map .dns ++ (infra.secrets.getD []).map .secret

/-- The block of a resource. -/
def renderGcpResource (app : String) : Resource → List String
  | .postgres pg => renderGcpCloudsql app pg
  | .bucket bucket => renderGcpBucket app bucket
  | .dns record => renderGcpDns app record
  | .secret secret => renderGcpSecret app secret

/-- The block of a resource. -/
def renderAwsResource (app : String) : Resource → List String
  | .postgres pg => renderAwsRds app pg
  | .bucket bucket => renderAwsBucket app bucket
  | .dns record => renderAwsDns app record
  | .secret secret => renderAwsSecret app secret

/-- `render_gcp_hcl`. -/
def renderGcpHcl (app : String) (infra : InfrastructureSpec) : String :=
  "\n".intercalate
    ((renderGcpVariables app :: infra.resources.map (renderGcpResource app)).map hclText)

/-- `render_aws_hcl`. -/
def renderAwsHcl (app : String) (infra : InfrastructureSpec) : String :=
  "\n".intercalate
    ((renderAwsVariables app :: infra.resources.map (renderAwsResource app)).map hclText)

/-- `render_hcl`. -/
def renderHcl (app : String) (provider : Provider) (infra : InfrastructureSpec) : String :=
  match provider with
  | .gcp => renderGcpHcl app infra
  | .aws => renderAwsHcl app infra

end ReinhardtCloud.Cli

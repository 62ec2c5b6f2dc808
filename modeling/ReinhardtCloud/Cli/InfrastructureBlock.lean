import Mathlib.Data.String.Basic
import ReinhardtCloud.Operator.SourceBuild

/-!
# The infrastructure block

Library `Cli`. The `infrastructure` block of a Project with its checks
(`crates/reinhardt-cloud-types/src/crd/infrastructure.rs:16–265`).
-/

namespace ReinhardtCloud.Cli

open ReinhardtCloud.Base

/-- The messages that a check has collected, `Ok` when there are none. -/
def collected (errors : List String) : Except (List String) Unit :=
  if errors.isEmpty then .ok () else .error errors

/-- The message of a check that fails. -/
def messageUnless (ok : Bool) (message : String) : List String := if ok then [] else [message]

theorem collected_eq_ok_iff {errors : List String} : collected errors = .ok () ↔ errors = [] := by
  cases errors with
  | nil => exact iff_of_true rfl rfl
  | cons e rest => exact iff_of_false (fun h ↦ nomatch h) (List.cons_ne_nil _ _)

@[simp]
theorem messageUnless_eq_nil_iff {ok : Bool} {message : String} :
    messageUnless ok message = [] ↔ ok = true := by
  cases ok with
  | false => exact iff_of_false (List.cons_ne_nil _ _) Bool.false_ne_true
  | true => exact iff_of_true rfl rfl

/-! ## The block -/

/-- A text that is not blank, of ASCII letters, digits and other characters. -/
def isSafeText (others : List Char) (value : String) : Bool :=
  !Operator.isBlank value && value.toList.all fun c ↦ c.isAlphanum || others.contains c

/-- `is_safe_terraform_name`, `infrastructure.rs:18–24`. -/
def isSafeTerraformName : String → Bool := isSafeText ['_', '-']

/-- `is_safe_provider_value`, `infrastructure.rs:37–42`. -/
def isSafeProviderValue : String → Bool := isSafeText ['.', '_', '-']

/-- `is_safe_dns_host`, `infrastructure.rs:44–49`. -/
def isSafeDnsHost : String → Bool := isSafeText ['.', '-']

/-- `is_safe_hcl_string`, `infrastructure.rs:51–55`. -/
def isSafeHclString (value : String) : Bool :=
  !value.toList.any fun c ↦ c.toNat < 32 || c.toNat = 127 ||
    ['"', '\\', '\x7b', '\x7d', '$'].contains c

/-- `PostgresSpec`, `infrastructure.rs:59–75`. -/
structure PostgresSpec where
  tier : Option String
  version : Option String
  backupRetentionDays : Option UInt32
  deriving DecidableEq

/-- `PostgresSpec::validate`, `infrastructure.rs:79–113`. -/
def PostgresSpec.errors (spec : PostgresSpec) : List String :=
  messageUnless (spec.tier.all isSafeProviderValue)
      ("infrastructure.postgres.tier must contain only " ++
        "ASCII letters, digits, dots, underscores, and hyphens") ++
    messageUnless (spec.version.all isSafeProviderValue)
      ("infrastructure.postgres.version must contain only " ++
        "ASCII letters, digits, dots, underscores, and hyphens") ++
    messageUnless (spec.backupRetentionDays.all (· ≠ 0))
      "infrastructure.postgres.backup_retention_days must be > 0"

/-- `BucketSpec`, `infrastructure.rs:118–127`. -/
structure BucketSpec where
  name : String
  isPublic : Bool
  deriving DecidableEq

/-- `BucketSpec::validate`, `infrastructure.rs:131–145`. -/
def BucketSpec.errors (spec : BucketSpec) : List String :=
  messageUnless (isSafeTerraformName spec.name)
    ("infrastructure.buckets[].name must contain only " ++
      "ASCII letters, digits, underscores, and hyphens")

/-- `DnsRecordSpec`, `infrastructure.rs:150–157`. -/
structure DnsRecordSpec where
  host : String
  recordType : String
  deriving DecidableEq

/-- `DnsRecordSpec::validate`, `infrastructure.rs:161–183`. -/
def DnsRecordSpec.errors (spec : DnsRecordSpec) : List String :=
  messageUnless (isSafeDnsHost spec.host)
      "infrastructure.dns[].host must contain only ASCII letters, digits, dots, and hyphens" ++
    messageUnless (["A", "CNAME", "TXT"].contains spec.recordType)
      "infrastructure.dns[].type must be one of [\"A\", \"CNAME\", \"TXT\"]"

/-- `SecretSpec`, `infrastructure.rs:188–196`. -/
structure SecretSpec where
  name : String
  description : Option String
  deriving DecidableEq

/-- `SecretSpec::validate`, `infrastructure.rs:200–222`. -/
def SecretSpec.errors (spec : SecretSpec) : List String :=
  messageUnless (isSafeTerraformName spec.name)
      ("infrastructure.secrets[].name must contain only " ++
        "ASCII letters, digits, underscores, and hyphens") ++
    messageUnless (spec.description.all isSafeHclString)
      ("infrastructure.secrets[].description must not contain " ++
        "HCL metacharacters or control characters")

/-- `InfrastructureSpec`, `infrastructure.rs:231–248`. -/
structure InfrastructureSpec where
  postgres : Option PostgresSpec := none
  buckets : Option (List BucketSpec) := none
  dns : Option (List DnsRecordSpec) := none
  secrets : Option (List SecretSpec) := none
  deriving DecidableEq

namespace InfrastructureSpec

/-- `InfrastructureSpec::validate`, `infrastructure.rs:252–291`. -/
def errors (spec : InfrastructureSpec) : List String :=
  (spec.postgres.map PostgresSpec.errors).getD [] ++
    (spec.buckets.getD []).flatMap BucketSpec.errors ++
    (spec.dns.getD []).flatMap DnsRecordSpec.errors ++
    (spec.secrets.getD []).flatMap SecretSpec.errors

def validate (spec : InfrastructureSpec) : Except (List String) Unit := collected spec.errors

end InfrastructureSpec

end ReinhardtCloud.Cli

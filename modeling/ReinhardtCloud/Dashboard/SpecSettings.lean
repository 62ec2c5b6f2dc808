import ReinhardtCloud.Cli.InfrastructureBlock

/-!
# Settings that only validation reads

Library `Dashboard`. What a manifest's spec says beside the fields the operator's steps read, and
the checks on it (`crates/reinhardt-cloud-types/src/crd/{source,spec,worker,mail}.rs`).
-/

namespace ReinhardtCloud.Dashboard

open ReinhardtCloud.Cli

/-- `WebhookEvent`, `source.rs:24–30`. -/
inductive SourceWebhookEvent where
  | push
  | pullRequest
  | tag
  deriving DecidableEq

/-- `WebhookSpec`, `source.rs:84–94`. -/
structure WebhookSpec where
  enabled : Bool
  events : List SourceWebhookEvent
  secretRef : Option String
  deriving DecidableEq

/-- `WebhookSpec::validate`, `source.rs:102–125`. -/
def WebhookSpec.errors (webhook : WebhookSpec) : List String :=
  messageUnless (webhook.secretRef.all (· ≠ ""))
      "source.webhook.secret_ref must be non-empty when specified" ++
    messageUnless (!webhook.enabled || !webhook.events.isEmpty)
      "source.webhook.events must not be empty when webhook is enabled"

/-- `ServiceTlsSpec`, `spec.rs:136–146`. -/
structure ServiceTlsSpec where
  enabled : Bool
  secretName : Option String
  issuer : Option String
  clusterIssuer : Option String
  deriving DecidableEq

/-- `ServiceTlsSpec::validate`, `spec.rs:150–186`. -/
def ServiceTlsSpec.errors (tls : ServiceTlsSpec) (ingressHost : Option String) : List String :=
  messageUnless (!tls.enabled || ingressHost.any fun host ↦ !Operator.isBlank host)
      "services.tls.enabled requires services.ingress_host" ++
    messageUnless (!tls.enabled || tls.secretName.any (· ≠ ""))
      "services.tls.secret_name is required when services.tls.enabled is true" ++
    messageUnless tls.clusterIssuer.isNone
      ("services.tls.cluster_issuer is not supported; " ++
        "use services.tls.issuer with a namespace-scoped Issuer")

/-- `worker.concurrency`, `mail.smtp_port`, `services.tls`, `isolation.runtime_class_override`,
`source.webhook`, the replicas that `source.preview` sets and allows, and `infrastructure`. -/
structure SpecSettings where
  workerConcurrency : Option Int := none
  smtpPort : Option Int := none
  tls : Option ServiceTlsSpec := none
  runtimeClassOverride : Option String := none
  webhook : Option WebhookSpec := none
  previewReplicas : Option Int := none
  previewMaxReplicas : Option Int := none
  infrastructure : Option InfrastructureSpec := none
  deriving DecidableEq

end ReinhardtCloud.Dashboard

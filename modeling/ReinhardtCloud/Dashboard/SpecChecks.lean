import ReinhardtCloud.Dashboard.Manifest
import ReinhardtCloud.Operator.Databases
import ReinhardtCloud.Operator.EgressPolicy
import ReinhardtCloud.Operator.Plugins

/-!
# The validation of a spec

Library `Dashboard`. `ProjectSpec::validate`
(`crates/reinhardt-cloud-types/src/crd/spec.rs:358–500`) with the checks of its parts that stand
nowhere else. Imported manifests and edited ones have nothing new to check.
-/

namespace ReinhardtCloud.Dashboard

open ReinhardtCloud.Base ReinhardtCloud.Operator ReinhardtCloud.Cli

/-- The errors of a part's validation. -/
def errorsOf : Except (List String) Unit → List String
  | .ok () => []
  | .error errors => errors

/-- The error of a part's validation that stops at the first. -/
def errorOf : Except String Unit → List String
  | .ok () => []
  | .error error => [error]

/-- `ScaleSpec::validate`, `spec.rs:56–91`. -/
def scaleErrors (spec : ProjectSpec) : List String :=
  messageUnless (spec.scaleMinReplicas.all (1 ≤ ·)) "scale.min_replicas must be >= 1" ++
    messageUnless (spec.scaleMaxReplicas.all (1 ≤ ·)) "scale.max_replicas must be >= 1" ++
    messageUnless (spec.scaleMinReplicas.all fun min ↦ spec.scaleMaxReplicas.all (min ≤ ·))
      "scale.max_replicas must be >= scale.min_replicas" ++
    messageUnless (spec.scaleTargetValue.all (0 < ·)) "scale.target_value must be > 0"

/-- A port that is none, or between 1 and 65535. -/
def isPort (port : Option Int) : Bool := port.all fun p ↦ 1 ≤ p && p ≤ 65535

/-- `HealthSpec::validate`, `spec.rs:109–132`. -/
def healthErrors (health : HealthSpec) : List String :=
  messageUnless (isPort health.port) "health.port must be between 1 and 65535" ++
    messageUnless (health.intervalSeconds.all (0 < ·)) "health.interval_seconds must be > 0"

/-- `PagesSpec::validate`, `pages.rs:67–93`. -/
def pagesErrors (pages : PagesSpec) : List String :=
  messageUnless (pages.staticRoot.all (· ≠ "")) "pages.static_root must not be empty" ++
    messageUnless (pages.staticUrl.all fun url ↦
        url.toList.head? = some '/' && url.toList.getLast? = some '/')
      "pages.static_url must start and end with '/'" ++
    messageUnless (pages.serverImage.all (· ≠ "")) "pages.server_image must not be empty"

namespace Manifest

variable (m : Manifest)

/-- `ServicesSpec::validate`, `spec.rs:207–232`. -/
def servicesErrors : List String :=
  messageUnless (isPort m.spec.servicePort) "services.port must be between 1 and 65535" ++
    messageUnless (isPort m.spec.serviceTargetPort)
      "services.target_port must be between 1 and 65535" ++
    m.settings.tls.elim [] fun tls ↦ tls.errors m.spec.ingressHost

/-- `IsolationSpec::validate`, `isolation.rs:131–154`. -/
def isolationErrors : List String :=
  messageUnless (m.settings.runtimeClassOverride.all (· ≠ ""))
      "isolation.runtime_class_override must be non-empty when specified" ++
    m.spec.isolationNetwork.elim [] fun network ↦ errorsOf network.validate

/-- `SourceSpec::validate` with its webhook, and its preview's overrides and budget. -/
def sourceErrors (source : SourceSpec) : List String :=
  sourceFieldErrors source ++ (source.build.elim [] buildSpecErrors) ++
    (m.settings.webhook.elim [] WebhookSpec.errors) ++
    source.preview.elim [] fun preview ↦ previewSpecErrors preview ++
      messageUnless (m.settings.previewReplicas.all (0 < ·))
        "source.preview.overrides.replicas must be > 0" ++
      messageUnless (m.settings.previewMaxReplicas.all (0 < ·))
        "source.preview.budget.max_replicas must be > 0"

/-- `ProjectSpec::validate`, `spec.rs:363–500`. -/
def specErrors : List String :=
  messageUnless (m.spec.replicas.all (0 ≤ ·)) "spec.replicas must be >= 0" ++
    (m.spec.tenant.elim [] fun tenant ↦ (errorsOf tenant.validate).map ("spec." ++ ·)) ++
    (m.spec.database.elim [] fun _ ↦ errorOf (Database.validateSpec m.spec)) ++
    messageUnless (!m.spec.worker || m.settings.workerConcurrency.all (0 < ·))
      "worker.concurrency must be > 0" ++
    messageUnless (!m.spec.mail || isPort m.settings.smtpPort)
      "mail.smtp_port must be between 1 and 65535" ++
    (m.spec.scale.elim [] fun _ ↦ scaleErrors m.spec) ++
    (m.spec.health.elim [] healthErrors) ++ m.servicesErrors ++
    (m.spec.pages.elim [] pagesErrors) ++
    (if m.spec.isolation then m.isolationErrors else []) ++
    (m.spec.source.elim [] m.sourceErrors) ++
    (m.spec.serviceAccount.elim [] fun account ↦
      messageUnless (account.name.all fun name ↦ !isBlank name)
        "serviceAccount.name must be non-empty when set") ++
    (m.settings.infrastructure.elim [] InfrastructureSpec.errors) ++ pluginErrors m.spec

end Manifest

/-- Of an imported manifest only the texts of its source can be wrong. -/
theorem specErrors_importedManifest (spec : GitHubImportSpec) :
    (importedManifest spec).specErrors = sourceSpecErrors (importedSource spec) := by
  have hsource : (importedManifest spec).sourceErrors (importedSource spec) =
      sourceSpecErrors (importedSource spec) := by
    have hbuild (errors more : List String) :
        errors ++ (WebhookSpec.mk true [.push, .pullRequest] none).errors ++ more =
          errors ++ more := by
      rw [show (WebhookSpec.mk true [.push, .pullRequest] none).errors = [] from rfl,
        List.append_nil]
    exact hbuild _ _
  have hall : (importedManifest spec).specErrors =
      (importedManifest spec).sourceErrors (importedSource spec) ++ [] ++ [] ++ [] := rfl
  rw [hall, hsource, List.append_nil, List.append_nil, List.append_nil]

end ReinhardtCloud.Dashboard

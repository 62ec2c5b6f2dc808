import ReinhardtCloud.Dashboard.Permissions
import ReinhardtCloud.Dashboard.Requests
import ReinhardtCloud.Operator.Tenants
import ReinhardtCloud.Telemetry.LogBackends

/-!
# Whose logs a request reads

Library `Dashboard`. `deployment_logs_for_current_org` (`apps/deployments/server_fn.rs:571–634`) and
`authorize_app_log_subscription` (`utils/realtime/consumer.rs:386–430`) with the filters that they
send to the log service, and what either backend selects for them.
-/

namespace ReinhardtCloud.Dashboard

open ReinhardtCloud.Base ReinhardtCloud.Operator ReinhardtCloud.Telemetry

/-- `AuthorizedAppLogSubscription`, `consumer.rs:315–320`. -/
structure AuthorizedAppLogSubscription where
  deploymentId : Int
  projectName : String
  (namespace' : String)
  deriving DecidableEq

section Requests

variable {Text : Type} (s : Accounts) (deployments : Table (Deployment Text)) (userId : Nat)

/-- The deployment with the id, if it belongs to the organization. -/
def organizationDeployment (deploymentId : Int) (organizationId : Nat) :
    Option (Deployment Text) :=
  if 0 ≤ deploymentId then
    (deployments.get deploymentId.toNat).filter fun row ↦ row.organization = organizationId
  else none

/-- The namespace of an organization without a team. -/
def organizationNamespace (organization : Organization) : String :=
  (⟨organization.slug, none⟩ : TenantRef).computedNamespace

/-- `authorize_app_log_subscription`, `consumer.rs:386–430`. -/
def authorizeAppLogSubscription (deploymentId : String) :
    Except WsReply AuthorizedAppLogSubscription :=
  match parseI64 deploymentId with
  | none => .error (logStreamRejected "Invalid deployment id for app logs")
  | some deploymentId =>
    match requirePermission s userId .logsRead with
    | .error _ => .error (logStreamRejected "Not authorized to read deployment logs")
    | .ok organizationId =>
      match s.organizations.get organizationId with
      | none => .error (logStreamRejected "Organization not found for log subscription")
      | some organization =>
        match organizationDeployment deployments deploymentId organizationId with
        | none => .error (logStreamRejected "Deployment not found for log subscription")
        | some deployment =>
          .ok ⟨deploymentId, deployment.projectName, organizationNamespace organization⟩

/-- The filter of an app-log subscription, `consumer.rs:727–733`. -/
def AuthorizedAppLogSubscription.filter (subscription : AuthorizedAppLogSubscription) :
    LogFilter :=
  { source := some subscription.projectName, namespace' := some subscription.namespace' }

/-- `deployment_logs_for_current_org` up to its request, `server_fn.rs:588–634`, with the text of
the framework's errors. -/
def deploymentLogsForCurrentOrg (display : AppError → String) (deploymentId : String) :
    Except ServerFnError LogFilter :=
  match requirePermission s userId .logsRead with
  | .error e => .error (.application (display e))
  | .ok organizationId =>
    match parseI64 deploymentId with
    | none => .error (.application "Invalid deployment_id")
    | some deploymentId =>
      match s.organizations.get organizationId with
      | none => .error (.server 404 "Organization not found")
      | some organization =>
        match organizationDeployment deployments deploymentId organizationId with
        | none => .error (.server 404 "Deployment not found")
        | some deployment => .ok
          { source := some deployment.projectName
            deploymentId := some (toString deploymentId), namespace' :=
              some (organizationNamespace organization) }

end Requests

/-- The dashboard authorises the request of a user to read logs for an organization with the
namespace and a project, and sends the filter. -/
inductive LogRead {Text : Type} (s : Accounts) (deployments : Table (Deployment Text)) :
    (projectName namespace' : String) → LogFilter → Prop
  | deploymentLogs (display : AppError → String) (userId : Nat) (deploymentId : String)
      {projectName ns : String} {filter : LogFilter}
      (h : deploymentLogsForCurrentOrg s deployments userId display deploymentId = .ok filter)
      (hproject : filter.source = some projectName) (hns : filter.namespace' = some ns) :
      LogRead s deployments projectName ns filter
  | appLogs (userId : Nat) (deploymentId : String) {a : AuthorizedAppLogSubscription}
      (h : authorizeAppLogSubscription s deployments userId deploymentId = .ok a) :
      LogRead s deployments a.projectName a.namespace' a.filter

/-- Whatever either backend lists or tails of the history was produced by the project in the
namespace. -/
def Confined (loki : Loki) (filter : LogFilter) (projectName ns : String)
    (history : List ProducedLog) : Prop :=
  ∀ log ∈ history, ∀ now : Int,
    (localSelects filter log = true ∨ lokiLists loki now filter log = true ∨
      lokiTails loki filter log = true) → log.project = projectName ∧ log.namespace' = ns

variable {Text : Type} {s : Accounts} {deployments : Table (Deployment Text)} {loki : Loki}
  {projectName ns : String} {filter : LogFilter}

private theorem organizationDeployment_eq_some {id : Int} {org : Nat} {row : Deployment Text}
    (h : organizationDeployment deployments id org = some row) :
    deployments.get id.toNat = some row ∧ row.organization = org := by
  rw [organizationDeployment] at h
  split at h
  · obtain ⟨hget, horg⟩ := Option.filter_eq_some_iff.mp h
    exact ⟨hget, by simpa using horg⟩
  · cases h

/-- What an authorised request for the logs of a deployment asks for. -/
private theorem deploymentLogsForCurrentOrg_ok {display : AppError → String} {userId : Nat}
    {deploymentId : String}
    (h : deploymentLogsForCurrentOrg s deployments userId display deploymentId = .ok filter) :
    ∃ organizationId organization id deployment,
      s.organizations.get organizationId = some organization ∧
      organizationDeployment deployments id organizationId = some deployment ∧
      filter =
        { source := some deployment.projectName, deploymentId := some (toString id), namespace' :=
            some (organizationNamespace organization) } := by
  rw [deploymentLogsForCurrentOrg] at h
  split at h
  · cases h
  · split at h
    · cases h
    · split at h
      · cases h
      · next horganization =>
        split at h
        · cases h
        · next hdeployment =>
          exact ⟨_, _, _, _, horganization, hdeployment, (Except.ok.inj h).symm⟩

/-- What an authorised subscription is about. -/
private theorem authorizeAppLogSubscription_ok {userId : Nat} {deploymentId : String}
    {a : AuthorizedAppLogSubscription}
    (h : authorizeAppLogSubscription s deployments userId deploymentId = .ok a) :
    ∃ organizationId organization id deployment,
      s.organizations.get organizationId = some organization ∧
      organizationDeployment deployments id organizationId = some deployment ∧
      a.projectName = deployment.projectName ∧
      a.namespace' = organizationNamespace organization := by
  rw [authorizeAppLogSubscription] at h
  split at h
  · cases h
  · split at h
    · cases h
    · split at h
      · cases h
      · next horganization =>
        split at h
        · cases h
        · next hdeployment =>
          obtain rfl := Except.ok.inj h
          exact ⟨_, _, _, _, horganization, hdeployment, rfl, rfl⟩

/-- The filter of an authorised request: a project and its namespace, and nothing but possibly a
deployment id beside. -/
theorem LogRead.filter_eq (h : LogRead s deployments projectName ns filter) :
    filter = { source := some projectName, namespace' := some ns,
               deploymentId := filter.deploymentId } := by
  cases h with
  | appLogs userId deploymentId h => rfl
  | deploymentLogs display userId deploymentId h hproject hns =>
    obtain ⟨-, organization, id, deployment, -, -, rfl⟩ := deploymentLogsForCurrentOrg_ok h
    obtain rfl := Option.some.inj hproject
    obtain rfl := Option.some.inj hns
    rfl

/-- An authorised request is about a deployment of an organization of the user. -/
theorem LogRead.organization (h : LogRead s deployments projectName ns filter) :
    ∃ organizationId organization deploymentId deployment,
      s.organizations.get organizationId = some organization ∧
      deployments.get deploymentId = some deployment ∧
      deployment.organization = organizationId ∧ deployment.projectName = projectName ∧
      ns = organizationNamespace organization := by
  cases h with
  | appLogs userId deploymentId h =>
    obtain ⟨organizationId, organization, id, deployment, horganization, hdeployment, hproject,
      hns⟩ := authorizeAppLogSubscription_ok h
    obtain ⟨hget, horg⟩ := organizationDeployment_eq_some hdeployment
    exact ⟨organizationId, organization, id.toNat, deployment, horganization, hget, horg,
      hproject.symm, hns⟩
  | deploymentLogs display userId deploymentId h hproject hns =>
    obtain ⟨organizationId, organization, id, deployment, horganization, hdeployment, rfl⟩ :=
      deploymentLogsForCurrentOrg_ok h
    obtain ⟨hget, horg⟩ := organizationDeployment_eq_some hdeployment
    exact ⟨organizationId, organization, id.toNat, deployment, horganization, hget, horg,
      Option.some.inj hproject, (Option.some.inj hns).symm⟩

/-- When logs are confined: the in-process service ignores the namespace, and compares the
deployment id with the name of the project. -/
private theorem confined_iff (hloki : loki.ReadsLogql)
    (h : LogRead s deployments projectName ns filter)
    (history : List ProducedLog) : Confined loki filter projectName ns history ↔
      ∀ log ∈ history, log.project = projectName → FieldIs filter.deploymentId projectName →
        log.namespace' = ns := by
  have hfilter := h.filter_eq
  have hsource : filter.source = some projectName := by rw [hfilter]
  have hns : filter.namespace' = some ns := by rw [hfilter]
  constructor
  · intro hconfined log hlog hproject hid
    refine (hconfined log hlog 0 (.inl (localSelects_iff.mpr ⟨⟨?_, ?_, ?_⟩, ?_, ?_, ?_⟩))).2
    · intro source hs
      rw [hsource] at hs
      rw [hproject, Option.some.inj hs]
    · intro level hl
      rw [hfilter] at hl
      cases hl
    · intro search hs
      rw [hfilter] at hs
      cases hs
    · intro since hs
      rw [hfilter] at hs
      cases hs
    · intro until' hu
      rw [hfilter] at hu
      cases hu
    · rw [hproject]
      exact hid
  · intro hcondition log hlog now hselected
    have hloki' : lokiTails loki filter log = true →
        log.project = projectName ∧ log.namespace' = ns := by
      intro htails
      obtain ⟨hcommon, hfields⟩ := (lokiTails_iff hloki).mp htails
      exact ⟨(hcommon.source _ hsource).symm, (hfields.namespace' _ hns).symm⟩
    rcases hselected with hlocal | hlists | htails
    · obtain ⟨hcommon, hfields⟩ := localSelects_iff.mp hlocal
      have hproject : log.project = projectName := (hcommon.source _ hsource).symm
      refine ⟨hproject, hcondition log hlog hproject ?_⟩
      rw [← hproject]
      exact hfields.deploymentId
    · obtain ⟨hcommon, hfields, -⟩ := (lokiLists_iff hloki).mp hlists
      exact hloki' ((lokiTails_iff hloki).mpr ⟨hcommon, hfields⟩)
    · exact hloki' htails

/-- When the backends select the same entries: the fields that they read differently have
to come to the same for every entry that passes the others. -/
private theorem backends_agree_iff (hloki : loki.ReadsLogql) (filter : LogFilter) (now : Int)
    (history : List ProducedLog) :
    (∀ log ∈ history, localSelects filter log = lokiLists loki now filter log ∧
        localSelects filter log = lokiTails loki filter log) ↔
      ∀ log ∈ history, CommonFields filter log →
        (LocalFields filter log ↔ LokiFields filter log) ∧
          (LokiFields filter log → InWindow now filter log) := by
  refine forall_congr' fun log ↦ forall_congr' fun _ ↦ ?_
  have heq : ∀ a b : Bool, a = b ↔ (a = true ↔ b = true) := fun a b ↦ Bool.eq_iff_iff
  rw [heq (localSelects filter log) (lokiLists loki now filter log),
    heq (localSelects filter log) (lokiTails loki filter log), localSelects_iff,
    lokiLists_iff hloki, lokiTails_iff hloki]
  tauto

/-- Exactly when what an authorised request reads is confined to the project and its namespace, on
either backend, and exactly when the backends select the same entries for a filter. -/
theorem log_queries_exact (hloki : loki.ReadsLogql) :
    (∀ {Text : Type} {s : Accounts} {deployments : Table (Deployment Text)}
      {projectName ns : String} {filter : LogFilter},
      LogRead s deployments projectName ns filter → ∀ history : List ProducedLog,
        (Confined loki filter projectName ns history ↔
          ∀ log ∈ history, log.project = projectName →
            FieldIs filter.deploymentId projectName → log.namespace' = ns)) ∧
    ∀ (filter : LogFilter) (now : Int) (history : List ProducedLog),
      (∀ log ∈ history, localSelects filter log = lokiLists loki now filter log ∧
          localSelects filter log = lokiTails loki filter log) ↔
        ∀ log ∈ history, CommonFields filter log →
          (LocalFields filter log ↔ LokiFields filter log) ∧
            (LokiFields filter log → InWindow now filter log) :=
  ⟨fun hread history ↦ confined_iff hloki hread history, backends_agree_iff hloki⟩

/-- Loki, as far as it reads queries of the fragment. -/
def documentedLoki : Loki where
  selects := fun text labels line ↦ (readLogql text).any (·.selects labels line)

theorem documentedLoki_reads : documentedLoki.ReadsLogql := by
  intro text query labels line hread
  rw [documentedLoki]
  dsimp only
  rw [hread, Option.any_some]

/-- One user with an organization and a deployment. -/
private def acme : Accounts where
  users := .empty
  socialAccounts := .empty
  organizations := .add .empty ⟨"acme", "Acme", 0⟩
  memberships := .add .empty ⟨0, 0, .owner⟩

private def acmeDeployments : Table (Deployment Unit) :=
  .add .empty ⟨0, "web", 0, "running", "registry/web:1", none⟩

/-- A line of a project `web` in a namespace. -/
private def webLog (ns : String) : ProducedLog :=
  ⟨"web", ns, "0", .info, 0, "started", by decide⟩

/-- A line of a project `store` of another organization. -/
private def storeLog : ProducedLog :=
  ⟨"store", "tenant-globex", "1", .error, 0, "stopped", by decide⟩

private theorem acme_reads : LogRead acme acmeDeployments "web" "tenant-acme"
    ({ source := some "web", namespace' := some "tenant-acme" } : LogFilter) :=
  have h : authorizeAppLogSubscription acme acmeDeployments 0 "0" =
      .ok ⟨0, "web", "tenant-acme"⟩ := by decide
  .appLogs 0 "0" h

theorem acme_confined :
    Confined documentedLoki { source := some "web", namespace' := some "tenant-acme" } "web"
      "tenant-acme" [webLog "tenant-acme", storeLog] := by
  refine ((log_queries_exact documentedLoki_reads).1 acme_reads _).mpr ?_
  intro log hlog hproject _
  rcases List.mem_pair.mp hlog with rfl | rfl
  · rfl
  · exact absurd hproject (by decide)

/-- The in-process service shows a line of another organization's project of the same name. -/
theorem not_confined_globex : documentedLoki.ReadsLogql ∧
    LogRead acme acmeDeployments "web" "tenant-acme"
      ({ source := some "web", namespace' := some "tenant-acme" } : LogFilter) ∧
    ¬ Confined documentedLoki { source := some "web", namespace' := some "tenant-acme" } "web"
      "tenant-acme" [webLog "tenant-globex"] := by
  refine ⟨documentedLoki_reads, acme_reads, fun hconfined ↦ ?_⟩
  have hcontra := (hconfined (webLog "tenant-globex") List.mem_cons_self 0
    (.inl (by decide))).2
  exact absurd hcontra (by decide)

end ReinhardtCloud.Dashboard

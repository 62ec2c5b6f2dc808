import ReinhardtCloud.Base.Overwrite
import ReinhardtCloud.Base.ServerSideApply
import ReinhardtCloud.Operator.Tenants

/-!
# The guardrails of a tenant namespace

Library `Operator`. The builders of `resources/tenant.rs` and `reconcile_tenant_resources`
(`crates/reinhardt-cloud-operator/src/reconciler.rs:2485–2578`). The Namespace is merge-patched;
the quota and the three policies are applied with `force` by one field manager, so what they
hold is what the last sibling sent.
-/

namespace ReinhardtCloud.Operator

open ReinhardtCloud.Base

/-! ## The objects -/

/-- A rule's peer, `NetworkPolicyPeer`, with label selectors as their `matchLabels`. -/
structure NetworkPolicyPeer where
  namespaceSelector : Option StringMap := none
  podSelector : Option StringMap := none
  ipBlock : Option String := none
  deriving DecidableEq

/-- `NetworkPolicyPort`. -/
structure NetworkPolicyPort where
  port : Nat
  protocol : String
  deriving DecidableEq

/-- `NetworkPolicyIngressRule` and `NetworkPolicyEgressRule`: the peers and the ports. -/
structure NetworkPolicyRule where
  peers : List NetworkPolicyPeer
  ports : Option (List NetworkPolicyPort) := none
  deriving DecidableEq

/-- `NetworkPolicySpec`. -/
structure NetworkPolicySpec where
  podSelector : StringMap
  policyTypes : List String
  ingress : Option (List NetworkPolicyRule)
  egress : Option (List NetworkPolicyRule)
  deriving DecidableEq

/-- `NetworkPolicy`. -/
structure NetworkPolicy where
  name : String
  ns : String
  labels : StringMap
  spec : NetworkPolicySpec
  deriving DecidableEq

/-- `ResourceQuota`. -/
structure ResourceQuota where
  name : String
  ns : String
  labels : StringMap
  hard : StringMap
  deriving DecidableEq

/-! ## The builders -/

/-- `kube_dns_peer`, `tenant.rs:77–93`. -/
def kubeDnsPeer : NetworkPolicyPeer where
  namespaceSelector := some [("kubernetes.io/metadata.name", "kube-system")]
  podSelector := some [("k8s-app", "kube-dns")]

/-- `dns_ports`, `tenant.rs:95–109`. -/
def dnsPorts : List NetworkPolicyPort := [⟨53, "UDP"⟩, ⟨53, "TCP"⟩]

/-- `dns_egress_rule`, `tenant.rs:111–132`. -/
def dnsEgressRule (network : Option NetworkIsolationSpec) : NetworkPolicyRule where
  peers := kubeDnsPeer :: match network with
    | some network => network.dnsAllowCidrs.map fun cidr ↦ { ipBlock := some cidr }
    | none => []
  ports := some dnsPorts

/-- `tenant_labels`, `tenant.rs:136–148`. -/
def tenantLabels (tenant : TenantRef) : StringMap :=
  [("app.kubernetes.io/managed-by", "reinhardt-cloud-operator"),
    ("paas.reinhardt-cloud.dev/tenant", tenant.organization)] ++
  match tenant.team with
  | some team => [("paas.reinhardt-cloud.dev/team", team)]
  | none => []

/-- `build_default_resource_quota`, `tenant.rs:172–217`. -/
def buildDefaultResourceQuota (tenant : TenantRef) : ResourceQuota where
  name := "tenant-default-quota"
  ns := tenant.computedNamespace
  labels := tenantLabels tenant
  hard := [("requests.cpu", "10"), ("requests.memory", "20Gi"), ("limits.cpu", "20"),
    ("limits.memory", "40Gi"), ("persistentvolumeclaims", "20"), ("requests.storage", "200Gi"),
    ("pods", "100")]

/-- `build_default_deny_policy`, `tenant.rs:224–239`. -/
def buildDefaultDenyPolicy (tenant : TenantRef) : NetworkPolicy where
  name := "tenant-default-deny"
  ns := tenant.computedNamespace
  labels := tenantLabels tenant
  spec :=
    { podSelector := []
      policyTypes := ["Ingress", "Egress"]
      ingress := some []
      egress := some [] }

/-- `build_allow_same_namespace_policy`, `tenant.rs:245–282`. -/
def buildAllowSameNamespacePolicy (tenant : TenantRef) (network : Option NetworkIsolationSpec) :
    NetworkPolicy where
  name := "tenant-allow-same-namespace"
  ns := tenant.computedNamespace
  labels := tenantLabels tenant
  spec :=
    { podSelector := []
      policyTypes := ["Ingress", "Egress"]
      ingress := some [{ peers := [{ podSelector := some [] }] }]
      egress := some [{ peers := [{ podSelector := some [] }] }, dnsEgressRule network] }

/-- `build_allow_ingress_controller_policy`, `tenant.rs:292–318`. -/
def buildAllowIngressControllerPolicy (tenant : TenantRef) : NetworkPolicy where
  name := "tenant-allow-ingress-controller"
  ns := tenant.computedNamespace
  labels := tenantLabels tenant
  spec :=
    { podSelector := []
      policyTypes := ["Ingress"]
      ingress := some [{ peers :=
        [{ namespaceSelector := some [("kubernetes.io/metadata.name", "ingress-nginx")] }] }]
      egress := none }

/-! ## What an apply sends -/

/-- The fields of a quota or policy that managers own one by one; rule lists are atomic. -/
inductive GuardrailField where
  | label (key : String)
  | hard (resource : String)
  | podSelector
  | policyTypes
  | ingress
  | egress
  deriving DecidableEq

/-- Field values. -/
inductive GuardrailValue where
  | text (value : String)
  | selector (matchLabels : StringMap)
  | types (policyTypes : List String)
  | rules (rules : List NetworkPolicyRule)
  deriving DecidableEq

/-- The fields of a `ResourceQuota` manifest. -/
def ResourceQuota.manifest (quota : ResourceQuota) : GuardrailField → Option GuardrailValue
  | .label key => (quota.labels.lookup key).map .text
  | .hard resource => (quota.hard.lookup resource).map .text
  | _ => none

/-- The fields of a `NetworkPolicy` manifest. -/
def NetworkPolicy.manifest (policy : NetworkPolicy) : GuardrailField → Option GuardrailValue
  | .label key => (policy.labels.lookup key).map .text
  | .hard _ => none
  | .podSelector => some (.selector policy.spec.podSelector)
  | .policyTypes => some (.types policy.spec.policyTypes)
  | .ingress => policy.spec.ingress.map .rules
  | .egress => policy.spec.egress.map .rules

/-! ## The reconcile -/

/-- The tenant-wide objects: the Namespace's labels, absent with the Namespace, the quota and
the policies by name, with their managers. -/
structure TenantGuardrails (M : Type) where
  namespaceLabels : Option StringMap
  quota : Managed GuardrailField M GuardrailValue
  policy : String → Managed GuardrailField M GuardrailValue

/-- What the tenant-wide objects hold, whoever owns their fields. -/
def TenantGuardrails.observe {M : Type} (s : TenantGuardrails M) :
    Option StringMap × (GuardrailField → Option GuardrailValue) ×
      (String → GuardrailField → Option GuardrailValue) :=
  (s.namespaceLabels, s.quota.value, fun name ↦ (s.policy name).value)

section

variable {M : Type} [Fintype M] [DecidableEq M] (operator : M)

/-- Apply one policy with `force`. -/
def TenantGuardrails.applyPolicy (s : TenantGuardrails M) (policy : NetworkPolicy) :
    TenantGuardrails M :=
  { s with policy := fun name ↦
      if name = policy.name then (s.policy name).apply operator policy.manifest else s.policy name }

/-- `patch_or_create_namespace`, `reconciler.rs:2456–2482`, and
`patch_existing_namespace_labels`, `reconciler.rs:2557–2577`. -/
def patchNamespace (manageNamespaceLifecycle : Bool) (ns : String) (labels : StringMap) :
    Option StringMap → Except TenantError StringMap
  | some current => .ok (current.merge labels)
  | none => if manageNamespaceLifecycle then .ok labels else .error (.namespaceNotProvisioned ns)

/-- The three policies, in the order of the loop at `reconciler.rs:2524–2528`. -/
def tenantPolicies (tenant : TenantRef) (network : Option NetworkIsolationSpec) :
    List NetworkPolicy :=
  [buildDefaultDenyPolicy tenant, buildAllowSameNamespacePolicy tenant network,
    buildAllowIngressControllerPolicy tenant]

/-- The applies inside the namespace, `reconciler.rs:2506–2542`. -/
def applyGuardrails (tenant : TenantRef) (network : Option NetworkIsolationSpec)
    (s : TenantGuardrails M) : TenantGuardrails M :=
  (tenantPolicies tenant network).foldl (TenantGuardrails.applyPolicy operator)
    { s with quota := s.quota.apply operator (buildDefaultResourceQuota tenant).manifest }

/-- `reconcile_tenant_resources`, `reconciler.rs:2485–2549`. -/
def reconcileTenantResources (manageNamespaceLifecycle : Bool) (tenant : TenantRef)
    (network : Option NetworkIsolationSpec) (s : TenantGuardrails M) :
    Except TenantError (TenantGuardrails M) := do
  let labels ← patchNamespace manageNamespaceLifecycle tenant.computedNamespace
    (tenantLabels tenant) s.namespaceLabels
  return applyGuardrails operator tenant network { s with namespaceLabels := some labels }

/-- The tenant step of `apply`, `reconciler.rs:438–476`; one that fails changes nothing. -/
def reconcileTenant (manageNamespaceLifecycle : Bool) (s : TenantGuardrails M) (app : Project) :
    TenantGuardrails M :=
  match app.ns, app.spec.tenant with
  | some ns, some tenant =>
    match validateTenantNamespace app ns with
    | .ok (some _) =>
      let network := if app.spec.isolation then app.spec.isolationNetwork else none
      match reconcileTenantResources operator manageNamespaceLifecycle tenant network s with
      | .ok s' => s'
      | .error _ => s
    | _ => s
  | _, _ => s

end

/-! ## Siblings -/

/-- A Project of the tenant in the tenant's namespace. -/
structure Sibling (tenant : TenantRef) where
  project : Project
  tenant_eq : project.spec.tenant = some tenant
  ns_eq : project.ns = some tenant.computedNamespace
  deriving DecidableEq

/-- The `isolation.network` the tenant step passes on. -/
def Sibling.network {tenant : TenantRef} (P : Sibling tenant) : Option NetworkIsolationSpec :=
  if P.project.spec.isolation then P.project.spec.isolationNetwork else none

/-- The sibling's own DNS CIDRs. -/
def Sibling.dnsAllowCidrs {tenant : TenantRef} (P : Sibling tenant) : List String :=
  (P.network.map NetworkIsolationSpec.dnsAllowCidrs).getD []

/-- The DNS rule holds the kube-dns peer and the sibling's own CIDRs. -/
private theorem dnsEgressRule_eq {tenant : TenantRef} (P : Sibling tenant) :
    dnsEgressRule P.network =
      ⟨kubeDnsPeer :: P.dnsAllowCidrs.map fun cidr ↦ { ipBlock := some cidr }, some dnsPorts⟩ := by
  unfold dnsEgressRule Sibling.dnsAllowCidrs
  cases P.network <;> rfl

/-- A shared field of the same-namespace policy tells two siblings' CIDRs apart. -/
private theorem egress_eq_iff {tenant : TenantRef} (P Q : Sibling tenant) :
    (buildAllowSameNamespacePolicy tenant P.network).manifest .egress =
        (buildAllowSameNamespacePolicy tenant Q.network).manifest .egress ↔
      P.dnsAllowCidrs = Q.dnsAllowCidrs := by
  have hinj : Function.Injective fun cidr :
    String ↦ ({ ipBlock := some cidr } : NetworkPolicyPeer) := by
    intro c d h
    simpa using h
  simp only [NetworkPolicy.manifest, buildAllowSameNamespacePolicy, dnsEgressRule_eq,
    Option.map_some, Option.some.injEq, GuardrailValue.rules.injEq, List.cons.injEq, and_true,
    true_and, NetworkPolicyRule.mk.injEq, hinj.list_map.eq_iff]

section

variable {M : Type} [Fintype M] [DecidableEq M] {operator : M} {manage : Bool}
  {tenant : TenantRef}

/-- The tenant is valid and its Namespace exists or may be created. -/
def guardrailsReachable (manage : Bool) (tenant : TenantRef) (s : TenantGuardrails M) : Prop :=
  tenant.validate = .ok () ∧ (manage = true ∨ s.namespaceLabels.isSome = true)

/-- The Namespace's labels after the step. -/
def labelsAfter (tenant : TenantRef) : Option StringMap → StringMap
  | some current => current.merge (tenantLabels tenant)
  | none => tenantLabels tenant

private theorem reconcileTenant_of_valid (P : Sibling tenant) (s : TenantGuardrails M)
    (hv : tenant.validate = .ok ()) :
    reconcileTenant operator manage s P.project =
      match reconcileTenantResources operator manage tenant P.network s with
      | .ok s' => s'
      | .error _ => s := by
  simp only [reconcileTenant, P.ns_eq, P.tenant_eq, validateTenantNamespace, hv, ↓reduceIte,
    Sibling.network]

/-- Where the guardrails are reachable, the step writes them all. -/
theorem reconcileTenant_of_reachable (P : Sibling tenant) {s : TenantGuardrails M}
    (h : guardrailsReachable manage tenant s) :
    reconcileTenant operator manage s P.project = applyGuardrails operator tenant P.network
      { s with namespaceLabels := some (labelsAfter tenant s.namespaceLabels) } := by
  rw [reconcileTenant_of_valid P s h.1]
  cases hl : s.namespaceLabels with
  | some current => simp only [reconcileTenantResources, hl, patchNamespace, labelsAfter]; rfl
  | none =>
    have hm : manage = true := by simpa [hl] using h.2
    simp only [reconcileTenantResources, hl, patchNamespace, labelsAfter, hm]
    rfl

/-- Where they are not, the step changes nothing. -/
theorem reconcileTenant_of_not_reachable (P : Sibling tenant) {s : TenantGuardrails M}
    (h : ¬ guardrailsReachable manage tenant s) :
    reconcileTenant operator manage s P.project = s := by
  cases hv : tenant.validate with
  | error errors => simp only [reconcileTenant, P.ns_eq, P.tenant_eq, validateTenantNamespace, hv]
  | ok _ =>
    have hmissing : ¬ (manage = true ∨ s.namespaceLabels.isSome = true) := fun h' ↦ h ⟨hv, h'⟩
    rw [not_or, Bool.not_eq_true, Option.not_isSome_iff_eq_none] at hmissing
    obtain ⟨hm, hl⟩ := hmissing
    rw [reconcileTenant_of_valid P s hv]
    simp only [reconcileTenantResources, hl, patchNamespace, hm]
    rfl

/-- Every policy of the namespace is the applied one of its name, or as it was. -/
theorem applyGuardrails_policy (network : Option NetworkIsolationSpec) (s : TenantGuardrails M)
    (name : String) :
    (applyGuardrails operator tenant network s).policy name =
      match (tenantPolicies tenant network).find? fun policy ↦ name = policy.name with
      | some policy => (s.policy name).apply operator policy.manifest
      | none => s.policy name := by
  simp only [applyGuardrails, tenantPolicies, List.foldl_cons, List.foldl_nil,
    TenantGuardrails.applyPolicy, List.find?_cons, buildDefaultDenyPolicy,
    buildAllowSameNamespacePolicy, buildAllowIngressControllerPolicy]
  by_cases hd : name = "tenant-default-deny"
  · subst hd; simp
  · by_cases hs : name = "tenant-allow-same-namespace"
    · subst hs; simp
    · by_cases hi : name = "tenant-allow-ingress-controller"
      · subst hi; simp
      · simp [hd, hs, hi]

/-- The policies two siblings apply under one name send the same fields. -/
private theorem manifest_isSome {network : Option NetworkIsolationSpec} {name : String}
    {policy : NetworkPolicy} (network' : Option NetworkIsolationSpec)
    (h : (tenantPolicies tenant network).find? (fun policy ↦ name = policy.name) = some policy) :
    ∃ policy', (tenantPolicies tenant network').find? (fun policy ↦ name = policy.name) =
      some policy' ∧ ∀ f, (policy'.manifest f).isSome = (policy.manifest f).isSome := by
  have hname : name = policy.name := by simpa using List.find?_some h
  have hmem := List.mem_of_find?_eq_some h
  simp only [tenantPolicies, List.mem_cons, List.not_mem_nil, or_false] at hmem
  subst hname
  rcases hmem with rfl | rfl | rfl
  · exact ⟨_, rfl, fun f ↦ rfl⟩
  · refine ⟨buildAllowSameNamespacePolicy tenant network', rfl, ?_⟩
    intro f
    cases f <;> rfl
  · exact ⟨_, rfl, fun f ↦ rfl⟩

private theorem labelsAfter_labelsAfter (labels : Option StringMap) :
    labelsAfter tenant (some (labelsAfter tenant labels)) = labelsAfter tenant labels := by
  have hmerge : ∀ current : StringMap, ∀ patch : StringMap,
      (patch ++ current).filter (fun kv ↦ !(patch.any fun p ↦ p.1 == kv.1)) =
        current.filter fun kv ↦ !(patch.any fun p ↦ p.1 == kv.1) := by
    intro current patch
    have hpatch : patch.filter (fun kv ↦ !(patch.any fun p ↦ p.1 == kv.1)) = [] := by
      rw [List.filter_eq_nil_iff]
      intro kv hkv
      simp only [Bool.not_eq_true', Bool.not_eq_false]
      exact List.any_eq_true.mpr ⟨kv, hkv, beq_self_eq_true _⟩
    rw [List.filter_append, hpatch, List.nil_append]
  cases labels with
  | some current =>
    simp only [labelsAfter, StringMap.merge]
    rw [hmerge, List.filter_filter]
    simp only [Bool.and_self]
  | none =>
    have := hmerge [] (tenantLabels tenant)
    simp only [labelsAfter, StringMap.merge]
    rw [List.append_nil] at this
    rw [this, List.filter_nil, List.append_nil]

private theorem reachable_after {s : TenantGuardrails M} {network : Option NetworkIsolationSpec}
    (h : guardrailsReachable manage tenant s) (labels : StringMap) :
    guardrailsReachable manage tenant
      (applyGuardrails operator tenant network { s with namespaceLabels := some labels }) :=
  ⟨h.1, Or.inr rfl⟩

/-- A sibling's step overwrites the one before it. -/
theorem overwriting_reconcileTenant :
    Overwriting (fun s (P : Sibling tenant) ↦ reconcileTenant operator manage s P.project)
      TenantGuardrails.observe := by
  intro s P Q
  by_cases h : guardrailsReachable manage tenant s
  · show (reconcileTenant operator manage
      (reconcileTenant operator manage s P.project) Q.project).observe =
      (reconcileTenant operator manage s Q.project).observe
    rw [reconcileTenant_of_reachable P h, reconcileTenant_of_reachable Q (reachable_after h _),
      reconcileTenant_of_reachable Q h]
    refine Prod.ext ?_ (Prod.ext ?_ ?_)
    · exact congrArg some (labelsAfter_labelsAfter s.namespaceLabels)
    · exact Managed.apply_apply_value fun f ↦ rfl
    · funext name
      simp only [TenantGuardrails.observe, applyGuardrails_policy]
      cases hQ : (tenantPolicies tenant Q.network).find? fun policy ↦ name = policy.name with
      | some policy =>
        obtain ⟨policy', hP, hsent⟩ := manifest_isSome P.network hQ
        simp only [hP]
        exact Managed.apply_apply_value hsent
      | none =>
        cases hP : (tenantPolicies tenant P.network).find? fun policy ↦ name = policy.name with
        | some policy =>
          obtain ⟨policy', hQ', -⟩ := manifest_isSome Q.network hP
          exact absurd (hQ'.symm.trans hQ) (Option.some_ne_none _)
        | none => simp only
  · simp only [reconcileTenant_of_not_reachable P h]

/-- Two siblings leave the same exactly when nothing can be written or their CIDRs agree. -/
private theorem observe_reconcileTenant_eq_iff (P Q : Sibling tenant) (s : TenantGuardrails M) :
    (reconcileTenant operator manage s P.project).observe =
        (reconcileTenant operator manage s Q.project).observe ↔
      (guardrailsReachable manage tenant s → P.dnsAllowCidrs = Q.dnsAllowCidrs) := by
  by_cases h : guardrailsReachable manage tenant s
  · rw [reconcileTenant_of_reachable P h, reconcileTenant_of_reachable Q h, forall_prop_of_true h]
    constructor
    · intro heq
      have hegress := congrFun (congrFun (congrArg (·.2.2) heq) "tenant-allow-same-namespace")
        .egress
      simp only [TenantGuardrails.observe, applyGuardrails_policy] at hegress
      exact (egress_eq_iff P Q).mp hegress
    · intro hcidrs
      have hpolicies : tenantPolicies tenant P.network = tenantPolicies tenant Q.network := by
        simp only [tenantPolicies, buildAllowSameNamespacePolicy, dnsEgressRule_eq, hcidrs]
      simp only [applyGuardrails, hpolicies]
  · rw [reconcileTenant_of_not_reachable P h, reconcileTenant_of_not_reachable Q h]
    simp only [h, false_imp_iff]

/-- Every order of the siblings' reconciles leaves the same guardrails exactly when no guardrail
can be written or all siblings list the same DNS CIDRs. -/
theorem guardrails_same_in_every_order_iff (operator : M) (manageNamespaceLifecycle : Bool)
    (tenant : TenantRef) (siblings : Finset (Sibling tenant)) (s : TenantGuardrails M) :
    (∀ order order', Covers siblings order → Covers siblings order' →
      (order.foldl (fun s P ↦
        reconcileTenant operator manageNamespaceLifecycle s P.project) s).observe =
        (order'.foldl (fun s P ↦
          reconcileTenant operator manageNamespaceLifecycle s P.project) s).observe) ↔
    (guardrailsReachable manageNamespaceLifecycle tenant s →
      ∀ P ∈ siblings, ∀ Q ∈ siblings, P.dnsAllowCidrs = Q.dnsAllowCidrs) := by
  rw [overwriting_reconcileTenant.same_in_every_order_iff siblings s]
  simp only [observe_reconcileTenant_eq_iff]
  constructor
  · intro h hr P hP Q hQ
    exact h P hP Q hQ hr
  · intro h P hP Q hQ hr
    exact h hr P hP Q hQ

end

/-- A Project of the organization `acme` with its own DNS CIDRs. -/
def acmeSibling (name : String) (cidrs : List String) : Sibling ⟨"acme", none⟩ where
  project :=
    { name := name
      ns := some "tenant-acme"
      uid := none
      resourceVersion := none
      annotations := ⟨none, none, none, none⟩
      spec :=
        { image := "app"
          isolation := true
          isolationNetwork := some { dnsAllowCidrs := cidrs }
          tenant := some ⟨"acme", none⟩ }
      status := none }
  tenant_eq := rfl
  ns_eq := rfl

/-- With different DNS CIDRs the sibling that reconciled last decides the DNS rule. -/
theorem guardrails_depend_on_order :
    ¬ ∀ (tenant : TenantRef) (siblings : Finset (Sibling tenant)) (s : TenantGuardrails Unit)
      (order order' : List (Sibling tenant)), Covers siblings order → Covers siblings order' →
      (order.foldl (fun s P ↦ reconcileTenant () true s P.project) s).observe =
        (order'.foldl (fun s P ↦ reconcileTenant () true s P.project) s).observe := by
  intro h
  let web := acmeSibling "web" ["10.0.0.10/32"]
  let api := acmeSibling "api" []
  let empty : Managed GuardrailField Unit GuardrailValue := ⟨fun _ ↦ none, fun _ _ ↦ false⟩
  have hsame := h _ {web, api} ⟨none, empty, fun _ ↦ empty⟩ [web, api] [api, web]
    (fun P ↦ by simp) (fun P ↦ by simp [or_comm])
  have hegress := congrFun (congrFun (congrArg (·.2.2) hsame) "tenant-allow-same-namespace") .egress
  revert hegress
  decide

end ReinhardtCloud.Operator

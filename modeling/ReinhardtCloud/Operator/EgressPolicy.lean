import ReinhardtCloud.Base.IpBlocks
import ReinhardtCloud.Operator.TenantGuardrails
import ReinhardtCloud.Operator.Workloads

/-!
# The egress policy of an isolated Project

Library `Operator`. `NetworkIsolationSpec::validate` (`crd/isolation.rs:68–110`) and the egress
builders of `resources/security/network_policy.rs:26–74,170–243`, with what the API server asks of
an IP block and which connections an egress rule admits. The ingress policies are left out.
-/

namespace ReinhardtCloud.Operator

open ReinhardtCloud.Base

/-! ## Validation, `isolation.rs:72–110` -/

/-- `is_valid_cidr`. -/
def isValidCidr (cidr : String) : Bool :=
  match splitOnce '/' cidr with
  | none => false
  | some (ipStr, prefixStr) =>
    match parseIpAddr ipStr, parseUnsigned 8 prefixStr.toList with
    | some ip, some length => decide (length ≤ if ip.family = .v4 then 32 else 128)
    | _, _ => false

/-- The errors of one list of CIDRs. -/
def invalidCidrs (field : String) (cidrs : List String) : List String :=
  (cidrs.zipIdx.filter fun entry ↦ !isValidCidr entry.1).map fun entry ↦
    s!"isolation.network.{field}[{entry.2}] is not valid CIDR: {entry.1}"

/-- `NetworkIsolationSpec::validate`. -/
def NetworkIsolationSpec.validate (network : NetworkIsolationSpec) : Except (List String) Unit :=
  let errors := invalidCidrs "egress_allow_cidrs" network.egressAllowCidrs ++
    invalidCidrs "dns_allow_cidrs" network.dnsAllowCidrs
  if errors.isEmpty then .ok () else .error errors

/-! ## The policy, `network_policy.rs` -/

/-- `IPBlock`. -/
structure IPBlock where
  cidr : String
  except : Option (List String) := none
  deriving DecidableEq

/-- A `NetworkPolicyPeer` whose IP block may have exceptions. -/
structure EgressPeer where
  namespaceSelector : Option StringMap := none
  podSelector : Option StringMap := none
  ipBlock : Option IPBlock := none
  deriving DecidableEq

/-- A `NetworkPolicyEgressRule`: without ports it is about all of them. -/
structure EgressRule where
  peers : List EgressPeer
  ports : Option (List NetworkPolicyPort) := none
  deriving DecidableEq

/-- A `NetworkPolicy` with egress rules only. -/
structure EgressPolicy where
  name : String
  ns : String
  owner : Uid
  labels : StringMap
  podSelector : StringMap
  policyTypes : List String
  egress : List EgressRule
  deriving DecidableEq

/-- `dns_egress_rule`, `network_policy.rs:61–74`, with `kube_dns_peer` and `dns_ports`, which are
those of `tenant.rs`. -/
def projectDnsEgressRule (dnsAllowCidrs : List String) : EgressRule where
  peers := { namespaceSelector := kubeDnsPeer.namespaceSelector
             podSelector := kubeDnsPeer.podSelector } ::
    dnsAllowCidrs.map fun cidr ↦ { ipBlock := some { cidr := cidr } }
  ports := some dnsPorts

/-- `metadata_except`, `network_policy.rs:181–185`. -/
def NetworkIsolationSpec.metadataExcept (network : NetworkIsolationSpec) : Option (List String) :=
  if network.blockMetadataService then some ["169.254.169.254/32"] else none

/-- The rule for everything else, `network_policy.rs:187–215`. -/
def externalEgressRule (network : NetworkIsolationSpec) : EgressRule :=
  if network.egressAllowCidrs.isEmpty then
    { peers := [{ ipBlock := some { cidr := "0.0.0.0/0", except := network.metadataExcept } }] }
  else
    { peers := network.egressAllowCidrs.map fun cidr ↦
        { ipBlock := some { cidr := cidr, except := network.metadataExcept } } }

/-- `build_managed_service_egress_policy`, `network_policy.rs:170–243`. -/
def buildManagedServiceEgressPolicy (app : Project) (network : NetworkIsolationSpec) :
    Except Error EgressPolicy := do
  let ns ← requireNamespace app
  let owner ← ownerReference app
  return {
    name := s!"{app.name}-allow-egress"
    ns := ns
    owner := owner
    labels := [("app.kubernetes.io/managed-by", "reinhardt-cloud-operator")]
    podSelector := [("app.kubernetes.io/name", app.name)]
    policyTypes := ["Egress"]
    egress := projectDnsEgressRule network.dnsAllowCidrs ::
      if network.allowEgress then [externalEgressRule network] else [] }

/-! ## What the API server admits -/

/-- What an IP block is admitted for: every exception lies strictly within it. -/
def IPBlock.Admissible (block : IPBlock) : Prop :=
  ∀ entry ∈ block.except.getD [], ∃ inner outer, readCidr entry = some inner ∧
    readCidr block.cidr = some outer ∧ inner.base.family = outer.base.family ∧
      inner.addresses ⊂ outer.addresses

/-- Every IP block of the policy is admitted. -/
def EgressPolicy.Admissible (policy : EgressPolicy) : Prop :=
  ∀ rule ∈ policy.egress, ∀ peer ∈ rule.peers, ∀ block, peer.ipBlock = some block →
    block.Admissible

/-! ## What the rules admit -/

/-- The other end of a connection: its address and, for a pod, the labels of its namespace and its
own. -/
structure Destination where
  ip : IpAddr
  pod : Option (StringMap × StringMap) := none

/-- The address is in the block and in none of its exceptions. -/
def IPBlock.Admits (block : IPBlock) (ip : IpAddr) : Prop :=
  (∃ outer, readCidr block.cidr = some outer ∧ outer.contains ip = true) ∧
    ∀ entry ∈ block.except.getD [], ∀ inner, readCidr entry = some inner →
      inner.contains ip = false

/-- A peer is an IP block, or the pods that its selectors match. -/
def EgressPeer.Admits (peer : EgressPeer) (destination : Destination) : Prop :=
  match peer.ipBlock with
  | some block => block.Admits destination.ip
  | none => ∃ namespaceLabels podLabels, destination.pod = some (namespaceLabels, podLabels) ∧
      (∀ label ∈ peer.namespaceSelector.getD [], label ∈ namespaceLabels) ∧
        ∀ label ∈ peer.podSelector.getD [], label ∈ podLabels

/-- A rule admits a connection to one of its peers at one of its ports. -/
def EgressRule.Admits (rule : EgressRule) (destination : Destination) (port : Nat)
    (protocol : String) : Prop :=
  (∃ peer ∈ rule.peers, peer.Admits destination) ∧
    ∀ ports, rule.ports = some ports → ⟨port, protocol⟩ ∈ ports

/-- The address of the cloud's metadata service. -/
def metadataAddress : IpAddr :=
  .ofNat .v4 (((169 * 256 + 254) * 256 + 169) * 256 + 254)

/-- Only DNS may go to the metadata service. -/
def EgressPolicy.BlocksMetadata (policy : EgressPolicy) : Prop :=
  ∀ rule ∈ policy.egress, ∀ destination port protocol, destination.ip = metadataAddress →
    rule.Admits destination port protocol → port = 53

/-! ## The exception for the metadata service -/

/-- The block of the one address. -/
def metadataBlock : CidrBlock where
  base := metadataAddress
  prefixLength := 32
  fits := by decide

theorem readCidr_metadata : readCidr "169.254.169.254/32" = some metadataBlock := by decide

/-- An exception for the metadata service is admitted in the IPv4 blocks that hold more than its
address. -/
theorem admissible_metadata_iff {cidr : String} :
    ({ cidr := cidr, except := some ["169.254.169.254/32"] } : IPBlock).Admissible ↔
      ∃ block, readCidr cidr = some block ∧ block.prefixLength < 32 ∧
        block.contains metadataAddress = true := by
  constructor
  · intro h
    obtain ⟨inner, outer, hinner, houter, -, hsubset⟩ := h _ (List.mem_singleton_self _)
    rw [readCidr_metadata] at hinner
    obtain rfl := Option.some.inj hinner
    obtain ⟨hcontains, hlength⟩ := CidrBlock.addresses_ssubset_iff.mp hsubset
    exact ⟨outer, houter, hlength, hcontains⟩
  · rintro ⟨outer, houter, hlength, hcontains⟩ entry hentry
    obtain rfl := List.mem_singleton.mp hentry
    refine ⟨metadataBlock, outer, readCidr_metadata, houter, ?_, ?_⟩
    · exact (CidrBlock.contains_iff.mp hcontains).1
    · exact CidrBlock.addresses_ssubset_iff.mpr ⟨hcontains, hlength⟩

/-- A rule on named ports admits no others. -/
theorem port_of_dns_admits {cidrs : List String} {destination : Destination} {port : Nat}
    {protocol : String} (h : (projectDnsEgressRule cidrs).Admits destination port protocol) :
    port = 53 := by
  have hport := h.2 dnsPorts rfl
  simp only [dnsPorts, List.mem_cons, NetworkPolicyPort.mk.injEq, List.not_mem_nil,
    or_false] at hport
  rcases hport with ⟨hport, -⟩ | ⟨hport, -⟩
  · exact hport
  · exact hport

/-- The peers of the rule for everything else. -/
theorem mem_externalEgressRule_iff {network : NetworkIsolationSpec} {peer : EgressPeer} :
    peer ∈ (externalEgressRule network).peers ↔
      ∃ cidr, (network.egressAllowCidrs = [] ∧ cidr = "0.0.0.0/0" ∨
          cidr ∈ network.egressAllowCidrs) ∧
        peer = { ipBlock := some { cidr := cidr, except := network.metadataExcept } } := by
  unfold externalEgressRule
  cases hcidrs : network.egressAllowCidrs with
  | nil => simp
  | cons cidr cidrs =>
    simp only [List.isEmpty_cons, Bool.false_eq_true, ↓reduceIte, List.mem_map, reduceCtorEq,
      false_and, false_or, eq_comm (a := peer)]

/-- The rule for everything else does not admit the metadata service when it is blocked. -/
theorem not_externalEgressRule_admits {network : NetworkIsolationSpec}
    (hblock : network.blockMetadataService = true) {destination : Destination}
    (hip : destination.ip = metadataAddress) {port : Nat} {protocol : String} :
    ¬ (externalEgressRule network).Admits destination port protocol := by
  rintro ⟨⟨peer, hpeer, hadmits⟩, -⟩
  obtain ⟨cidr, -, rfl⟩ := mem_externalEgressRule_iff.mp hpeer
  have hentry : "169.254.169.254/32" ∈ network.metadataExcept.getD [] := by
    rw [NetworkIsolationSpec.metadataExcept, if_pos hblock]
    exact List.mem_singleton_self _
  have hout := hadmits.2 _ hentry _ readCidr_metadata
  rw [hip] at hout
  have hin := metadataBlock.contains_base
  rw [show metadataBlock.base = metadataAddress from rfl, hout] at hin
  cases hin

/-! ## When the policy is admitted -/

/-- What the validation accepts can be read. -/
theorem isSome_readCidr_of_valid {cidr : String} (h : isValidCidr cidr = true) :
    ∃ block, readCidr cidr = some block := by
  unfold isValidCidr at h
  split at h
  · cases h
  · next ipStr prefixStr hsplit =>
    split at h
    · next ip length hip hlength =>
      have hfits : length ≤ ip.family.width := by
        have h' := of_decide_eq_true h
        cases hfamily : ip.family with
        | v4 => rwa [hfamily] at h'
        | v6 => rwa [hfamily] at h'
      refine ⟨⟨ip, length, hfits⟩, ?_⟩
      rw [readCidr, hsplit, Option.bind_some]
      dsimp only
      rw [hip, Option.bind_some, hlength, Option.bind_some, dif_pos hfits]
    · cases h

theorem isValidCidr_of_validate {network : NetworkIsolationSpec} (h : network.validate = .ok ())
    {cidr : String} (hcidr : cidr ∈ network.egressAllowCidrs) : isValidCidr cidr = true := by
  unfold NetworkIsolationSpec.validate at h
  dsimp only at h
  split at h
  · next hempty =>
    rw [List.isEmpty_iff, List.append_eq_nil_iff, invalidCidrs, List.map_eq_nil_iff,
      List.filter_eq_nil_iff] at hempty
    obtain ⟨i, hi⟩ := List.mem_iff_getElem?.mp hcidr
    simpa using hempty.1 (cidr, i) (List.mk_mem_zipIdx_iff_getElem?.mpr hi)
  · cases h

/-- Without exceptions there is nothing to hold. -/
theorem admissible_of_no_exceptions {block : IPBlock} (h : block.except = none) :
    block.Admissible := by
  intro entry hentry
  rw [h] at hentry
  cases hentry

theorem admissible_of_dnsPeer {cidrs : List String} {peer : EgressPeer} {block : IPBlock}
    (hpeer : peer ∈ (projectDnsEgressRule cidrs).peers) (hblock : peer.ipBlock = some block) :
    block.Admissible := by
  apply admissible_of_no_exceptions
  rcases List.mem_cons.mp hpeer with rfl | hpeer
  · cases hblock
  · obtain ⟨cidr, -, rfl⟩ := List.mem_map.mp hpeer
    obtain rfl := Option.some.inj hblock
    rfl

/-- The block of all IPv4 addresses holds the metadata service. -/
theorem exists_block_of_everything :
    ∃ block, readCidr "0.0.0.0/0" = some block ∧ block.prefixLength < 32 ∧
      block.contains metadataAddress = true :=
  ⟨⟨.ofNat .v4 0, 0, Nat.zero_le _⟩, by decide, by decide, by decide⟩

/-- Unless the metadata service may be reached, every CIDR of the specification is an IPv4 block
that holds its address and another one. -/
def NetworkIsolationSpec.CidrsHoldMetadata (network : NetworkIsolationSpec) : Prop :=
  network.blockMetadataService = true → network.allowEgress = true →
    ∀ cidr ∈ network.egressAllowCidrs, ∀ block, readCidr cidr = some block →
      block.prefixLength < 32 ∧ block.contains metadataAddress = true

/-- The policy of a validated specification is admitted and blocks the metadata service exactly
when every CIDR holds the address that is cut out of it. -/
theorem egressPolicy_admissible_iff {app : Project} {network : NetworkIsolationSpec}
    {policy : EgressPolicy} (hvalid : network.validate = .ok ())
    (h : buildManagedServiceEgressPolicy app network = .ok policy) :
    policy.Admissible ∧ (network.blockMetadataService = true → policy.BlocksMetadata) ↔
      network.CidrsHoldMetadata := by
  have hpolicy : policy.egress = projectDnsEgressRule network.dnsAllowCidrs ::
      if network.allowEgress then [externalEgressRule network] else [] := by
    simp only [buildManagedServiceEgressPolicy, bind_eq_ok] at h
    obtain ⟨ns, -, owner, -, h⟩ := h
    obtain rfl := Except.ok.inj h
    rfl
  have hblocks : network.blockMetadataService = true → policy.BlocksMetadata := by
    intro hblock rule hrule destination port protocol hip hadmits
    rw [hpolicy, List.mem_cons] at hrule
    rcases hrule with rfl | hrule
    · exact port_of_dns_admits hadmits
    · by_cases hegress : network.allowEgress = true
      · rw [if_pos hegress, List.mem_singleton] at hrule
        rw [hrule] at hadmits
        exact absurd hadmits (not_externalEgressRule_admits hblock hip)
      · rw [if_neg hegress] at hrule
        cases hrule
  rw [and_iff_left hblocks]
  constructor
  · intro hadmissible hblock hegress cidr hcidr block hread
    have hrule : externalEgressRule network ∈ policy.egress := by
      rw [hpolicy, if_pos hegress]
      exact List.mem_cons_of_mem _ (List.mem_singleton_self _)
    have hpeer := hadmissible _ hrule _
      (mem_externalEgressRule_iff.mpr ⟨cidr, .inr hcidr, rfl⟩) _ rfl
    rw [NetworkIsolationSpec.metadataExcept, if_pos hblock, admissible_metadata_iff] at hpeer
    obtain ⟨block', hread', hlength, hcontains⟩ := hpeer
    rw [hread] at hread'
    obtain rfl := Option.some.inj hread'
    exact ⟨hlength, hcontains⟩
  · intro hcidrs rule hrule peer hpeer block hblock
    rw [hpolicy, List.mem_cons] at hrule
    rcases hrule with rfl | hrule
    · exact admissible_of_dnsPeer hpeer hblock
    · by_cases hegress : network.allowEgress = true
      · rw [if_pos hegress, List.mem_singleton] at hrule
        rw [hrule] at hpeer
        obtain ⟨cidr, hcidr, rfl⟩ := mem_externalEgressRule_iff.mp hpeer
        obtain rfl := Option.some.inj hblock
        rw [NetworkIsolationSpec.metadataExcept]
        by_cases hmetadata : network.blockMetadataService = true
        · rw [if_pos hmetadata, admissible_metadata_iff]
          rcases hcidr with ⟨-, rfl⟩ | hcidr
          · exact exists_block_of_everything
          · obtain ⟨block, hread⟩ :=
              isSome_readCidr_of_valid (isValidCidr_of_validate hvalid hcidr)
            exact ⟨block, hread, hcidrs hmetadata hegress cidr hcidr block hread⟩
        · rw [if_neg hmetadata]
          exact admissible_of_no_exceptions rfl
      · rw [if_neg hegress] at hrule
        cases hrule

/-- An isolated Project. -/
def isolatedProject (network : NetworkIsolationSpec) : Project where
  name := "shop"
  ns := some "team"
  uid := some 7
  resourceVersion := none
  annotations := ⟨none, none, none, none⟩
  spec :=
    { image := "registry.example/shop:1"
      isolation := true
      isolationNetwork := some network }
  status := none

/-- A Project that may reach its link-local network. -/
theorem egressPolicy_admissible_link_local :
    ∃ network policy, network.validate = .ok () ∧ network.egressAllowCidrs ≠ [] ∧
      buildManagedServiceEgressPolicy (isolatedProject network) network = .ok policy ∧
        policy.Admissible ∧ policy.BlocksMetadata := by
  let network : NetworkIsolationSpec := { egressAllowCidrs := ["169.254.0.0/16"] }
  have hcidrs : network.CidrsHoldMetadata := by
    intro _ _ cidr hcidr block hread
    obtain rfl := List.mem_singleton.mp hcidr
    have hall : (readCidr "169.254.0.0/16").all (fun block ↦
        decide (block.prefixLength < 32) && block.contains metadataAddress) = true := by decide
    rw [hread, Option.all_some, Bool.and_eq_true, decide_eq_true_eq] at hall
    exact hall
  have h := (egressPolicy_admissible_iff (rfl : network.validate = .ok ())
    (rfl : buildManagedServiceEgressPolicy (isolatedProject network) network = .ok _)).mpr hcidrs
  exact ⟨network, _, rfl, by decide, rfl, h.1, h.2 rfl⟩

/-- The policy of a Project that may reach a private network is not admitted. -/
theorem egressPolicy_not_admissible :
    ¬ ∀ app network policy, network.validate = .ok () →
      buildManagedServiceEgressPolicy app network = .ok policy →
        policy.Admissible ∧ (network.blockMetadataService = true → policy.BlocksMetadata) := by
  intro h
  let network : NetworkIsolationSpec := { egressAllowCidrs := ["10.0.0.0/8"] }
  obtain ⟨hadmissible, -⟩ := h (isolatedProject network) network _ rfl rfl
  have hblock := hadmissible (externalEgressRule network)
    (List.mem_cons_of_mem _ (List.mem_singleton_self _)) _
    (mem_externalEgressRule_iff.mpr ⟨"10.0.0.0/8", .inr (List.mem_singleton_self _), rfl⟩) _ rfl
  obtain ⟨block, hread, -, hcontains⟩ := admissible_metadata_iff.mp hblock
  have hall : (readCidr "10.0.0.0/8").all (fun block ↦ !block.contains metadataAddress) = true := by
    decide
  rw [hread, Option.all_some, hcontains] at hall
  cases hall

end ReinhardtCloud.Operator

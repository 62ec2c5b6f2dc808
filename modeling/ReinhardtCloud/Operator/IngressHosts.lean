import ReinhardtCloud.Base.HostNames
import ReinhardtCloud.Operator.Types

/-!
# Hosts of Ingresses

Library `Operator`. The two checks a Project's `services.ingress_host` has to pass before its
Ingress is applied (`crates/reinhardt-cloud-operator/src/reconciler.rs:1636–1722`). The first reads
the host as a DNS name, the second compares spellings and stops at the first Ingress that has one.
-/

namespace ReinhardtCloud.Operator

open ReinhardtCloud.Base

/-- `IngressRule`: its host. -/
structure IngressRule where
  host : Option String

/-- `IngressSpec`: its rules. -/
structure IngressSpec where
  rules : Option (List IngressRule)

/-- An `Ingress` of the list: its identity and its rules. -/
structure ListedIngress where
  ns : Option String
  name : String
  spec : Option IngressSpec

/-- How a check of a host fails: the list request does, or `Error::InvalidIngressHost`. -/
inductive IngressHostError where
  | kube (error : ApiError)
  | invalidIngressHost (message : String)
  deriving DecidableEq

/-- `host_matches_allowed_suffix`, `reconciler.rs:1676–1680`. -/
def hostMatchesAllowedSuffix (host suffix : String) : Bool :=
  let host := dnsName host
  let suffix := trimEndMatches '.' suffix
  host = suffix || ('.' :: suffix.toList).isSuffixOf host.toList

/-- `ingress_rule_matches_host`, `reconciler.rs:1718–1722`. -/
def ingressRuleMatchesHost (rule : IngressRule) (host : String) : Bool :=
  rule.host.any fun existing ↦ eqIgnoreAsciiCase existing host

/-- `ingress_claims_host`, `reconciler.rs:1706–1716`. -/
def ingressClaimsHost (ingress : ListedIngress) (host : String) : Bool :=
  (ingress.spec.bind fun spec ↦ spec.rules).any fun rules ↦
    rules.any fun rule ↦ ingressRuleMatchesHost rule host

/-- `ensure_ingress_host_available`, `reconciler.rs:1682–1704`, with the answer to its list
request. -/
def ensureIngressHostAvailable (list : Except ApiError (List ListedIngress)) (app : Project)
    (ns host : String) : Except IngressHostError Unit :=
  match list with
  | .error e => .error (.kube e)
  | .ok existing =>
    match existing.findSome? fun ingress ↦
        if ingressClaimsHost ingress host then some (ingress.ns.getD "", ingress.name)
        else none with
    | some (existingNamespace, existingName) =>
      if existingNamespace ≠ ns ∨ existingName ≠ app.name then
        .error (.invalidIngressHost (s!"services.ingress_host '{host}' is already claimed by " ++
          s!"Ingress {existingNamespace}/{existingName}"))
      else .ok ()
    | none => .ok ()

/-! ## Hosts as DNS names -/

/-- The first check reads a host as a DNS name. -/
theorem hostMatchesAllowedSuffix_of_sameHost {a b : String} (h : SameHost a b) (suffix : String) :
    hostMatchesAllowedSuffix a suffix = hostMatchesAllowedSuffix b suffix := by
  have hname : dnsName a = dnsName b := h
  rw [hostMatchesAllowedSuffix, hostMatchesAllowedSuffix, hname]

/-- A host that is admitted under a DNS name has that name or a longer one. -/
theorem sameHost_or_longer {a b : String} (h : hostMatchesAllowedSuffix b (dnsName a) = true) :
    SameHost a b ∨ (dnsName a).toList.length < (dnsName b).toList.length := by
  rw [hostMatchesAllowedSuffix, trimEndMatches_dnsName, Bool.or_eq_true, decide_eq_true_eq,
    List.isSuffixOf_iff_suffix] at h
  rcases h with hsame | hsuffix
  · exact .inl hsame.symm
  · have hlength := hsuffix.length_le
    rw [List.length_cons] at hlength
    exact .inr hlength

theorem hostMatchesAllowedSuffix_self (a : String) :
    hostMatchesAllowedSuffix a (dnsName a) = true := by
  rw [hostMatchesAllowedSuffix, trimEndMatches_dnsName, decide_eq_true rfl, Bool.true_or]

/-- The spellings that the first check does not tell apart are those of one DNS name. -/
theorem sameHost_iff_allowedAlike (a b : String) :
    SameHost a b ↔
      ∀ suffix, hostMatchesAllowedSuffix a suffix = hostMatchesAllowedSuffix b suffix := by
  refine ⟨hostMatchesAllowedSuffix_of_sameHost, fun halike ↦ ?_⟩
  rcases sameHost_or_longer ((halike (dnsName a)).symm.trans (hostMatchesAllowedSuffix_self a)) with
    hsame | hlonger
  · exact hsame
  · rcases sameHost_or_longer ((halike (dnsName b)).trans (hostMatchesAllowedSuffix_self b)) with
      hsame | hlonger'
    · exact hsame.symm
    · exact absurd hlonger (Nat.lt_asymm hlonger')

/-- A rule of the Ingress has a host like that. -/
def ListedIngress.HasHost (ingress : ListedIngress) (p : String → Prop) : Prop :=
  ∃ spec, ingress.spec = some spec ∧ ∃ rules, spec.rules = some rules ∧
    ∃ rule ∈ rules, ∃ existing, rule.host = some existing ∧ p existing

/-- A rule of the Ingress has the DNS name. -/
def ListedIngress.HasName (ingress : ListedIngress) (host : String) : Prop :=
  ingress.HasHost fun existing ↦ SameHost existing host

/-- A rule of the Ingress spells the host alike up to ASCII case. -/
def ListedIngress.Spells (ingress : ListedIngress) (host : String) : Prop :=
  ingress.HasHost fun existing ↦ eqIgnoreAsciiCase existing host = true

/-- The Ingress is the Project's own. -/
def ListedIngress.OwnOf (ingress : ListedIngress) (app : Project) (ns : String) : Prop :=
  ingress.ns.getD "" = ns ∧ ingress.name = app.name

/-- No other Ingress has the DNS name. -/
def HostFree (existing : List ListedIngress) (app : Project) (ns host : String) : Prop :=
  ∀ ingress ∈ existing, ingress.HasName host → ingress.OwnOf app ns

/-- Another's Ingress spells the host alike, and before it in the list the Project's own does
not. -/
def SpelledBeforeOwn (existing : List ListedIngress) (app : Project) (ns host : String) : Prop :=
  ∃ before ingress after, existing = before ++ ingress :: after ∧ ingress.Spells host ∧
    ¬ ingress.OwnOf app ns ∧ ∀ own ∈ before, own.OwnOf app ns → ¬ own.Spells host

variable {existing : List ListedIngress} {app : Project} {ns host : String}
  {ingress : ListedIngress}

theorem ListedIngress.HasHost.mono {p q : String → Prop} (h : ingress.HasHost p)
    (hpq : ∀ existing, p existing → q existing) : ingress.HasHost q := by
  obtain ⟨spec, hspec, rules, hrules, rule, hmem, spelling, hspelling, hp⟩ := h
  exact ⟨spec, hspec, rules, hrules, rule, hmem, spelling, hspelling, hpq _ hp⟩

/-- What the second check looks for are spellings. -/
theorem ingressClaimsHost_iff : ingressClaimsHost ingress host = true ↔ ingress.Spells host := by
  constructor
  · intro h
    obtain ⟨rules, hrules, hany⟩ := (Option.any_eq_true _ _).mp h
    obtain ⟨spec, hspec, hrules⟩ := Option.bind_eq_some_iff.mp hrules
    obtain ⟨rule, hmem, hmatch⟩ := List.any_eq_true.mp hany
    obtain ⟨spelling, hspelling, heq⟩ := (Option.any_eq_true _ _).mp hmatch
    exact ⟨spec, hspec, rules, hrules, rule, hmem, spelling, hspelling, heq⟩
  · rintro ⟨spec, hspec, rules, hrules, rule, hmem, spelling, hspelling, heq⟩
    refine (Option.any_eq_true _ _).mpr ⟨rules, Option.bind_eq_some_iff.mpr ⟨spec, hspec, hrules⟩,
      List.any_eq_true.mpr ⟨rule, hmem, ?_⟩⟩
    exact (Option.any_eq_true _ _).mpr ⟨spelling, hspelling, heq⟩

/-- The search for a spelling stops at the first Ingress that has it. -/
theorem findSome?_claims :
    (existing.findSome? fun ingress ↦
      if ingressClaimsHost ingress host then some (ingress.ns.getD "", ingress.name) else none) =
    (existing.find? fun ingress ↦ ingressClaimsHost ingress host).map
      fun ingress ↦ (ingress.ns.getD "", ingress.name) := by
  induction existing with
  | nil => rfl
  | cons ingress rest ih =>
    rw [List.findSome?_cons, List.find?_cons]
    by_cases hclaims : ingressClaimsHost ingress host = true
    · simp only [hclaims, ↓reduceIte, Option.map_some]
    · simp only [hclaims, Bool.false_eq_true, ↓reduceIte]
      exact ih

/-- It stops at another's Ingress exactly when such an Ingress is before the Project's own. -/
theorem find?_claims_iff :
    (∃ ingress, existing.find? (fun ingress ↦ ingressClaimsHost ingress host) = some ingress ∧
      ¬ ingress.OwnOf app ns) ↔ SpelledBeforeOwn existing app ns host := by
  constructor
  · rintro ⟨ingress, hfind, hother⟩
    obtain ⟨hclaims, before, after, hsplit, hbefore⟩ := List.find?_eq_some_iff_append.mp hfind
    refine ⟨before, ingress, after, hsplit, ingressClaimsHost_iff.mp hclaims, hother, ?_⟩
    intro own hown _ hspells
    have hnot := hbefore own hown
    rw [ingressClaimsHost_iff.mpr hspells] at hnot
    cases hnot
  · rintro ⟨before, ingress, after, rfl, hspells, hother, hbefore⟩
    rw [List.find?_append]
    cases hfirst : before.find? fun ingress ↦ ingressClaimsHost ingress host with
    | none =>
      rw [Option.none_or, List.find?_cons, ingressClaimsHost_iff.mpr hspells]
      exact ⟨ingress, rfl, hother⟩
    | some first =>
      -- Whose spelling comes first is not the Project's.
      have hclaims := List.find?_some (p := fun ingress ↦ ingressClaimsHost ingress host) hfirst
      exact ⟨first, rfl, fun hown ↦ hbefore first (List.mem_of_find?_eq_some hfirst) hown
        (ingressClaimsHost_iff.mp hclaims)⟩

/-- The check fails exactly when another's spelling comes before the Project's own. -/
theorem ensureIngressHostAvailable_ok_iff :
    ensureIngressHostAvailable (.ok existing) app ns host = .ok () ↔
      ¬ SpelledBeforeOwn existing app ns host := by
  rw [← find?_claims_iff]
  unfold ensureIngressHostAvailable
  dsimp only
  rw [findSome?_claims]
  cases existing.find? fun ingress ↦ ingressClaimsHost ingress host with
  | none => simp only [Option.map_none, reduceCtorEq, false_and, exists_false, not_false_eq_true]
  | some ingress =>
    simp only [Option.map_some, Option.some.injEq]
    by_cases hown : ingress.OwnOf app ns
    · have hnot : ¬ (ingress.ns.getD "" ≠ ns ∨ ingress.name ≠ app.name) := by
        rintro (h | h)
        · exact h hown.1
        · exact h hown.2
      rw [if_neg hnot]
      refine iff_of_true rfl ?_
      rintro ⟨_, rfl, h⟩
      exact h hown
    · have hother : ingress.ns.getD "" ≠ ns ∨ ingress.name ≠ app.name := by
        by_contra h
        rw [not_or, not_not, not_not] at h
        exact hown h
      rw [if_pos hother]
      refine iff_of_false (fun h ↦ nomatch h) fun h ↦ h ⟨ingress, rfl, hown⟩

/-- A spelling is of the DNS name. -/
theorem not_hostFree_of_spelled (h : SpelledBeforeOwn existing app ns host) :
    ¬ HostFree existing app ns host := by
  obtain ⟨before, ingress, after, rfl, hspells, hother, -⟩ := h
  intro hfree
  exact hother (hfree ingress (List.mem_append_right _ List.mem_cons_self)
    (hspells.mono fun _ ↦ sameHost_of_eqIgnoreAsciiCase))

/-- The check admits exactly the hosts that no other Ingress has when, whenever another Ingress has
the DNS name, one of another's spells it alike and is listed before the Project's own. -/
theorem ingress_host_available_iff (existing : List ListedIngress) (app : Project)
    (ns host : String) :
    (ensureIngressHostAvailable (.ok existing) app ns host = .ok () ↔
        HostFree existing app ns host) ↔
      ((∃ ingress ∈ existing, ingress.HasName host ∧ ¬ ingress.OwnOf app ns) →
        SpelledBeforeOwn existing app ns host) := by
  rw [ensureIngressHostAvailable_ok_iff]
  constructor
  · rintro h ⟨ingress, hmem, hname, hother⟩
    by_contra hfirst
    exact hother (h.mp hfirst ingress hmem hname)
  · intro h
    constructor
    · intro hfirst ingress hmem hname
      by_contra hother
      exact hfirst (h ⟨ingress, hmem, hname, hother⟩)
    · intro hfree hfirst
      exact not_hostFree_of_spelled hfirst hfree

/-- A Project with a host. -/
def shopWithHost : Project where
  name := "shop"
  ns := some "team"
  uid := some 7
  resourceVersion := some 1
  annotations := ⟨none, none, none, none⟩
  spec := { image := "shop:1", ingressHost := some "shop.example.com" }
  status := none

/-- Its own Ingress and another's with the same host. -/
def twoClaims : List ListedIngress :=
  [⟨some "team", "shop", some ⟨some [⟨some "shop.example.com"⟩]⟩⟩,
    ⟨some "other", "store", some ⟨some [⟨some "shop.example.com"⟩]⟩⟩]

/-- With the other one first the check finds the host taken, whatever its case. -/
theorem ingress_host_available_reversed :
    (ensureIngressHostAvailable (.ok twoClaims.reverse) shopWithHost "team" "SHOP.example.com" =
        .ok () ↔
      HostFree twoClaims.reverse shopWithHost "team" "SHOP.example.com") ∧
      ¬ HostFree twoClaims.reverse shopWithHost "team" "SHOP.example.com" := by
  have hspelled : SpelledBeforeOwn twoClaims.reverse shopWithHost "team" "SHOP.example.com" :=
    ⟨[], _, _, rfl, ⟨_, rfl, _, rfl, _, List.mem_cons_self, _, rfl, by decide⟩,
      fun hown ↦ absurd hown.2 (by decide), fun _ hown ↦ absurd hown List.not_mem_nil⟩
  exact ⟨(ingress_host_available_iff _ _ _ _).mpr fun _ ↦ hspelled,
    not_hostFree_of_spelled hspelled⟩

/-- The own Ingress hides the other one, unless that comes first; and a dot at the end, which the
first check does not see, hides both. -/
theorem ingress_host_hidden :
    ¬ (ensureIngressHostAvailable (.ok twoClaims) shopWithHost "team" "shop.example.com" =
          .ok () ↔
        HostFree twoClaims shopWithHost "team" "shop.example.com") ∧
      ensureIngressHostAvailable (.ok twoClaims.reverse) shopWithHost "team" "shop.example.com" ≠
        .ok () ∧
      (∀ suffix, hostMatchesAllowedSuffix "shop.example.com" suffix =
        hostMatchesAllowedSuffix "shop.example.com." suffix) ∧
      ensureIngressHostAvailable (.ok twoClaims) shopWithHost "team" "shop.example.com." =
        .ok () := by
  have hother : ¬ HostFree twoClaims shopWithHost "team" "shop.example.com" := by
    intro hfree
    have hname : ListedIngress.HasName
        ⟨some "other", "store", some ⟨some [⟨some "shop.example.com"⟩]⟩⟩ "shop.example.com" :=
      ⟨_, rfl, _, rfl, _, List.mem_cons_self, _, rfl, .refl _⟩
    have hown := hfree _ (List.mem_cons_of_mem _ List.mem_cons_self) hname
    exact absurd hown.2 (by decide)
  exact ⟨fun h ↦ hother (h.mp rfl), fun h ↦ (nomatch h),
    (sameHost_iff_allowedAlike _ _).mp (by decide +kernel), rfl⟩

end ReinhardtCloud.Operator

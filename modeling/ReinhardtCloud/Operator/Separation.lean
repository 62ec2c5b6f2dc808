import ReinhardtCloud.Operator.Operations
import Mathlib.Data.List.Infix

/-!
# When two Projects of one namespace stay apart

Library `Operator`. Object names are the Project's name with a suffix. Two Projects clash
exactly when one name is the other's name with the suffix of an auxiliary Deployment or Service,
because no other suffix of one kind ends with another one; and an operation that does not
check the owner reaches whatever is stored under its name.
-/

namespace ReinhardtCloud.Operator

/-- The kinds whose objects belong to one Project. -/
def ObjectKind.protected : ObjectKind → Bool
  | .serviceAccount | .persistentVolumeClaim | .dynamic _ => false
  | _ => true

/-- Whether an access only touches objects controlled by the Project. -/
def Access.checksOwner : Access → Bool
  | .applyIfControlled | .applyServiceAccount | .rollIfControlled | .deleteServiceAccount => true
  | _ => false

section Projects

variable (sha256 : List UInt8 → List UInt8) (platform : Platform) (ns : String)
variable (P Q : Project) (s : Cluster)

/-- Kinds and suffixes of the objects `apply` creates for a Project. -/
def createdNames : List (ObjectKind × String) :=
  (onlyIf (tenantAccepted Q ns) (projectOperations platform Q)).filterMap fun op ↦
    match op.name with
    | .suffixed suffix => if op.access.creates then some (op.kind, suffix) else none
    | .fixed _ => none

/-- `apply` creates the object for the Project. -/
def Creates (kind : ObjectKind) (name : String) : Prop :=
  ∃ suffix, (kind, suffix) ∈ createdNames platform ns Q ∧ name = Q.name ++ suffix

/-- The object is stored and carries a controller reference to the Project. -/
def ControlledBy (kind : ObjectKind) (name : String) : Prop :=
  ∃ o, s.object kind name = some o ∧ existingResourceIsControlledByProject o Q = true

/-- No write of `apply(P)` and no delete of `cleanup(P)` targets an object of `Q`. -/
def NoInterference : Prop :=
  ∀ op ∈ issued sha256 P s (applyOperations platform P ns) ++
      issued sha256 P s (cleanupOperations P), op.kind.protected →
    ¬ Creates platform ns Q op.kind (op.name.resolve P.name) ∧
      ¬ ControlledBy Q s op.kind (op.name.resolve P.name)

/-- An operation that its own check admits, with no refusal before it. -/
def ReachedIn (ops : List Operation) (op : Operation) : Prop :=
  ∃ before after, ops = before ++ op :: after ∧
    (∀ o ∈ before, o.verdict sha256 P s ≠ .refuse) ∧ op.verdict sha256 P s = .issue

/-- An operation of `apply(P)` or `cleanup(P)` that the cluster lets the code reach. -/
def Reached (op : Operation) : Prop :=
  ReachedIn sha256 P s (applyOperations platform P ns) op ∨
    ReachedIn sha256 P s (cleanupOperations P) op

/-- The condition under which `P` stays apart from `Q`. -/
structure Separated : Prop where
  /-- What `P` reaches without an owner check is not controlled by `Q`. -/
  unowned : ∀ op, Reached sha256 platform ns P s op → op.kind.protected →
    op.access.checksOwner = false → ¬ ControlledBy Q s op.kind (op.name.resolve P.name)
  /-- `Q` is not named like an auxiliary Deployment or Service that `P` reaches. -/
  auxiliary : ∀ kind suffix access,
    Reached sha256 platform ns P s ⟨kind, .suffixed suffix, access⟩ →
    kind = .deployment ∨ kind = .service → suffix ≠ "" → tenantAccepted Q ns →
    Q.name ≠ P.name ++ suffix
  /-- `P` does not reach its own object where it is named like an auxiliary object of `Q`. -/
  main : ∀ kind suffix access, Reached sha256 platform ns P s ⟨kind, .suffixed "", access⟩ →
    kind = .deployment ∨ kind = .service → suffix ≠ "" →
    (kind, suffix) ∈ createdNames platform ns Q → P.name ≠ Q.name ++ suffix

end Projects

variable {sha256 : List UInt8 → List UInt8} {platform : Platform} {ns : String}
  {P Q : Project} {s : Cluster}

/-- What a run issues are the operations it reaches. -/
theorem mem_issued_iff {ops : List Operation} {op : Operation} :
    op ∈ issued sha256 P s ops ↔ ReachedIn sha256 P s ops op := by
  induction ops with
  | nil =>
    constructor
    · intro h
      cases h
    · rintro ⟨before, after, h, -, -⟩
      simp at h
  | cons o rest ih =>
    have htail : o.verdict sha256 P s ≠ .refuse →
        ReachedIn sha256 P s rest op → ReachedIn sha256 P s (o :: rest) op := by
      rintro ho ⟨before, after, rfl, hb, hv⟩
      exact ⟨o :: before, after, rfl, List.forall_mem_cons.mpr ⟨ho, hb⟩, hv⟩
    have hcons : ReachedIn sha256 P s (o :: rest) op →
        (op = o ∧ o.verdict sha256 P s = .issue) ∨
          (o.verdict sha256 P s ≠ .refuse ∧ ReachedIn sha256 P s rest op) := by
      rintro ⟨before, after, h, hb, hv⟩
      cases before with
      | nil =>
        obtain ⟨rfl, -⟩ := List.cons.inj h
        exact Or.inl ⟨rfl, hv⟩
      | cons b before =>
        obtain ⟨rfl, rfl⟩ := List.cons.inj h
        obtain ⟨ho, hb⟩ := List.forall_mem_cons.mp hb
        exact Or.inr ⟨ho, before, after, rfl, hb, hv⟩
    simp only [issued]
    split
    · next hv =>
      rw [List.mem_cons, ih]
      constructor
      · rintro (rfl | h)
        · exact ⟨[], rest, rfl, by simp, hv⟩
        · exact htail (by simp [hv]) h
      · intro h
        exact (hcons h).imp (fun h ↦ h.1) fun h ↦ h.2
    · next hv =>
      rw [ih]
      constructor
      · exact htail (by simp [hv])
      · intro h
        rcases hcons h with ⟨-, h⟩ | ⟨-, h⟩
        · simp [hv] at h
        · exact h
    · next hv =>
      constructor
      · intro h
        cases h
      · intro h
        rcases hcons h with ⟨-, h⟩ | ⟨h, -⟩
        · simp [hv] at h
        · exact absurd hv h

theorem noInterference_iff_reached :
    NoInterference sha256 platform ns P Q s ↔
      ∀ op, Reached sha256 platform ns P s op → op.kind.protected →
        ¬ Creates platform ns Q op.kind (op.name.resolve P.name) ∧
          ¬ ControlledBy Q s op.kind (op.name.resolve P.name) := by
  simp only [NoInterference, List.mem_append, mem_issued_iff, Reached]

/-! ## Names -/

/-- The suffixes `apply` and `cleanup` put behind a Project's name. -/
def ObjectKind.suffixes : ObjectKind → List String
  | .deployment => ["", "-redis", "-worker"]
  | .service => ["", "-redis", "-grpc", "-postgresql", "-db"]
  | .ingress | .horizontalPodAutoscaler => [""]
  | .statefulSet => ["-postgresql", "-db"]
  | .networkPolicy => ["-deny-all", "-allow-ingress", "-allow-egress"]
  | .limitRange => ["-limits"]
  | .configMap => ["-dentdelion-plugins", "-locales", "-db-init"]
  | .secret => ["-redis-credentials", "-core-secret-key", "-jwt-secret", "-db-credentials",
      "-smtp-credentials", "-git-credentials", "-github-git-credentials"]
  | _ => []

/-- Operations on protected kinds use the Project's name with a known suffix; only `cleanup`
uses the names of the Git credentials. -/
def Operation.wellNamed (op : Operation) : Bool :=
  !op.kind.protected ||
    match op.name with
    | .suffixed suffix => op.kind.suffixes.contains suffix &&
        (!op.access.creates || !(["-git-credentials", "-github-git-credentials"].contains suffix))
    | .fixed _ => false

private theorem forall_onlyIf {p : Operation → Bool} {c : Bool} {ops : List Operation}
    (h : ∀ op ∈ ops, p op = true) : ∀ op ∈ onlyIf c ops, p op = true := by
  cases c with
  | true => exact h
  | false => simp [onlyIf]

private theorem wellNamed_infer (platform : Platform) (engine : DatabaseEngine) :
    ∀ op ∈ inferDatabaseResources platform engine, op.wellNamed = true := by
  cases platform <;> cases engine <;> decide

private theorem wellNamed_database :
    ∀ op ∈ databaseOperations platform P, op.wellNamed = true := by
  simp only [databaseOperations]
  split
  · exact wellNamed_infer _ _
  · exact forall_onlyIf (by decide)

theorem wellNamed_project : ∀ op ∈ projectOperations platform P, op.wellNamed = true := by
  simp only [projectOperations, List.forall_mem_append]
  refine ⟨⟨⟨⟨⟨⟨⟨⟨⟨⟨⟨⟨⟨⟨⟨?_, ?_⟩, ?_⟩, ?_⟩, ?_⟩, ?_⟩, ?_⟩, ?_⟩, ?_⟩, ?_⟩, ?_⟩, ?_⟩, ?_⟩, ?_⟩, ?_⟩,
    ?_⟩
  case refine_5 => exact forall_onlyIf (by simp [Operation.wellNamed, ObjectKind.protected])
  case refine_7 => exact wellNamed_database
  all_goals first | exact forall_onlyIf (by decide) | decide

theorem wellNamed_cleanup : ∀ op ∈ cleanupOperations P, op.wellNamed = true := by
  simp only [cleanupOperations, List.forall_mem_append]
  exact ⟨by decide, forall_onlyIf (by decide)⟩

/-- Two suffixes of one kind end alike only if one is empty, and only for Deployments and
Services. -/
private theorem suffixes_disjoint (kind : ObjectKind) : ∀ a ∈ kind.suffixes, ∀ b ∈ kind.suffixes,
    b ≠ "-git-credentials" → b ≠ "-github-git-credentials" → a ≠ b →
    a.toList <:+ b.toList ∨ b.toList <:+ a.toList →
      (kind = .deployment ∨ kind = .service) ∧ (a = "" ∧ b ≠ "" ∨ a ≠ "" ∧ b = "") := by
  cases kind with
  | dynamic k => simp [ObjectKind.suffixes]
  | _ => decide

private theorem suffix_of_append_eq {p q a b : String} (h : p ++ a = q ++ b) :
    a.toList <:+ b.toList ∨ b.toList <:+ a.toList := by
  have hl : p.toList ++ a.toList = q.toList ++ b.toList := by
    simpa using congrArg String.toList h
  exact List.suffix_or_suffix_of_suffix ⟨p.toList, hl⟩ ⟨q.toList, rfl⟩

private theorem append_right_cancel {p q a : String} (h : p ++ a = q ++ a) : p = q := by
  have hl : p.toList ++ a.toList = q.toList ++ a.toList := by
    simpa using congrArg String.toList h
  exact String.toList_inj.mp (List.append_cancel_right hl)

/-- What `apply` creates for a Project carries a known suffix, never one of the Git Secrets'. -/
theorem suffix_of_mem_createdNames {kind : ObjectKind} {suffix : String}
    (hk : kind.protected = true) (h : (kind, suffix) ∈ createdNames platform ns Q) :
    tenantAccepted Q ns = true ∧ suffix ∈ kind.suffixes ∧ suffix ≠ "-git-credentials" ∧
      suffix ≠ "-github-git-credentials" := by
  obtain ⟨op, hop, hname⟩ := List.mem_filterMap.mp h
  cases ht : tenantAccepted Q ns with
  | false => simp [onlyIf, ht] at hop
  | true =>
    simp only [onlyIf, ht, if_true] at hop
    have hw := wellNamed_project op hop
    obtain ⟨k, name, access⟩ := op
    cases name with
    | fixed n => simp at hname
    | suffixed a =>
      simp only [Option.ite_none_right_eq_some, Option.some.injEq, Prod.mk.injEq] at hname
      obtain ⟨hc, rfl, rfl⟩ := hname
      simp only [Operation.wellNamed, hk, hc, Bool.not_true, Bool.false_or, Bool.and_eq_true,
        List.contains_eq_mem, decide_eq_true_eq, Bool.not_eq_true', decide_eq_false_iff_not,
        List.mem_cons, List.not_mem_nil, or_false, not_or] at hw
      exact ⟨rfl, hw⟩

/-- A Project's own Deployment and Service are created whatever its spec. -/
theorem main_mem_createdNames {kind : ObjectKind} (hk : kind = .deployment ∨ kind = .service)
    (ht : tenantAccepted Q ns = true) : (kind, "") ∈ createdNames platform ns Q := by
  have hop : named kind "" .applyIfControlled ∈ projectOperations platform Q := by
    rcases hk with rfl | rfl <;> simp [projectOperations]
  refine List.mem_filterMap.mpr ⟨named kind "" .applyIfControlled, ?_, rfl⟩
  simpa [onlyIf, ht] using hop

/-- Where two different Projects' names meet: one main object, one auxiliary one. -/
theorem clash_cases {kind : ObjectKind} {a b : String} (hk : kind.protected = true)
    (hname : P.name ≠ Q.name) (ha : a ∈ kind.suffixes)
    (hb : (kind, b) ∈ createdNames platform ns Q) (h : P.name ++ a = Q.name ++ b) :
    (kind = .deployment ∨ kind = .service) ∧
      (a = "" ∧ b ≠ "" ∧ P.name = Q.name ++ b ∨ a ≠ "" ∧ b = "" ∧ Q.name = P.name ++ a) := by
  obtain ⟨-, hmem, hgit, hgithub⟩ := suffix_of_mem_createdNames hk hb
  have hne : a ≠ b := by
    rintro rfl
    exact hname (append_right_cancel h)
  obtain ⟨hkind, hab⟩ :=
    suffixes_disjoint kind a ha b hmem hgit hgithub hne (suffix_of_append_eq h)
  refine ⟨hkind, hab.imp ?_ ?_⟩
  · rintro ⟨rfl, hb⟩
    exact ⟨rfl, hb, by simpa using h⟩
  · rintro ⟨ha, rfl⟩
    exact ⟨ha, rfl, by simpa using h.symm⟩

/-- The tenant's policies are nobody's objects. -/
private theorem not_creates_tenant {op : Operation} (hop : op ∈ tenantOperations) :
    ¬ Creates platform ns Q op.kind (op.name.resolve P.name) := by
  rintro ⟨b, hb, he⟩
  have hdisjoint : ∀ o ∈ tenantOperations, o.kind.protected = true ∧
      ∃ n, o.name = .fixed n ∧ ∀ b ∈ o.kind.suffixes, ¬ b.toList <:+ n.toList := by
    simp only [tenantOperations, List.forall_mem_cons]
    refine ⟨⟨rfl, _, rfl, by decide⟩, ⟨rfl, _, rfl, by decide⟩, ⟨rfl, _, rfl, by decide⟩, ?_⟩
    simp
  obtain ⟨hk, n, hn, hall⟩ := hdisjoint op hop
  obtain ⟨-, hmem, -⟩ := suffix_of_mem_createdNames hk hb
  refine hall b hmem ⟨Q.name.toList, ?_⟩
  rw [hn] at he
  simpa [ObjectName.resolve] using congrArg String.toList he.symm

/-- An operation of `apply` or `cleanup` is on a tenant policy or on a named object. -/
theorem mem_tenant_or_wellNamed {op : Operation} (h : Reached sha256 platform ns P s op) :
    op ∈ tenantOperations ∨ op.wellNamed = true := by
  rcases h with ⟨before, after, h, -⟩ | ⟨before, after, h, -⟩
  · have hmem : op ∈ applyOperations platform P ns := by simp [h]
    simp only [applyOperations, onlyIf] at hmem
    split at hmem
    · rcases List.mem_append.mp hmem with hmem | hmem
      · split at hmem
        · exact Or.inl hmem
        · cases hmem
      · exact Or.inr (wellNamed_project op hmem)
    · cases hmem
  · have hmem : op ∈ cleanupOperations P := by simp [h]
    exact Or.inr (wellNamed_cleanup op hmem)

/-! ## Owners -/

/-- An object controlled by one Project is not controlled by another. -/
theorem not_controlledBy_of_controlled {o : Object} {kind : ObjectKind} {name : String}
    (huid : P.uid ≠ Q.uid) (ho : s.object kind name = some o)
    (hP : existingResourceIsControlledByProject o P = true) : ¬ ControlledBy Q s kind name := by
  rintro ⟨o', ho', hQ⟩
  obtain rfl := Option.some.inj (ho.symm.trans ho')
  cases hu : P.uid with
  | none => simp [existingResourceIsControlledByProject, hu] at hP
  | some u =>
    cases hv : Q.uid with
    | none => simp [existingResourceIsControlledByProject, hv] at hQ
    | some v =>
      simp only [existingResourceIsControlledByProject, hu, hv, List.any_eq_true, Bool.and_eq_true,
        decide_eq_true_eq] at hP hQ
      obtain ⟨r, hr, rfl, hc⟩ := hP
      obtain ⟨r', hr', rfl, hc'⟩ := hQ
      exact huid (by rw [hu, hv, s.single_controller kind name o ho r hr r' hr' hc hc'])

private theorem controlled_of_serviceAccountIsOwned {o : Object}
    (h : serviceAccountIsOwned o P = true) : existingResourceIsControlledByProject o P = true := by
  cases hu : P.uid with
  | none => simp [serviceAccountIsOwned, hu] at h
  | some u =>
    simp only [serviceAccountIsOwned, hu, List.any_eq_true, Bool.and_eq_true] at h
    simp only [existingResourceIsControlledByProject, hu, List.any_eq_true, Bool.and_eq_true]
    obtain ⟨r, hr, ⟨hu, -⟩, hc⟩ := h
    exact ⟨r, hr, hu, hc⟩

/-- An operation that checks the owner does not touch another Project's object. -/
theorem not_controlledBy_of_checksOwner {op : Operation} (huid : P.uid ≠ Q.uid)
    (hc : op.access.checksOwner = true) (hv : op.verdict sha256 P s = .issue) :
    ¬ ControlledBy Q s op.kind (op.name.resolve P.name) := by
  cases ho : s.object op.kind (op.name.resolve P.name) with
  | none =>
    rintro ⟨o, ho', -⟩
    rw [ho] at ho'
    cases ho'
  | some o =>
    refine not_controlledBy_of_controlled huid ho ?_
    simp only [Operation.verdict, ho, Operation.onExisting] at hv
    obtain ⟨kind, name, access⟩ := op
    cases access with
    | applyIfControlled =>
      dsimp only at hv
      split at hv
      · assumption
      · cases hv
    | rollIfControlled =>
      dsimp only at hv
      split at hv
      · split at hv
        · next h => exact (Bool.and_eq_true _ _ ▸ h).1
        · cases hv
      · cases hv
    | applyServiceAccount | deleteServiceAccount =>
      dsimp only at hv
      split at hv
      · next h => exact controlled_of_serviceAccountIsOwned h
      · cases hv
    | _ => cases hc

/-- For two different Projects of one namespace: `P` touches no object of `Q` exactly when the
two are separated in the cluster. -/
theorem noInterference_iff_separated (hname : P.name ≠ Q.name) (huid : P.uid ≠ Q.uid) :
    NoInterference sha256 platform ns P Q s ↔ Separated sha256 platform ns P Q s := by
  rw [noInterference_iff_reached]
  constructor
  · intro h
    refine ⟨fun op hr hk _ ↦ (h op hr hk).2, ?_, ?_⟩
    · intro kind suffix access hr hkind _ ht hq
      have hk : kind.protected = true := by rcases hkind with rfl | rfl <;> rfl
      refine (h _ hr hk).1 ⟨"", main_mem_createdNames hkind ht, ?_⟩
      simpa [ObjectName.resolve] using hq.symm
    · intro kind suffix access hr hkind _ hmem hp
      have hk : kind.protected = true := by rcases hkind with rfl | rfl <;> rfl
      refine (h _ hr hk).1 ⟨suffix, hmem, ?_⟩
      simpa [ObjectName.resolve] using hp
  · intro h op hr hk
    have hw := mem_tenant_or_wellNamed hr
    refine ⟨?_, ?_⟩
    · rintro ⟨b, hb, he⟩
      rcases hw with htenant | hw
      · exact not_creates_tenant htenant ⟨b, hb, he⟩
      · obtain ⟨kind, name, access⟩ := op
        cases name with
        | fixed n => simp_all [Operation.wellNamed]
        | suffixed a =>
          have ha : a ∈ kind.suffixes := by
            simp only [Operation.wellNamed, hk, Bool.not_true, Bool.false_or, Bool.and_eq_true,
              List.contains_eq_mem, decide_eq_true_eq] at hw
            exact hw.1
          obtain ⟨hkind, hab⟩ := clash_cases hk hname ha hb he
          rcases hab with ⟨rfl, hb', hp⟩ | ⟨ha', rfl, hq⟩
          · exact h.main kind b access hr hkind hb' hb hp
          · exact h.auxiliary kind a access hr hkind ha' (suffix_of_mem_createdNames hk hb).1 hq
    · cases hc : op.access.checksOwner with
      | false => exact h.unowned op hr hk hc
      | true =>
        have hv : op.verdict sha256 P s = .issue := by
          rcases hr with ⟨_, _, _, _, hv⟩ | ⟨_, _, _, _, hv⟩ <;> exact hv
        exact not_controlledBy_of_checksOwner huid hc hv

/-- A Project with a cache. -/
def shop : Project :=
  { name := "shop", ns := some "team", uid := some 1, resourceVersion := some 1,
    annotations := ⟨none, none, none, none⟩, spec := { image := "shop:1", cache := true },
    status := none }

/-- A Project that is named like the cache of `shop`. -/
def shopRedis : Project :=
  { shop with name := "shop-redis", uid := some 2, spec := { image := "redis:7" } }

/-- The Deployment of `shopRedis` is stored. -/
def shopRedisDeployed : Cluster where
  object kind name :=
    if kind = .deployment ∧ name = "shop-redis" then
      some (.resource [⟨"Project", 2, some true⟩] none)
    else none
  single_controller := by
    intro kind name o ho r hr r' hr' _ _
    split at ho
    · obtain rfl := Option.some.inj ho
      rw [List.mem_singleton.mp hr, List.mem_singleton.mp hr']
    · cases ho

private theorem shop_writes_shopRedis :
    ¬ NoInterference id .onpremise "team" shop shopRedis shopRedisDeployed := by
  intro h
  have hmem : named .deployment "-redis" .forceApply ∈
      issued id shop shopRedisDeployed (applyOperations .onpremise shop "team") ++
        issued id shop shopRedisDeployed (cleanupOperations shop) := by decide
  exact (h _ hmem rfl).2 ⟨.resource [⟨"Project", 2, some true⟩] none, rfl, rfl⟩

/-- Two Projects of one namespace do not always stay apart: the cache Deployment of `shop` is
applied over the Deployment of `shop-redis`. -/
theorem apply_overwrites_other_project :
    ¬ ∀ (sha256 : List UInt8 → List UInt8) (platform : Platform) (ns : String) (P Q : Project)
      (s : Cluster), P.name ≠ Q.name → P.uid ≠ Q.uid → NoInterference sha256 platform ns P Q s :=
  fun h ↦ shop_writes_shopRedis (h _ _ _ _ _ _ (by decide) (by decide))

/-- `shop` and `shop-redis` are not separated while the latter is deployed. -/
theorem noInterference_iff_separated_shop :
    shop.name ≠ shopRedis.name ∧ shop.uid ≠ shopRedis.uid ∧
      ¬ Separated id .onpremise "team" shop shopRedis shopRedisDeployed :=
  ⟨by decide, by decide, fun h ↦ shop_writes_shopRedis
    ((noInterference_iff_separated (by decide) (by decide)).mpr h)⟩

end ReinhardtCloud.Operator

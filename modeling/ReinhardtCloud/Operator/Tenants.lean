import ReinhardtCloud.Base.HostNames
import ReinhardtCloud.Base.Names
import ReinhardtCloud.Operator.Operations

/-!
# Tenant namespaces

Library `Operator`. `TenantRef::{namespace, validate}`
(`crates/reinhardt-cloud-types/src/crd/tenant.rs`) and `validate_tenant_namespace`
(`crates/reinhardt-cloud-operator/src/reconciler.rs:2427–2454`): which namespace a tenant's
Projects are accepted in, and which tenants share one.
-/

namespace ReinhardtCloud.Operator

open ReinhardtCloud.Base

/-- `validate_dns_1123_label`, `validation.rs:41–70`, with its messages. -/
def validateDns1123Label (value : String) : Except String Unit :=
  let chars := value.toList
  if chars.isEmpty then .error "must not be empty"
  else if 63 < value.utf8ByteSize then
    .error s!"must be at most 63 characters, got {value.utf8ByteSize}"
  else if !chars.head?.any isDns1123Alphanumeric then
    .error "must start with a lowercase alphanumeric character"
  else if !chars.getLast?.any isDns1123Alphanumeric then
    .error "must end with a lowercase alphanumeric character"
  else if !chars.all fun c ↦ isDns1123Alphanumeric c || c = '-' then
    .error "must contain only lowercase alphanumeric characters and hyphens"
  else .ok ()

/-- The message of a failed check, after the field it names. -/
def fieldErrors (field : String) : Except String Unit → List String
  | .ok () => []
  | .error message => [s!"{field} {message}"]

/-- The errors of the two slugs, `tenant.rs:75–86`. -/
def TenantRef.slugErrors (tenant : TenantRef) : List String :=
  fieldErrors "tenant.organization" (validateDns1123Label tenant.organization) ++
    match tenant.team with
    | some team => fieldErrors "tenant.team" (validateDns1123Label team)
    | none => []

/-- The error of the composed namespace, `tenant.rs:92–100`. -/
def TenantRef.namespaceErrors (tenant : TenantRef) : List String :=
  match validateDns1123Label tenant.computedNamespace with
  | .ok () => []
  | .error message => [s!"tenant namespace {message} ({tenant.computedNamespace})"]

/-- `TenantRef::validate`, `tenant.rs:72–107`. -/
def TenantRef.validate (tenant : TenantRef) : Except (List String) Unit :=
  let errors := if tenant.slugErrors.isEmpty then tenant.namespaceErrors else tenant.slugErrors
  if errors.isEmpty then .ok () else .error errors

/-- The errors of `validate_tenant_namespace`, `error.rs`. -/
inductive TenantError where
  | invalidTenant (detail : String)
  | tenantMismatch (expected actual : String)
  | namespaceNotProvisioned (ns : String)
  deriving DecidableEq

/-- `validate_tenant_namespace`, `reconciler.rs:2427–2454`. -/
def validateTenantNamespace (app : Project) (actual : String) :
    Except TenantError (Option String) :=
  match app.spec.tenant with
  | none => .ok none
  | some tenant =>
    match tenant.validate with
    | .error errors => .error (.invalidTenant ("; ".intercalate errors))
    | .ok () =>
      if tenant.computedNamespace = actual then .ok (some tenant.computedNamespace)
      else .error (.tenantMismatch tenant.computedNamespace actual)

/-! ## What validation accepts -/

theorem validateDns1123Label_eq_ok_iff {value : String} :
    validateDns1123Label value = .ok () ↔ isDns1123Label value = true := by
  unfold validateDns1123Label isDns1123Label
  grind

/-- A character of a DNS-1123 label. -/
def IsLabelChar (c : Char) : Prop := isDns1123Alphanumeric c = true ∨ c = '-'

theorem toNat_le_of_isLabelChar {c : Char} (h : IsLabelChar c) : c.val.toNat ≤ 127 := by
  rcases h with h | rfl
  · have hc := isDns1123Alphanumeric_iff.mp h
    show c.toNat ≤ 127
    omega
  · decide

theorem isDns1123Alphanumeric_of_isLowerHexDigit {c : Char} (h : isLowerHexDigit c = true) :
    isDns1123Alphanumeric c = true := by
  rw [isLowerHexDigit, Bool.or_eq_true, Bool.and_eq_true, decide_eq_true_eq,
    decide_eq_true_eq] at h
  rcases h with hdigit | ⟨ha, hf⟩
  · rw [isDns1123Alphanumeric, isLowerAlphanumeric, hdigit, Bool.or_true]
  · have hlow : 97 ≤ c.toNat := ha
    have hhigh : c.toNat ≤ 102 := hf
    rw [isDns1123Alphanumeric_iff]
    omega

/-- A letter or a digit is one in lower case. -/
theorem isDns1123Alphanumeric_toLower {c : Char} (h : c.isAlphanum = true) :
    isDns1123Alphanumeric c.toLower = true := by
  rw [isDns1123Alphanumeric_iff, Base.toNat_toLower]
  rw [isAlphanum_iff, isDns1123Alphanumeric_iff] at h
  by_cases hupper : 65 ≤ c.toNat ∧ c.toNat ≤ 90
  · rw [if_pos hupper]
    omega
  · rw [if_neg hupper]
    exact h.resolve_left hupper

/-- A label: its characters, its ends and its size. -/
theorem isDns1123Label_iff {value : String} :
    isDns1123Label value = true ↔ value.utf8ByteSize ≤ 63 ∧
      value.toList.head?.any isDns1123Alphanumeric = true ∧
      value.toList.getLast?.any isDns1123Alphanumeric = true ∧
      ∀ c ∈ value.toList, IsLabelChar c := by
  unfold isDns1123Label IsLabelChar
  simp only [Bool.and_eq_true, decide_eq_true_eq, List.all_eq_true, Bool.or_eq_true]
  constructor
  · rintro ⟨⟨⟨⟨-, hsize⟩, hhead⟩, hlast⟩, hall⟩
    exact ⟨hsize, hhead, hlast, hall⟩
  · rintro ⟨hsize, hhead, hlast, hall⟩
    refine ⟨⟨⟨⟨?_, hsize⟩, hhead⟩, hlast⟩, hall⟩
    cases hvalue : value.toList with
    | nil => rw [hvalue] at hhead; exact hhead
    | cons c rest => rfl

private theorem fieldErrors_eq_nil_iff {field value : String} :
    fieldErrors field (validateDns1123Label value) = [] ↔ isDns1123Label value = true := by
  rw [← validateDns1123Label_eq_ok_iff]
  cases validateDns1123Label value with
  | ok _ => simp only [fieldErrors]
  | error message => simp only [fieldErrors, List.cons_ne_nil, reduceCtorEq]

private theorem slugErrors_eq_nil_iff {tenant : TenantRef} :
    tenant.slugErrors = [] ↔ isDns1123Label tenant.organization = true ∧
      tenant.team.all isDns1123Label = true := by
  obtain ⟨organization, team⟩ := tenant
  rw [TenantRef.slugErrors, List.append_eq_nil_iff, fieldErrors_eq_nil_iff]
  cases team with
  | none => simp only [Option.all_none]
  | some team => rw [fieldErrors_eq_nil_iff, Option.all_some]

private theorem namespaceErrors_eq_nil_iff {tenant : TenantRef} :
    tenant.namespaceErrors = [] ↔ isDns1123Label tenant.computedNamespace = true := by
  rw [← validateDns1123Label_eq_ok_iff, TenantRef.namespaceErrors]
  cases validateDns1123Label tenant.computedNamespace with
  | ok _ => simp only
  | error message => simp only [List.cons_ne_nil, reduceCtorEq]

/-- A valid tenant is one whose slugs and whose namespace are labels. -/
theorem TenantRef.validate_eq_ok_iff {tenant : TenantRef} :
    tenant.validate = .ok () ↔ isDns1123Label tenant.organization = true ∧
      tenant.team.all isDns1123Label = true ∧
      isDns1123Label tenant.computedNamespace = true := by
  rw [← and_assoc, ← slugErrors_eq_nil_iff, ← namespaceErrors_eq_nil_iff, TenantRef.validate]
  by_cases hs : tenant.slugErrors = []
  · by_cases hn : tenant.namespaceErrors = [] <;> simp [hs, hn]
  · simp [hs]

/-- `apply` goes on exactly when `validate_tenant_namespace` succeeds. -/
theorem tenantAccepted_iff {app : Project} {ns : String} :
    tenantAccepted app ns = true ↔ ∃ expected, validateTenantNamespace app ns = .ok expected := by
  unfold tenantAccepted validateTenantNamespace
  cases app.spec.tenant with
  | none => simp only [Option.all_none, Except.ok.injEq, exists_eq']
  | some tenant =>
    rw [Option.all_some, Bool.and_eq_true, Bool.and_eq_true, Bool.and_eq_true,
      and_assoc (a := isDns1123Label tenant.organization = true), ← TenantRef.validate_eq_ok_iff,
      decide_eq_true_eq]
    cases ht : tenant.validate with
    | error errors => simp only [ht, reduceCtorEq, false_and, exists_false]
    | ok _ =>
      by_cases he : tenant.computedNamespace = ns
      · simp only [ht, he, and_self, ↓reduceIte, Except.ok.injEq, exists_eq']
      · simp only [ht, he, and_false, ↓reduceIte, reduceCtorEq, exists_false]

/-- A Project with a tenant is accepted only in that tenant's namespace, if the tenant is valid. -/
theorem validateTenantNamespace_of_tenant {app : Project} {tenant : TenantRef} {ns : String}
    (ht : app.spec.tenant = some tenant) (hv : tenant.validate = .ok ()) :
    (∃ expected, validateTenantNamespace app ns = .ok expected) ↔
      tenant.computedNamespace = ns := by
  by_cases he : tenant.computedNamespace = ns
  · simp only [validateTenantNamespace, ht, hv, he, ↓reduceIte, Except.ok.injEq, exists_eq']
  · simp only [validateTenantNamespace, ht, hv, he, ↓reduceIte, reduceCtorEq, exists_false]

/-! ## Which tenants share a namespace -/

/-- `a`'s team begins with a part that, behind a dash, ends `b`'s organization. -/
def TenantRef.ShiftsInto (a b : TenantRef) : Prop :=
  ∃ part, b.organization = s!"{a.organization}-{part}" ∧
    a.team = some (match b.team with
      | some team => s!"{part}-{team}"
      | none => part)

/-- The characters of a tenant's namespace. -/
private theorem toList_computedNamespace (tenant : TenantRef) :
    tenant.computedNamespace.toList =
      "tenant-".toList ++ (tenant.organization.toList ++
        joinTail '-' (tenant.team.map String.toList)) := by
  obtain ⟨organization, team⟩ := tenant
  cases team with
  | none =>
    show ("tenant-" ++ organization).toList = _
    simp only [String.toList_append, Option.map_none, joinTail, List.append_nil]
  | some team =>
    show ("tenant-" ++ organization ++ "-" ++ team).toList = _
    simp only [String.toList_append, Option.map_some, joinTail, List.append_assoc]
    rfl

private theorem toList_dashed (head tail : String) :
    s!"{head}-{tail}".toList = head.toList ++ '-' :: tail.toList := by
  show (head ++ "-" ++ tail).toList = _
  simp only [String.toList_append, List.append_assoc]
  rfl

private theorem shiftsInto_iff {a b : TenantRef} :
    a.ShiftsInto b ↔ Base.ShiftsInto '-' a.organization.toList (a.team.map String.toList)
      b.organization.toList (b.team.map String.toList) := by
  have hinj : Function.Injective (Option.map String.toList) :=
    Option.map_injective fun _ _ ↦ String.toList_injective
  have hsurj : Function.Surjective String.toList := fun l ↦ ⟨String.ofList l, String.toList_ofList⟩
  unfold TenantRef.ShiftsInto Base.ShiftsInto
  rw [hsurj.exists]
  apply exists_congr
  intro part
  rw [← toList_dashed, String.toList_inj, ← hinj.eq_iff, Option.map_some]
  cases b.team with
  | none => rw [Option.map_none, joinTail, List.append_nil]
  | some team => rw [Option.map_some, joinTail, toList_dashed]

/-- Two tenants share a namespace exactly when they are the same or one shifts into the other. -/
theorem TenantRef.computedNamespace_eq_iff {a b : TenantRef} :
    a.computedNamespace = b.computedNamespace ↔ a = b ∨ a.ShiftsInto b ∨ b.ShiftsInto a := by
  rw [← String.toList_inj, toList_computedNamespace, toList_computedNamespace,
    List.append_cancel_left_eq, join_eq_iff, shiftsInto_iff, shiftsInto_iff]
  apply or_congr_left
  obtain ⟨organization, team⟩ := a
  obtain ⟨organization', team'⟩ := b
  have hinj : Function.Injective String.toList := fun _ _ ↦ String.toList_injective
  show organization.toList = organization'.toList ∧
    team.map String.toList = team'.map String.toList ↔ _
  rw [String.toList_inj, (Option.map_injective hinj).eq_iff, TenantRef.mk.injEq]

private theorem TenantRef.ShiftsInto.ne {a b : TenantRef} (h : a.ShiftsInto b) : a ≠ b := by
  rintro rfl
  exact (shiftsInto_iff.mp h).head_ne rfl

/-- The namespaces of two valid tenants tell them apart, and no namespace accepts Projects of
both, exactly when neither shifts into the other. -/
theorem tenants_kept_apart_iff (a b : TenantRef) (ha : a.validate = .ok ())
    (hb : b.validate = .ok ()) :
    ((a.computedNamespace = b.computedNamespace → a = b) ∧
      ∀ (P Q : Project) (ns : String), P.spec.tenant = some a → Q.spec.tenant = some b →
        (∃ expected, validateTenantNamespace P ns = .ok expected) →
        (∃ expected, validateTenantNamespace Q ns = .ok expected) → a = b) ↔
    ¬ a.ShiftsInto b ∧ ¬ b.ShiftsInto a := by
  constructor
  · rintro ⟨hinj, -⟩
    constructor
    · intro h
      exact h.ne (hinj (TenantRef.computedNamespace_eq_iff.mpr (Or.inr (Or.inl h))))
    · intro h
      exact h.ne (hinj (TenantRef.computedNamespace_eq_iff.mpr (Or.inr (Or.inr h)))).symm
  · rintro ⟨hab, hba⟩
    have hinj : a.computedNamespace = b.computedNamespace → a = b := by
      intro h
      rcases TenantRef.computedNamespace_eq_iff.mp h with h | h | h
      · exact h
      · exact absurd h hab
      · exact absurd h hba
    refine ⟨hinj, ?_⟩
    intro P Q ns hP hQ hPok hQok
    apply hinj
    rw [(validateTenantNamespace_of_tenant hP ha).mp hPok,
      (validateTenantNamespace_of_tenant hQ hb).mp hQok]

/-- Two teams of one organization: neither shifts into the other. -/
theorem tenants_kept_apart_iff_teams :
    (⟨"acme", some "web"⟩ : TenantRef).validate = .ok () ∧
    (⟨"acme", some "data"⟩ : TenantRef).validate = .ok () ∧
    (((⟨"acme", some "web"⟩ : TenantRef).computedNamespace =
        (⟨"acme", some "data"⟩ : TenantRef).computedNamespace →
          (⟨"acme", some "web"⟩ : TenantRef) = ⟨"acme", some "data"⟩) ∧
      ∀ (P Q : Project) (ns : String), P.spec.tenant = some ⟨"acme", some "web"⟩ →
        Q.spec.tenant = some ⟨"acme", some "data"⟩ →
        (∃ expected, validateTenantNamespace P ns = .ok expected) →
        (∃ expected, validateTenantNamespace Q ns = .ok expected) →
        (⟨"acme", some "web"⟩ : TenantRef) = ⟨"acme", some "data"⟩) := by
  refine ⟨rfl, rfl, (tenants_kept_apart_iff _ _ rfl rfl).mpr ⟨?_, ?_⟩⟩
  all_goals
    intro h
    exact (shiftsInto_iff.mp h).head_ne rfl

/-- The team `b` of the organization `a` and the organization `a-b` share a namespace. -/
theorem tenants_not_kept_apart :
    ¬ ∀ a b : TenantRef, a.validate = .ok () → b.validate = .ok () →
      a.computedNamespace = b.computedNamespace → a = b := by
  intro h
  have := h ⟨"a", some "b"⟩ ⟨"a-b", none⟩ rfl rfl (by decide)
  exact absurd this (by decide)

end ReinhardtCloud.Operator

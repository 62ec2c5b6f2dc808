import ReinhardtCloud.Base.References
import ReinhardtCloud.Operator.ArtifactNames
import ReinhardtCloud.Operator.Migration
import ReinhardtCloud.Operator.Separation

/-!
# Service names, labels and image tags of a Project

Library `Operator`. The names of the Services that `apply` writes and the labels of the objects that
the operator builds for a Project in its own namespace (`resources/labels.rs`,
`inference/secrets.rs:129–140`, `inference/database.rs:551–566`, `resources/migration.rs:80–81`,
`resources/security/`), with what the API server asks of both; and the tags of accepted builds.
-/

namespace ReinhardtCloud.Operator

open ReinhardtCloud.Base

/-! ## Services -/

/-- A DNS-1035 label: what the API server admits as a Service's name. -/
def isDns1035Label (label : String) : Bool :=
  label.length ≤ 63 && label.toList.head?.any Char.isLower &&
    label.toList.getLast?.any isLowerAlphanumeric &&
    label.toList.all fun c ↦ isLowerAlphanumeric c || c = '-'

/-- The Services that `apply` writes for the Project, on any platform, have admissible names. -/
def ServicesAdmissible (app : Project) : Prop :=
  ∀ platform ns, ∀ op ∈ applyOperations platform app ns, op.kind = .service →
    isDns1035Label (op.name.resolve app.name) = true

/-! ## Labels -/

/-- `Component`, `labels.rs:13–36`. -/
inductive Component where
  | web
  | worker
  | database
  | cache
  | ingress
  | migration
  | staticServer
  | build
  | preview
  | plugins
  deriving DecidableEq

/-- `Component::as_str`, `labels.rs:40–53`. -/
def Component.asStr : Component → String
  | .web => "web"
  | .worker => "worker"
  | .database => "database"
  | .cache => "cache"
  | .ingress => "ingress"
  | .migration => "migration"
  | .staticServer => "static-server"
  | .build => "build"
  | .preview => "preview"
  | .plugins => "plugins"

/-- `standard_labels`, `labels.rs:59–80`. -/
def standardLabels (app : Project) (component : Component) : StringMap :=
  [("app.kubernetes.io/name", app.name),
    ("app.kubernetes.io/managed-by", "reinhardt-cloud-operator"),
    ("app.kubernetes.io/instance", app.name),
    ("app.kubernetes.io/component", component.asStr),
    ("paas.reinhardt-cloud.dev/owner", app.ns.getD "<unknown>" ++ "." ++ app.name)]

/-- `standard_db_labels`, `inference/database.rs:551–566`. -/
def standardDbLabels (projectName : String) : StringMap :=
  [("app.kubernetes.io/name", projectName),
    ("app.kubernetes.io/managed-by", "reinhardt-cloud-operator"),
    ("app.kubernetes.io/component", "database")]

/-- The labels of `build_migration_job`, `resources/migration.rs:79–81`. -/
def migrationLabels (app : Project) (revisionKey : String) : StringMap :=
  standardLabels app .migration ++
    [("paas.reinhardt-cloud.dev/migration-revision", migrationRevisionId revisionKey)]

/-- The labels of the isolation policies and limits, `resources/security/`. -/
def isolationLabels : StringMap := [("app.kubernetes.io/managed-by", "reinhardt-cloud-operator")]

/-- The label maps of the objects that the operator builds for the Project. -/
inductive LabelsSet (app : Project) : StringMap → Prop
  | standard (component : Component) : LabelsSet app (standardLabels app component)
  | migration (revisionKey : String) : LabelsSet app (migrationLabels app revisionKey)
  | database : LabelsSet app (standardDbLabels app.name)
  | secret : LabelsSet app (standardSecretLabels app.name)
  | isolation : LabelsSet app isolationLabels

/-- Every label value fits. -/
def LabelsFit (app : Project) : Prop :=
  ∀ labels, LabelsSet app labels → ∀ kv ∈ labels, kv.2.length ≤ 63

/-! ## Which names serve -/

/-- The start of a name that a Service can carry. -/
def startsWithLetter (name : String) : Bool := name.toList.head?.any Char.isLower

/-- What `validate_project_name` leaves of a name. -/
structure ProjectNameAccepted (name : String) : Prop where
  head : name.toList.head?.any isLowerAlphanumeric = true
  last : name.toList.getLast?.any isLowerAlphanumeric = true
  chars : ∀ c ∈ name.toList, isLowerAlphanumeric c = true ∨ c = '-'

variable {app : Project} {name : String}

/-- A suffix keeps a name a label exactly as long as it starts with a letter and fits. -/
theorem isDns1035Label_append (hname : ProjectNameAccepted name) {suffix : String}
    (hsuffix : suffix = "" ∨ suffix.toList.getLast?.any isLowerAlphanumeric = true)
    (hchars : ∀ c ∈ suffix.toList, isLowerAlphanumeric c = true ∨ c = '-') :
    isDns1035Label (name ++ suffix) = true ↔
      startsWithLetter name = true ∧ name.length + suffix.length ≤ 63 := by
  have hall : ∀ c ∈ (name ++ suffix).toList, (isLowerAlphanumeric c || c = '-') = true := by
    intro c hc
    rw [String.toList_append, List.mem_append] at hc
    rw [Bool.or_eq_true, decide_eq_true_eq]
    rcases hc with hc | hc
    · exact hname.chars c hc
    · exact hchars c hc
  have hhead : (name ++ suffix).toList.head? = name.toList.head? := by
    have hfirst := hname.head
    cases hn : name.toList with
    | nil => simp [hn] at hfirst
    | cons c rest => rw [String.toList_append, hn, List.cons_append, List.head?_cons,
        List.head?_cons]
  have hlast : (name ++ suffix).toList.getLast?.any isLowerAlphanumeric = true := by
    rcases hsuffix with rfl | hsuffix
    · rw [String.append_empty]
      exact hname.last
    · cases hs : suffix.toList.getLast? with
      | none => simp [hs] at hsuffix
      | some c =>
        rw [String.toList_append, List.getLast?_append, hs, Option.some_or, ← hs]
        exact hsuffix
  rw [isDns1035Label, Bool.and_eq_true, Bool.and_eq_true, Bool.and_eq_true, List.all_eq_true,
    decide_eq_true_eq, String.length_append, hhead, startsWithLetter]
  constructor
  · rintro ⟨⟨⟨hlength, hletter⟩, -⟩, -⟩
    exact ⟨hletter, hlength⟩
  · rintro ⟨hletter, hlength⟩
    exact ⟨⟨⟨hlength, hletter⟩, hlast⟩, hall⟩

/-- A Service of the Project is named with one of five suffixes. -/
theorem service_suffix {platform : Platform} {ns : String} {op : Operation}
    (h : op ∈ applyOperations platform app ns) (hkind : op.kind = .service) :
    ∃ suffix ∈ ObjectKind.service.suffixes, op.name = .suffixed suffix := by
  rw [applyOperations, onlyIf] at h
  split at h
  · rcases List.mem_append.mp h with htenant | hproject
    · have hpolicies : ∀ op ∈ onlyIf app.spec.tenant.isSome tenantOperations,
          op.kind = .networkPolicy := by
        rw [onlyIf]
        split
        · decide
        · intro op hop
          cases hop
      rw [hpolicies op htenant] at hkind
      cases hkind
    · have hnamed := wellNamed_project op hproject
      rw [Operation.wellNamed, hkind] at hnamed
      cases hop : op.name with
      | fixed fixedName =>
        rw [hop] at hnamed
        cases hnamed
      | suffixed suffix =>
        simp only [hop, ObjectKind.protected, Bool.not_true, Bool.false_or,
          Bool.and_eq_true] at hnamed
        exact ⟨suffix, List.contains_iff_mem.mp hnamed.1, rfl⟩
  · cases h

/-- A Project with an introspected PostgreSQL. -/
def databaseProject (name : String) : Project :=
  ⟨name, none, none, none, .cleared,
    { image := ""
      introspect := some ⟨{ database := some "postgresql" }, [], "", 8000⟩ }, none, none⟩

/-- All Services of all Projects of a name are admissible exactly when the name starts with a letter
and leaves room for the longest suffix. -/
theorem servicesAdmissible_iff (hname : ProjectNameAccepted name) :
    (∀ app : Project, app.name = name → ServicesAdmissible app) ↔
      startsWithLetter name = true ∧ name.length ≤ 52 := by
  have hlabel (suffix : String) (hsuffix : suffix ∈ ObjectKind.service.suffixes) :
      isDns1035Label (name ++ suffix) = true ↔
        startsWithLetter name = true ∧ name.length + suffix.length ≤ 63 := by
    have hends : ∀ suffix ∈ ObjectKind.service.suffixes,
        suffix = "" ∨ suffix.toList.getLast?.any isLowerAlphanumeric = true := by decide
    have hchars : ∀ suffix ∈ ObjectKind.service.suffixes,
        (suffix.toList.all fun c ↦ isLowerAlphanumeric c || c = '-') = true := by decide
    refine isDns1035Label_append hname (hends suffix hsuffix) fun c hc ↦ ?_
    have hchar := List.all_eq_true.mp (hchars suffix hsuffix) c hc
    rwa [Bool.or_eq_true, decide_eq_true_eq] at hchar
  constructor
  · intro h
    have hservice : named .service "-postgresql" .forceApply ∈
        applyOperations .onpremise (databaseProject name) "" := by
      simp [applyOperations, tenantAccepted, databaseProject, projectOperations, databaseOperations,
        shouldProvisionPostgresql, onlyIf, named]
    have hpostgresql := h (databaseProject name) rfl .onpremise "" _ hservice rfl
    have hlength : "-postgresql".length = 11 := by decide
    obtain ⟨hletter, hroom⟩ := (hlabel "-postgresql" (by decide)).mp hpostgresql
    exact ⟨hletter, by omega⟩
  · rintro ⟨hletter, hroom⟩ app rfl platform ns op hop hkind
    obtain ⟨suffix, hsuffix, hopName⟩ := service_suffix hop hkind
    have hlength : ∀ suffix ∈ ObjectKind.service.suffixes, suffix.length ≤ 11 := by decide
    have := hlength suffix hsuffix
    rw [hopName, ObjectName.resolve, hlabel suffix hsuffix]
    exact ⟨hletter, by omega⟩

/-- All label values fit exactly when the name does, behind its namespace. -/
theorem labelsFit_iff {ns : String} (hns : app.ns = some ns) :
    LabelsFit app ↔ ns.length + 1 + app.name.length ≤ 63 := by
  have hdot : ".".length = 1 := by decide
  have howner : (app.ns.getD "<unknown>" ++ "." ++ app.name).length =
      ns.length + 1 + app.name.length := by
    rw [hns, Option.getD_some, String.length_append, String.length_append, hdot]
  have hoperator : "reinhardt-cloud-operator".length ≤ 63 := by decide
  constructor
  · intro h
    rw [← howner]
    exact h _ (.standard .web) ("paas.reinhardt-cloud.dev/owner", _) (by simp [standardLabels])
  · intro h
    have hname : app.name.length ≤ 63 := by omega
    have hstandard (component : Component) :
        ∀ kv ∈ standardLabels app component, kv.2.length ≤ 63 := by
      have hcomponent : component.asStr.length ≤ 63 := by
        cases component <;> decide
      simp only [standardLabels, List.forall_mem_cons, List.not_mem_nil, false_imp_iff,
        implies_true, and_true]
      exact ⟨hname, hoperator, hname, hcomponent, howner.trans_le h⟩
    intro labels hset
    cases hset with
    | standard component => exact hstandard component
    | migration revisionKey =>
      rw [migrationLabels, List.forall_mem_append]
      refine ⟨hstandard .migration, ?_⟩
      rw [List.forall_mem_singleton, ← String.length_toList, length_migrationRevisionId]
      decide
    | database =>
      simp only [standardDbLabels, List.forall_mem_cons, List.not_mem_nil, false_imp_iff,
        implies_true, and_true]
      exact ⟨hname, hoperator, by decide⟩
    | secret =>
      simp only [standardSecretLabels, List.forall_mem_cons, List.not_mem_nil, false_imp_iff,
        implies_true, and_true]
      exact ⟨hname, hoperator⟩
    | isolation =>
      rw [isolationLabels, List.forall_mem_singleton]
      exact hoperator

/-! ## Image tags -/

/-- The annotations of a source build as GitHub fills them: a commit or the initial trigger, and the
number of a pull request. -/
structure Annotations.FromGithub (annotations : Annotations) : Prop where
  trigger : ∀ trigger ∈ annotations.buildTrigger, ∀ c ∈ trigger.toList, isTagChar c = true
  prNumber : ∀ prNumber ∈ annotations.prNumber, ∃ n : UInt64, prNumber = toString n.toNat

private theorem isTagChar_of_digit {c : Char} (h : c.isDigit = true) : isTagChar c = true := by
  simp only [isTagChar, isWordChar, Char.isAlphanum, h, Bool.or_true, Bool.true_or]

private theorem isWordChar_of_lowerAlphanumeric {c : Char} (h : isLowerAlphanumeric c = true) :
    isWordChar c = true := by
  rw [isLowerAlphanumeric, Bool.or_eq_true] at h
  have halnum : c.isAlphanum = (c.isUpper || c.isLower || c.isDigit) := rfl
  rcases h with h | h <;> simp only [isWordChar, halnum, h, Bool.or_true, Bool.true_or]

/-- The decimal digits of a 64-bit number. -/
private theorem digits_prNumber (n : UInt64) :
    (toString n.toNat).toList.length ≤ 20 ∧ ∀ c ∈ (toString n.toNat).toList, c.isDigit = true := by
  have hlist : (toString n.toNat).toList = Nat.toDigits 10 n.toNat := by
    show (Nat.repr n.toNat).toList = _
    rw [Nat.repr_eq_ofList_toDigits, String.toList_ofList]
  rw [hlist]
  constructor
  · rw [Nat.length_toDigits_le_iff (by decide) (by decide)]
    exact n.toNat_lt.trans (by decide)
  · intro c hc
    exact Nat.isDigit_of_mem_toDigits (by decide) (by decide) hc

/-- Two parts of a tag with a dash between them are one. -/
private theorem isTag_join {head part : List Char} (hword : head.head?.any isWordChar = true)
    (hfits : head.length + part.length < 128) (hhead : ∀ c ∈ head, isTagChar c = true)
    (hpart : ∀ c ∈ part, isTagChar c = true) : isTag (head ++ '-' :: part) = true := by
  have hfirst : (head ++ '-' :: part).head? = head.head? := by
    cases head with
    | nil => cases hword
    | cons c rest => rfl
  rw [isTag, hfirst, hword, Bool.true_and, Bool.and_eq_true, decide_eq_true_eq,
    List.all_eq_true]
  constructor
  · rw [List.length_append, List.length_cons]
    omega
  · intro c hc
    rcases List.mem_append.mp hc with hc | hc
    · exact hhead c hc
    · rcases List.mem_cons.mp hc with rfl | hc
      · rfl
      · exact hpart c hc

/-- The tag of an accepted build is a tag. -/
theorem isTag_of_derive (hname : ProjectNameAccepted app.name) (hlength : app.name.length ≤ 63)
    (hgithub : app.annotations.FromGithub) {b : BuildStatus}
    (h : deriveNewBuildStatus app = .ok (some b)) : isTag b.imageTag.toList = true := by
  have htrigger : ∀ c ∈ (takeChars 8 b.trigger).toList, isTagChar c = true := by
    intro c hc
    rw [takeChars, String.toList_ofList] at hc
    exact hgithub.trigger b.trigger (derivedBuild_of_derive h).trigger c (List.mem_of_mem_take hc)
  have hshort : (takeChars 8 b.trigger).toList.length ≤ 8 := by
    rw [takeChars, String.toList_ofList, List.length_take]
    exact Nat.min_le_left _ _
  have hjoin {head : List Char} (hword : head.head?.any isWordChar = true)
      (hfits : head.length ≤ 63) (hchars : ∀ c ∈ head, isTagChar c = true) :=
    isTag_join hword (by omega) hchars htrigger
  rw [imageTag_of_derive h]
  cases hpr : previewPrNumber app with
  | none =>
    show isTag (app.name ++ "-" ++ takeChars 8 b.trigger).toList = true
    rw [String.toList_append, String.toList_append, List.append_assoc]
    refine hjoin ?_ (by rwa [String.length_toList]) ?_
    · obtain ⟨c, hc, halnum⟩ := Option.any_eq_true _ _ |>.mp hname.head
      rw [hc, Option.any_some]
      exact isWordChar_of_lowerAlphanumeric halnum
    · intro c hc
      rcases hname.chars c hc with hc | rfl
      · rw [isTagChar, isWordChar_of_lowerAlphanumeric hc, Bool.true_or, Bool.true_or]
      · rfl
  | some prNumber =>
    have hmem : prNumber ∈ app.annotations.prNumber := by
      simp only [previewPrNumber, previewActionPrNumber] at hpr
      split at hpr
      · simp only [Option.bind_eq_some_iff, Option.filter_eq_some_iff] at hpr
        obtain ⟨-, -, hpr, -⟩ := hpr
        exact hpr
      · cases hpr
    obtain ⟨n, rfl⟩ := hgithub.prNumber prNumber hmem
    obtain ⟨hdigits, hall⟩ := digits_prNumber n
    show isTag ("pr-" ++ toString n.toNat ++ "-" ++ takeChars 8 b.trigger).toList = true
    rw [String.toList_append, String.toList_append, List.append_assoc]
    refine hjoin ?_ ?_ ?_
    · rw [String.toList_append]
      rfl
    · rw [String.toList_append, List.length_append]
      have : "pr-".toList.length = 3 := by decide
      omega
    · intro c hc
      rw [String.toList_append, List.mem_append] at hc
      rcases hc with hc | hc
      · have hfixed : "pr-".toList.all isTagChar = true := by decide
        exact List.all_eq_true.mp hfixed c hc
      · exact isTagChar_of_digit (hall c hc)

end ReinhardtCloud.Operator

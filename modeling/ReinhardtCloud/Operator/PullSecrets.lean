import ReinhardtCloud.Operator.PreviewNames

/-!
# Image-pull secrets

Library `Operator`. Which Secrets of its namespace a Project may name in `spec.imagePullSecrets`
(`crates/reinhardt-cloud-operator/src/resources.rs:63–175`): those whose name begins with the
Project's name and a dash, and for a verified preview those of its parent as well.
-/

namespace ReinhardtCloud.Operator

open ReinhardtCloud.Base

namespace Previews

/-- What the check reads of a Project. -/
structure PullingProject where
  name : String
  ns : Option String
  labels : Option StringMap
  imagePullSecrets : Option (List String)

/-- `Error::InvalidImagePullSecret`. -/
structure InvalidImagePullSecret where
  app : String
  secret : String
  allowedPrefixes : String
  deriving DecidableEq

/-- `verified_preview_namespace`, `resources.rs:158–175`. -/
def verifiedPreviewNamespace (app : PullingProject) (labels : StringMap) (parentName : String) :
    Bool :=
  match app.ns with
  | none => false
  | some ns =>
    match labels.lookup parentNamespaceLabelKey with
    | none => legacyPreviewNamespaceMatches ns parentName
    | some parentNamespace => ns = previewNamespaceName parentNamespace parentName

/-- `verified_preview_parent_name`, `resources.rs:113–120`. -/
def verifiedPreviewParentName (app : PullingProject) : Option String :=
  match app.labels with
  | none => none
  | some labels =>
    match previewParentNameFromLabels labels app.name with
    | none => none
    | some parentName =>
      if verifiedPreviewNamespace app labels parentName then some parentName else none

/-- `image_pull_secret_prefixes`, `resources.rs:91–106`. -/
def imagePullSecretPrefixes (app : PullingProject) : List String :=
  let appPrefix := s!"{app.name}-"
  match verifiedPreviewParentName app with
  | none => [appPrefix]
  | some parentName =>
    let parentPrefix := s!"{parentName}-"
    if parentPrefix = appPrefix then [appPrefix] else [appPrefix, parentPrefix]

/-- `validated_image_pull_secrets`, `resources.rs:63–89`. -/
def validatedImagePullSecrets (app : PullingProject) :
    Except InvalidImagePullSecret (Option (List String)) :=
  match app.imagePullSecrets with
  | none => .ok none
  | some secrets =>
    let allowedPrefixes := imagePullSecretPrefixes app
    match secrets.find? fun secret ↦ !allowedPrefixes.any (startsWith secret) with
    | some secret => .error ⟨app.name, secret, ", ".intercalate allowedPrefixes⟩
    | none => .ok (some secrets)

end Previews

/-- What the check reads of a Project that a reconcile has read. -/
def Project.pulling (app : Project) : Previews.PullingProject :=
  ⟨app.name, app.ns, app.labels, app.spec.imagePullSecrets⟩

/-- `validated_image_pull_secrets(app)` with the operator's own error. -/
def Project.validatedImagePullSecrets (app : Project) : Except Error (Option (List String)) :=
  (Previews.validatedImagePullSecrets app.pulling).mapError fun e ↦
    .invalidImagePullSecret e.app e.secret e.allowedPrefixes

namespace Previews

/-! ## Whose a secret is -/

/-- The Project may name the Secret: a list with it is accepted. -/
def PullingProject.MayPull (app : PullingProject) (secret : String) : Prop :=
  ∃ secrets, secret ∈ secrets ∧
    validatedImagePullSecrets { app with imagePullSecrets := some secrets } = .ok (some secrets)

variable {P Q : PullingProject} {secret : String}

/-- A Project may name what begins with one of its prefixes. -/
theorem mayPull_iff :
    P.MayPull secret ↔ (imagePullSecretPrefixes P).any (startsWith secret) = true := by
  have hprefixes : ∀ secrets, imagePullSecretPrefixes { P with imagePullSecrets := secrets } =
      imagePullSecretPrefixes P := fun _ ↦ rfl
  constructor
  · rintro ⟨secrets, hmem, hok⟩
    simp only [validatedImagePullSecrets, hprefixes] at hok
    split at hok
    · cases hok
    · next hnone =>
      have hnot := List.find?_eq_none.mp hnone secret hmem
      rwa [Bool.not_eq_true', Bool.not_eq_false] at hnot
  · intro h
    refine ⟨[secret], List.mem_singleton_self _, ?_⟩
    simp only [validatedImagePullSecrets, hprefixes, List.find?_cons, h, Bool.not_true,
      List.find?_nil]

/-- A Project that is no preview may name what begins with its name and a dash. -/
theorem mayPull_iff_of_not_preview (hP : verifiedPreviewParentName P = none) :
    P.MayPull secret ↔ ∃ rest, secret = P.name ++ ("-" ++ rest) := by
  have hprefixes : imagePullSecretPrefixes P = [P.name ++ "-"] := by
    rw [imagePullSecretPrefixes, hP]
    rfl
  rw [mayPull_iff, hprefixes, List.any_cons, List.any_nil, Bool.or_false, startsWith_iff]
  simp only [String.append_assoc]

/-- The second name is the first one with a dash and more behind it. -/
def ExtendsWithDash (name longer : String) : Prop := ∃ rest, longer = name ++ ("-" ++ rest)

theorem extendsWithDash_of_toList {name longer : String} {extra : List Char}
    (h : longer.toList = name.toList ++ '-' :: extra) : ExtendsWithDash name longer := by
  refine ⟨String.ofList extra, String.toList_inj.mp ?_⟩
  rw [h, String.toList_append, String.toList_append, String.toList_ofList]
  simp

/-- Of two names with a dash behind them that begin one text, one extends the other. -/
theorem extends_of_common {p q rest rest' : String} (hne : p ≠ q)
    (h : p ++ ("-" ++ rest) = q ++ ("-" ++ rest')) : ExtendsWithDash p q ∨ ExtendsWithDash q p := by
  have hlist := congrArg String.toList h
  simp only [String.toList_append] at hlist
  rcases List.append_eq_append_iff.mp hlist with ⟨extra, hq, htail⟩ | ⟨extra, hp, htail⟩
  · left
    cases extra with
    | nil => exact absurd (String.toList_inj.mp (hq.trans (List.append_nil _))).symm hne
    | cons c extra =>
      have hc : '-' = c := (List.cons.inj htail).1
      exact extendsWithDash_of_toList (hc ▸ hq)
  · right
    cases extra with
    | nil => exact absurd (String.toList_inj.mp (hp.trans (List.append_nil _))) hne
    | cons c extra =>
      have hc : '-' = c := (List.cons.inj htail).1
      exact extendsWithDash_of_toList (hc ▸ hp)

/-- A longer Project's Secrets are also the shorter one's. -/
theorem shared_of_extends (hP : verifiedPreviewParentName P = none)
    (hQ : verifiedPreviewParentName Q = none) (h : ExtendsWithDash P.name Q.name) :
    P.MayPull (Q.name ++ "-registry") ∧ Q.MayPull (Q.name ++ "-registry") := by
  obtain ⟨rest, hname⟩ := h
  rw [mayPull_iff_of_not_preview hP, mayPull_iff_of_not_preview hQ]
  refine ⟨⟨rest ++ "-registry", ?_⟩, ⟨"registry", rfl⟩⟩
  rw [hname, String.append_assoc, String.append_assoc]

/-- Two Projects of a namespace, so of different names, share no image-pull secret exactly when
neither name is the other with a dash and more behind it. -/
theorem pull_secrets_apart_iff (hne : P.name ≠ Q.name)
    (hP : verifiedPreviewParentName P = none) (hQ : verifiedPreviewParentName Q = none) :
    (∀ secret, ¬ (P.MayPull secret ∧ Q.MayPull secret)) ↔
      ¬ ExtendsWithDash P.name Q.name ∧ ¬ ExtendsWithDash Q.name P.name := by
  constructor
  · intro h
    constructor
    · intro hextends
      exact h _ (shared_of_extends hP hQ hextends)
    · intro hextends
      exact h _ (shared_of_extends hQ hP hextends).symm
  · rintro ⟨hPQ, hQP⟩ secret ⟨hp, hq⟩
    rw [mayPull_iff_of_not_preview hP] at hp
    rw [mayPull_iff_of_not_preview hQ] at hq
    obtain ⟨rest, hrest⟩ := hp
    obtain ⟨rest', hrest'⟩ := hq
    rcases extends_of_common hne (hrest.symm.trans hrest') with h | h
    · exact hPQ h
    · exact hQP h

/-- A Project of the namespace `team`. -/
def teamProject (name : String) : PullingProject := ⟨name, some "team", none, none⟩

theorem pull_secrets_apart_iff_shop :
    (teamProject "shop").ns = (teamProject "blog").ns ∧
      ∀ secret, ¬ ((teamProject "shop").MayPull secret ∧ (teamProject "blog").MayPull secret) := by
  have hshort : ∀ name longer : String, longer.toList.length ≤ name.toList.length →
      ¬ ExtendsWithDash name longer := by
    rintro name longer hle ⟨rest, rfl⟩
    simp only [String.toList_append, List.length_append] at hle
    have hdash : "-".toList.length = 1 := rfl
    omega
  have hne : (teamProject "shop").name ≠ (teamProject "blog").name := by decide
  refine ⟨rfl, (pull_secrets_apart_iff hne rfl rfl).mpr ⟨?_, ?_⟩⟩
  · exact hshort "shop" "blog" (by decide)
  · exact hshort "blog" "shop" (by decide)

/-- The Project `shop` may name the registry credentials of the Project `shop-admin`. -/
theorem pull_secret_shared :
    (teamProject "shop").ns = (teamProject "shop-admin").ns ∧
      (teamProject "shop").name ≠ (teamProject "shop-admin").name ∧
      verifiedPreviewParentName (teamProject "shop") = none ∧
      verifiedPreviewParentName (teamProject "shop-admin") = none ∧
      ¬ ∀ secret, ¬ ((teamProject "shop").MayPull secret ∧
        (teamProject "shop-admin").MayPull secret) := by
  refine ⟨rfl, by decide, rfl, rfl, fun h ↦ h "shop-admin-registry" ?_⟩
  exact ⟨⟨["shop-admin-registry"], List.mem_singleton_self _, rfl⟩,
    ⟨["shop-admin-registry"], List.mem_singleton_self _, rfl⟩⟩

end Previews

end ReinhardtCloud.Operator

import ReinhardtCloud.Base.Affixes
import ReinhardtCloud.Dashboard.DeploymentObjects
import ReinhardtCloud.Operator.ServiceNames
import ReinhardtCloud.Operator.Tenants

/-!
# Which accepted imports can be deployed

Library `Dashboard`. The names and registries that `import_spec_from_repository` accepts
(`services/import.rs:28–60,263–298`), against what the API server asks of the Services and labels
that the operator derives from them and what a registry asks of image references.
-/

namespace ReinhardtCloud.Dashboard

open ReinhardtCloud.Base ReinhardtCloud.Operator

/-! ## Accepted names -/

private theorem toNat_le_of_isNameChar {c : Char} (h : isNameChar c = true) :
    c.val.toNat ≤ 127 := by
  simp only [isNameChar, Bool.or_eq_true, decide_eq_true_eq] at h
  apply toNat_le_of_isLabelChar
  rw [IsLabelChar, isDns1123Alphanumeric, isLowerAlphanumeric, Bool.or_eq_true]
  exact h

/-- The loop stops at 63 characters. -/
theorem length_sanitizeLoop {out l : List Char} {previousHyphen : Bool} (h : out.length < 63) :
    (sanitizeLoop out previousHyphen l).length ≤ 63 := by
  induction l generalizing out previousHyphen with
  | nil => exact h.le
  | cons c rest ih =>
    rw [sanitizeLoop]
    split
    · exact ih h
    · split
      · exact ih h
      · split
        · next hfull => exact (List.length_cons.trans hfull).le
        · next hroom =>
          apply ih
          rw [List.length_cons]
          omega

/-- The first character the loop writes is no hyphen. -/
theorem getLast_sanitizeLoop {out l : List Char} {previousHyphen : Bool}
    (h : ∀ c ∈ out.getLast?, c ≠ '-') :
    ∀ c ∈ (sanitizeLoop out previousHyphen l).getLast?, c ≠ '-' := by
  induction l generalizing out previousHyphen with
  | nil => exact h
  | cons c rest ih =>
    rw [sanitizeLoop]
    split
    · exact ih h
    · next next hnext =>
      split
      · exact ih h
      · next hwritten =>
        have hcons : ∀ c ∈ (next :: out).getLast?, c ≠ '-' := by
          cases out with
          | nil =>
            intro c hc
            obtain rfl : next = c := Option.some.inj hc
            rintro rfl
            exact hwritten rfl
          | cons d out =>
            rw [List.getLast?_cons_cons]
            exact h
        split
        · exact hcons
        · exact ih hcons

/-- What `validate_project_name` accepts. -/
theorem projectNameAccepted_of_validate {raw name : String}
    (h : validateProjectName raw = .ok name) : ProjectNameAccepted name := by
  obtain rfl := validateProjectName_ok h
  unfold validateProjectName at h
  simp only at h
  split at h
  · cases h
  · next hsize =>
    split at h
    · cases h
    · next hends =>
      split at h
      · cases h
      · next hchars =>
        have hall : ∀ c ∈ (trim raw).toList, isLowerAlphanumeric c = true ∨ c = '-' := by
          intro c hc
          simp only [Bool.not_eq_true', Bool.not_eq_false] at hchars
          have := List.all_eq_true.mp hchars c hc
          rwa [Bool.or_eq_true, decide_eq_true_eq] at this
        have hne : (trim raw).toList ≠ [] := by
          intro hnil
          have hempty : trim raw = "" := String.toList_inj.mp hnil
          simp [hempty] at hsize
        simp only [Bool.or_eq_true, decide_eq_true_eq, not_or] at hends
        refine ⟨?_, ?_, hall⟩
        · obtain ⟨c, rest, hcons⟩ := List.exists_cons_of_ne_nil hne
          rw [hcons, List.head?_cons] at hends ⊢
          rw [Option.any_some]
          rcases hall c (hcons ▸ List.mem_cons_self) with hc | rfl
          · exact hc
          · exact absurd rfl hends.1
        · cases hlast : (trim raw).toList.getLast? with
          | none => exact absurd (List.getLast?_eq_none_iff.mp hlast) hne
          | some c =>
            rw [Option.any_some]
            rcases hall c (List.mem_of_getLast? hlast) with hc | rfl
            · exact hc
            · exact absurd hlast hends.2

/-- A name without blanks that fits and neither starts nor ends with a hyphen is accepted as it
is. -/
theorem validateProjectName_of_nameChars {l : List Char} (hchars : ∀ c ∈ l, isNameChar c = true)
    (hne : l ≠ []) (hlength : l.length ≤ 63) (hhead : ∀ c ∈ l.head?, c ≠ '-')
    (hlast : ∀ c ∈ l.getLast?, c ≠ '-') :
    validateProjectName (String.ofList l) = .ok (String.ofList l) := by
  have htrim : trim (String.ofList l) = String.ofList l := by
    apply trim_eq_self
    intro c hc
    rw [String.toList_ofList] at hc
    exact isWhiteSpace_of_isNameChar (hchars c hc)
  have hsize := utf8ByteSize_of_ascii fun c hc ↦ toNat_le_of_isNameChar (hchars c hc)
  have hpos : 0 < l.length := List.length_pos_iff.mpr hne
  unfold validateProjectName
  simp only [htrim, String.toList_ofList, hsize]
  rw [if_neg, if_neg, if_neg]
  · rw [Bool.not_eq_true', Bool.not_eq_false]
    exact List.all_eq_true.mpr hchars
  · rw [Bool.or_eq_true, decide_eq_true_eq, decide_eq_true_eq]
    rintro (h | h)
    · exact hhead '-' h rfl
    · exact hlast '-' h rfl
  · rw [Bool.or_eq_true, decide_eq_true_eq, decide_eq_true_eq]
    omega

/-- `sanitize_project_name` makes a name that `validate_project_name` accepts. -/
theorem validateProjectName_sanitizeProjectName (raw : String) :
    validateProjectName (sanitizeProjectName raw) = .ok (sanitizeProjectName raw) := by
  unfold sanitizeProjectName
  simp only
  split
  · rfl
  · next hne =>
    rw [List.isEmpty_iff] at hne
    have hsuffix : (sanitizeLoop [] false (raw.toList.flatMap toLowercase)).dropWhile (· = '-') <:+
        sanitizeLoop [] false (raw.toList.flatMap toLowercase) := List.dropWhile_suffix _
    apply validateProjectName_of_nameChars
    · intro c hc
      exact sanitizeLoop_nameChars (by simp) c (hsuffix.subset (List.mem_reverse.mp hc))
    · exact fun h ↦ hne (List.reverse_eq_nil_iff.mp h)
    · rw [List.length_reverse]
      exact hsuffix.length_le.trans (length_sanitizeLoop (by decide))
    · intro c hc
      rw [List.head?_reverse, List.getLast?_eq_some_getLast hne] at hc
      obtain rfl := Option.some.inj hc
      rw [hsuffix.getLast hne]
      exact getLast_sanitizeLoop (by simp) _ (List.getLast?_eq_some_getLast _)
    · intro c hc
      rw [List.getLast?_reverse] at hc
      have := List.head?_dropWhile_not (· = '-')
        (sanitizeLoop [] false (raw.toList.flatMap toLowercase))
      rw [hc] at this
      simpa using this

/-! ## What an accepted import derives -/

/-- What `validate_registry` leaves of a registry: no blanks around it, no colons behind it. -/
def registryPrefix (registry : String) : String :=
  String.ofList ((trim registry).toList.reverse.dropWhile (· = ':')).reverse

/-- Everything derived from an accepted import is admissible: the default name of its repository,
the image it starts with, the images its builds push, and the Services and labels of its Project. -/
structure DeployableImport (repository : GitHubRepository) (spec : GitHubImportSpec) : Prop where
  sanitized : validateProjectName (sanitizeProjectName repository.name) =
    .ok (sanitizeProjectName repository.name)
  pending : isTaggedReference (spec.registry ++ ":pending").toList = true
  built : ∀ uid resourceVersion status annotations build,
    let app := { (importedManifest (enrichImportSpec spec repository)).project uid resourceVersion
      status with annotations := annotations }
    annotations.FromGithub → deriveNewBuildStatus app = .ok (some build) →
      builtImageReference app build.imageTag = .ok build.image ∧
        isTaggedReference build.image.toList = true
  services : ∀ app : Project, app.name = spec.projectName → ServicesAdmissible app
  labels : ∀ app : Project, app.name = spec.projectName → app.ns = some spec.ns → LabelsFit app

section Accepted

variable {repository : GitHubRepository} {typed registry : String} {spec : GitHubImportSpec}

/-- What an accepted import is made of. -/
theorem importSpec_ok (h : importSpecFromRepository repository typed registry = .ok spec) :
    validateProjectName (importName typed repository) = .ok spec.projectName ∧
      spec.projectName = importName typed repository ∧ spec.ns = "default" ∧
      spec.registry = registryPrefix registry := by
  have hchosen : (if trim typed = "" then defaultProjectName repository else trim typed) =
      importName typed repository := rfl
  unfold importSpecFromRepository at h
  simp only [hchosen, bind, Except.bind, pure, Except.pure] at h
  split at h
  · cases h
  · next name hname =>
    split at h
    · cases h
    · next registryText hregistry =>
      cases h
      refine ⟨hname, (validateProjectName_ok hname).trans (trim_importName typed repository), rfl,
        ?_⟩
      unfold validateRegistry at hregistry
      simp only at hregistry
      split at hregistry
      · cases hregistry
      · split at hregistry
        · cases hregistry
        · exact (Except.ok.inj hregistry).symm

/-- The image of an accepted build is the registry with the build's tag. -/
theorem image_of_build {uid : Uid} {resourceVersion : Option Nat} {status : Option ProjectStatus}
    {annotations : Annotations} {build : BuildStatus}
    (hname : ProjectNameAccepted spec.projectName) (hlength : spec.projectName.length ≤ 63)
    (hregistry : isRepositoryName spec.registry.toList = true)
    (hgithub : annotations.FromGithub)
    (h : deriveNewBuildStatus { (importedManifest (enrichImportSpec spec repository)).project uid
      resourceVersion status with annotations := annotations } = .ok (some build)) :
    isTaggedReference build.image.toList = true := by
  have htag : isTag build.imageTag.toList = true := isTag_of_derive hname hlength hgithub h
  have himage := (derivedBuild_of_derive h).image
  have hvalue : spec.registry ++ ":" ++ build.imageTag = build.image := Except.ok.inj himage
  have hlist : build.image.toList = spec.registry.toList ++ ':' :: build.imageTag.toList := by
    rw [← hvalue, String.toList_append, String.toList_append, List.append_assoc]
    rfl
  rw [hlist, isTaggedReference_append htag]
  exact hregistry

/-- An accepted import is deployable exactly when its name starts with a letter and leaves room for
the suffixes of the Services, and its registry is a repository name without tag and digest. -/
theorem deployableImport_iff
    (h : importSpecFromRepository repository typed registry = .ok spec) :
    DeployableImport repository spec ↔
      (startsWithLetter (importName typed repository) = true ∧
        (importName typed repository).length ≤ 52) ∧
      isRepositoryName (registryPrefix registry).toList = true := by
  obtain ⟨hvalid, hname, hns, hregistry⟩ := importSpec_ok h
  rw [← hname, ← hregistry]
  have haccepted := projectNameAccepted_of_validate hvalid
  have hpending : isTaggedReference (spec.registry ++ ":pending").toList =
      isRepositoryName spec.registry.toList := by
    rw [String.toList_append]
    exact isTaggedReference_append (show isTag "pending".toList = true by decide)
  constructor
  · intro hdeployable
    exact ⟨(servicesAdmissible_iff haccepted).mp hdeployable.services,
      hpending.symm.trans hdeployable.pending⟩
  · rintro ⟨⟨hletter, hlength⟩, hrepository⟩
    refine ⟨validateProjectName_sanitizeProjectName repository.name, hpending.trans hrepository, ?_,
      (servicesAdmissible_iff haccepted).mpr ⟨hletter, hlength⟩, ?_⟩
    · intro uid resourceVersion status annotations build app hgithub hbuild
      exact ⟨(derivedBuild_of_derive hbuild).image,
        image_of_build haccepted (hlength.trans (by decide)) hrepository hgithub hbuild⟩
    · intro app happ happNs
      have hdefault : "default".length = 7 := by decide
      rw [labelsFit_iff (happNs.trans (congrArg some hns)), hdefault, happ]
      omega

end Accepted

/-! ## A name and a registry to try -/

/-- A public repository. -/
def shopRepository : GitHubRepository :=
  ⟨0, 7, "team/shop", "team", "shop", "main", false, false, none, 0⟩

/-- A repository imported under its own name can be deployed. -/
theorem deployableImport_shop : ∃ spec,
    importSpecFromRepository shopRepository "shop" "registry.example/shop" = .ok spec ∧
      DeployableImport shopRepository spec := by
  have h : importSpecFromRepository shopRepository "shop" "registry.example/shop" =
    .ok shopImport :=
    rfl
  exact ⟨shopImport, h, (deployableImport_iff h).mpr (by decide)⟩

/-- A name that starts with a digit and a registry with a tag are accepted and cannot be
deployed. -/
theorem not_all_deployable :
    ¬ ∀ (repository : GitHubRepository) (typed registry : String) (spec : GitHubImportSpec),
      importSpecFromRepository repository typed registry = .ok spec →
        DeployableImport repository spec := by
  intro h
  have hdeployable := h shopRepository "1shop" "registry.example/shop:v1" _ rfl
  have hpending := hdeployable.pending
  exact absurd hpending (by decide)

end ReinhardtCloud.Dashboard

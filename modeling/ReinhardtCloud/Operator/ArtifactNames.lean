import ReinhardtCloud.Base.Names
import ReinhardtCloud.Operator.BuildRequests
import ReinhardtCloud.Operator.BuildStore

/-!
# Image tags and build Job names

Library `Operator`. Which accepted builds of a Project get one image tag or one Kaniko Job name
(`source_build.rs:70–122`, `resources/source.rs:90–110`, `resources/preview.rs:56–58`). Both names
join free-form pieces with dashes; the Job name also folds case and punctuation and cuts dashes
off its ends.
-/

namespace ReinhardtCloud.Operator

open ReinhardtCloud.Base

/-! ## Folding -/

/-- How `build_job_name` maps a character, `source.rs:93–99`. -/
def foldChar (c : Char) : Char := if c.isAlphanum || c = '-' then c.toLower else '-'

/-- What a Project name or a trigger is folded to. -/
def foldName (name : String) : List Char := name.toList.map foldChar

/-- What of a trigger ends up in a Job name: its first eight characters, folded, without the
dashes at the end. -/
def foldedTrigger (trigger : String) : Option (List Char) :=
  trimmedTail '-' (foldName (takeChars 8 trigger))

private theorem foldChar_of_alphanumeric {c : Char} (h : isDns1123Alphanumeric c = true) :
    foldChar c = c := by
  have hlower : c.isLower = (decide (97 ≤ c.val.toNat) && decide (c.val.toNat ≤ 122)) := rfl
  have hdigit : c.isDigit = (decide (48 ≤ c.val.toNat) && decide (c.val.toNat ≤ 57)) := rfl
  have halnum : c.isAlphanum = (c.isUpper || c.isLower || c.isDigit) := rfl
  simp only [isDns1123Alphanumeric, isLowerAlphanumeric, Bool.or_eq_true] at h
  have hupper : ¬ (c.val ≥ 'A'.val ∧ c.val ≤ 'Z'.val) := by
    show ¬ (65 ≤ c.val.toNat ∧ c.val.toNat ≤ 90)
    simp only [hlower, hdigit, Bool.and_eq_true, decide_eq_true_eq] at h
    omega
  have hfold : foldChar c = c.toLower := by
    rw [foldChar, if_pos]
    rcases h with h | h
    · simp only [halnum, h, Bool.or_true, Bool.true_or]
    · simp only [halnum, h, Bool.or_true, Bool.true_or]
  rw [hfold]
  exact dif_neg hupper

private theorem ne_dash_of_alphanumeric {c : Char} (h : isDns1123Alphanumeric c = true) :
    c ≠ '-' := by
  rintro rfl
  exact absurd h (by decide)

/-- The first character of a valid name, folded, is no dash. -/
private theorem head_foldName {name : String} (h : isKubernetesName name = true) :
    ∃ c rest, foldName name = c :: rest ∧ c ≠ '-' := by
  simp only [isKubernetesName, Bool.and_eq_true] at h
  obtain ⟨⟨⟨⟨-, hhead⟩, -⟩, -⟩, -⟩ := h
  cases hn : name.toList with
  | nil => simp [hn] at hhead
  | cons c rest =>
    rw [hn, List.head?_cons, Option.any_some] at hhead
    refine ⟨c, rest.map foldChar, ?_, ne_dash_of_alphanumeric hhead⟩
    rw [foldName, hn, List.map_cons, foldChar_of_alphanumeric hhead]

/-- Nor is the last one. -/
private theorem getLast_foldName {name : String} (h : isKubernetesName name = true) :
    (foldName name).getLast?.any (· ≠ '-') = true := by
  simp only [isKubernetesName, Bool.and_eq_true] at h
  obtain ⟨⟨⟨-, hlast⟩, -⟩, -⟩ := h
  rw [foldName, List.getLast?_map]
  cases hn : name.toList.getLast? with
  | none => simp [hn] at hlast
  | some c =>
    rw [hn, Option.any_some] at hlast
    rw [Option.map_some, Option.any_some, foldChar_of_alphanumeric hlast]
    simpa using ne_dash_of_alphanumeric hlast

/-! ## The Job name of an image tag -/

/-- The last part of a Job name: the folded tag without its outer dashes. -/
theorem buildJobName_eq {projectName imageTag : String} {head : List Char} {trigger : String}
    {c : Char} {rest : List Char} (hhead : head = c :: rest) (hc : c ≠ '-')
    (hlast : head.getLast?.any (· ≠ '-') = true)
    (htag : foldName imageTag = head ++ '-' :: foldName (takeChars 8 trigger)) :
    buildJobName projectName imageTag =
      projectName ++ "-build-" ++ String.ofList (head ++ joinTail '-' (foldedTrigger trigger)) := by
  have htrim : trimDashes (foldName imageTag) = head ++ joinTail '-' (foldedTrigger trigger) := by
    rw [htag, foldedTrigger, ← rdropWhile_join hlast, hhead, trimDashes, List.rdropWhile]
    rw [List.cons_append, List.dropWhile_cons_of_neg (by simpa using hc)]
  unfold buildJobName
  show (let imageTagName := trimDashes (foldName imageTag)
    let imageTagName := if imageTagName.isEmpty then "image" else String.ofList imageTagName
    s!"{projectName}-build-{imageTagName}") = _
  rw [htrim]
  have hne : (head ++ joinTail '-' (foldedTrigger trigger)).isEmpty = false := by
    rw [hhead, List.cons_append, List.isEmpty_cons]
  simp only [hne, Bool.false_eq_true, ↓reduceIte]
  rfl

/-- The dash-joined head of a preview's image tag. -/
def previewHead (prNumber : String) : List Char := "pr-".toList ++ prNumber.toList

/-- The folded head of a build's image tag, which the short trigger follows. -/
def tagHead (app : Project) : List Char :=
  match previewPrNumber app with
  | some n => previewHead n
  | none => foldName app.name

private theorem foldName_append (a b : String) : foldName (a ++ b) = foldName a ++ foldName b := by
  simp only [foldName, String.toList_append, List.map_append]

theorem alphanumeric_of_digit {c : Char} (h : c.isDigit = true) :
    isDns1123Alphanumeric c = true := by
  rw [isDns1123Alphanumeric, isLowerAlphanumeric, h, Bool.or_true]

private theorem foldName_of_numeric {n : String} (h : isNumeric n = true) :
    foldName n = n.toList := by
  apply (List.map_congr_left ?_).trans (List.map_id n.toList)
  intro c hc
  exact foldChar_of_alphanumeric (alphanumeric_of_digit (List.all_eq_true.mp h c hc))

private theorem not_isBlank_of_previewPrNumber {app : Project} {n : String}
    (h : previewPrNumber app = some n) : n.toList ≠ [] := by
  intro hn
  simp only [previewPrNumber, previewActionPrNumber] at h
  split at h
  · simp only [Option.bind_eq_some_iff, Option.filter_eq_some_iff] at h
    obtain ⟨-, -, -, hblank⟩ := h
    simp [isBlank, hn] at hblank
  · cases h

private theorem dash_not_mem_of_numeric {n : String} (h : isNumeric n = true) : '-' ∉ n.toList := by
  intro hmem
  exact absurd (List.all_eq_true.mp h _ hmem) (by decide)

/-- The head begins and ends with no dash. -/
theorem tagHead_ends {app : Project} (hvalid : isKubernetesName app.name = true)
    (hnumeric : (previewPrNumber app).all isNumeric = true) :
    (∃ c rest, tagHead app = c :: rest ∧ c ≠ '-') ∧
      (tagHead app).getLast?.any (· ≠ '-') = true := by
  unfold tagHead
  cases hpr : previewPrNumber app with
  | none => exact ⟨head_foldName hvalid, getLast_foldName hvalid⟩
  | some n =>
    rw [hpr, Option.all_some] at hnumeric
    refine ⟨⟨'p', _, rfl, by decide⟩, ?_⟩
    obtain ⟨init, c, hn⟩ := List.eq_nil_or_concat n.toList |>.resolve_left
      (not_isBlank_of_previewPrNumber hpr)
    rw [List.concat_eq_append] at hn
    have hc : c ≠ '-' := by
      rintro rfl
      exact dash_not_mem_of_numeric hnumeric (by simp [hn])
    show (previewHead n).getLast?.any (· ≠ '-') = true
    rw [previewHead, hn, ← List.append_assoc, List.getLast?_concat, Option.any_some]
    simpa using hc

private theorem foldName_imageTag {app : Project} {b : BuildStatus}
    (hnumeric : (previewPrNumber app).all isNumeric = true)
    (h : deriveNewBuildStatus app = .ok (some b)) :
    foldName b.imageTag = tagHead app ++ '-' :: foldName (takeChars 8 b.trigger) := by
  have hdash : foldName "-" = ['-'] := rfl
  rw [imageTag_of_derive h, tagHead]
  cases hpr : previewPrNumber app with
  | none =>
    show foldName (app.name ++ "-" ++ takeChars 8 b.trigger) = _
    rw [foldName_append, foldName_append, hdash, List.append_assoc, List.singleton_append]
  | some n =>
    rw [hpr, Option.all_some] at hnumeric
    show foldName ("pr-" ++ n ++ "-" ++ takeChars 8 b.trigger) = _
    rw [foldName_append, foldName_append, foldName_append, foldName_of_numeric hnumeric, hdash,
      List.append_assoc (foldName "pr-" ++ n.toList), List.singleton_append]
    rfl

/-- The Job name of an accepted build: its tag's head and what is left of the trigger. -/
theorem jobName_of_derive {app : Project} {b : BuildStatus}
    (hvalid : isKubernetesName app.name = true)
    (hnumeric : (previewPrNumber app).all isNumeric = true)
    (h : deriveNewBuildStatus app = .ok (some b)) :
    b.jobName = app.name ++ "-build-" ++
      String.ofList (tagHead app ++ joinTail '-' (foldedTrigger b.trigger)) := by
  obtain ⟨⟨c, rest, hhead, hc⟩, hlast⟩ := tagHead_ends hvalid hnumeric
  rw [(derivedBuild_of_derive h).jobName]
  exact buildJobName_eq hhead hc hlast (foldName_imageTag hnumeric h)

/-! ## Which builds share a name -/

/-- A production build of the Project and a preview build of the pull request fold to one Job
name. -/
inductive SharesJobName (projectName prNumber production preview : String) : Prop
  /-- The Project is named `pr-<number>` and the triggers fold to the same. -/
  | sameHead (hname : foldName projectName = previewHead prNumber)
      (htrigger : foldedTrigger production = foldedTrigger preview)
  /-- The Project is named `pr-<number>-<part>` and the preview's trigger begins with the part. -/
  | longerName (part : List Char)
    (hname : foldName projectName = previewHead prNumber ++ '-' :: part)
      (htrigger : foldedTrigger preview = some (part ++ joinTail '-' (foldedTrigger production)))
  /-- The Project is named `pr` and the production trigger begins with the number. -/
  | shorterName (hname : foldName projectName = "pr".toList)
      (htrigger : foldedTrigger production =
        some (prNumber.toList ++ joinTail '-' (foldedTrigger preview)))

/-- The trigger a request is annotated with. -/
def requestTrigger (app : Project) : String := app.annotations.buildTrigger.getD ""

/-- Two requests of one Project: a production and a preview request do not fold to one Job name,
and two triggers of one target and pull request do not fold to the same unless they are equal. -/
def KeptApart (P Q : Project) : Prop :=
  match previewPrNumber P, previewPrNumber Q with
  | none, some n => ¬ SharesJobName P.name n (requestTrigger P) (requestTrigger Q)
  | some n, none => ¬ SharesJobName P.name n (requestTrigger Q) (requestTrigger P)
  | none, none => foldedTrigger (requestTrigger P) = foldedTrigger (requestTrigger Q) →
      requestTrigger P = requestTrigger Q
  | some n, some n' => n = n' →
      foldedTrigger (requestTrigger P) = foldedTrigger (requestTrigger Q) →
      requestTrigger P = requestTrigger Q

/-- A head without dashes splits at the dash of `pr-` only. -/
private theorem previewHead_eq_append {n : String} {head part : List Char}
    (hn : '-' ∉ n.toList) (hne : head ≠ []) (h : previewHead n = head ++ '-' :: part) :
    head = "pr".toList ∧ part = n.toList := by
  have hp : 'p' :: 'r' :: '-' :: n.toList = head ++ '-' :: part := h
  match head, hne, hp with
  | [_], _, hp => simp at hp
  | [c, d], _, hp =>
    simp only [List.cons_append, List.nil_append, List.cons.injEq, true_and] at hp
    obtain ⟨rfl, rfl, rfl⟩ := hp
    exact ⟨rfl, rfl⟩
  | c :: d :: e :: rest, _, hp =>
    simp only [List.cons_append, List.cons.injEq] at hp
    exact absurd (hp.2.2.2 ▸ List.mem_append_right rest List.mem_cons_self) hn

private theorem sharesJobName_iff {projectName n production preview : String}
    (hnumeric : isNumeric n = true) (hname : foldName projectName ≠ []) :
    foldName projectName ++ joinTail '-' (foldedTrigger production) =
        previewHead n ++ joinTail '-' (foldedTrigger preview) ↔
      SharesJobName projectName n production preview := by
  have hn := dash_not_mem_of_numeric hnumeric
  rw [join_eq_iff]
  constructor
  · rintro (⟨hhead, htail⟩ | ⟨part, hhead, htail⟩ | ⟨part, hhead, htail⟩)
    · exact .sameHead hhead htail
    · obtain ⟨hpr, rfl⟩ := previewHead_eq_append hn hname hhead
      exact .shorterName hpr htail
    · exact .longerName part hhead htail
  · intro h
    cases h with
    | sameHead hhead htail => exact Or.inl ⟨hhead, htail⟩
    | longerName part hhead htail => exact Or.inr (Or.inr ⟨part, hhead, htail⟩)
    | shorterName hhead htail =>
      refine Or.inr (Or.inl ⟨n.toList, ?_, htail⟩)
      rw [hhead]
      rfl

/-- Accepted builds of one Project have one Job name exactly when their tags fold to one text. -/
private theorem jobName_eq_iff {P Q : Project} {b c : BuildStatus} (hname : Q.name = P.name)
    (hvalid : isKubernetesName P.name = true)
    (hb : deriveNewBuildStatus P = .ok (some b)) (hc : deriveNewBuildStatus Q = .ok (some c))
    (hP : (previewPrNumber P).all isNumeric = true)
    (hQ : (previewPrNumber Q).all isNumeric = true) :
    b.jobName = c.jobName ↔ tagHead P ++ joinTail '-' (foldedTrigger b.trigger) =
      tagHead Q ++ joinTail '-' (foldedTrigger c.trigger) := by
  rw [jobName_of_derive hvalid hP hb, jobName_of_derive (hname ▸ hvalid) hQ hc, hname]
  show P.name ++ "-build-" ++ String.ofList _ = P.name ++ "-build-" ++ String.ofList _ ↔ _
  rw [String.append_right_inj, String.ofList_inj]

/-- Accepted builds of one Project keep their names apart exactly when the requests do: a
production and a preview build have different tags and Job names, and builds of one target and
pull request with one Job name have one trigger. -/
theorem build_artifacts_apart_iff {P Q : Project} {b c : BuildStatus} (hname : Q.name = P.name)
    (hvalid : isKubernetesName P.name = true)
    (hb : deriveNewBuildStatus P = .ok (some b)) (hc : deriveNewBuildStatus Q = .ok (some c))
    (hP : (previewPrNumber P).all isNumeric = true)
    (hQ : (previewPrNumber Q).all isNumeric = true) :
    ((b.target ≠ c.target → b.imageTag ≠ c.imageTag ∧ b.jobName ≠ c.jobName) ∧
      (b.target = c.target → b.prNumber = c.prNumber → b.jobName = c.jobName →
        b.trigger = c.trigger)) ↔
    KeptApart P Q := by
  have dB := derivedBuild_of_derive hb
  have dC := derivedBuild_of_derive hc
  have hjob := jobName_eq_iff hname hvalid hb hc hP hQ
  have htag : b.jobName ≠ c.jobName → b.imageTag ≠ c.imageTag := by
    intro hne htag
    apply hne
    rw [dB.jobName, dC.jobName, htag, hname]
  obtain ⟨_, _, hhead, -⟩ := head_foldName hvalid
  have hne : foldName P.name ≠ [] := by
    rw [hhead]
    exact List.cons_ne_nil _ _
  unfold KeptApart requestTrigger
  rw [dB.target, dC.target, dB.prNumber, dC.prNumber, dB.trigger, dC.trigger]
  unfold tagHead at hjob
  simp only [Option.getD_some]
  cases hp : previewPrNumber P with
  | none =>
    cases hq : previewPrNumber Q with
    | none =>
      rw [hp, hq, hname, List.append_cancel_left_eq, joinTail_injective.eq_iff] at hjob
      simp [hjob]
    | some n =>
      rw [hq, Option.all_some] at hQ
      rw [hp, hq, sharesJobName_iff hQ hne] at hjob
      simp only [Option.isSome_none, Option.isSome_some, Bool.false_eq_true, ↓reduceIte, ne_eq,
        reduceCtorEq, not_false_eq_true, true_imp_iff, false_imp_iff, and_true, ← hjob]
      exact ⟨And.right, fun h ↦ ⟨htag h, h⟩⟩
  | some n =>
    rw [hp, Option.all_some] at hP
    cases hq : previewPrNumber Q with
    | none =>
      rw [hp, hq, hname, eq_comm (a := previewHead n ++ _), sharesJobName_iff hP hne] at hjob
      simp only [Option.isSome_none, Option.isSome_some, Bool.false_eq_true, ↓reduceIte, ne_eq,
        reduceCtorEq, not_false_eq_true, true_imp_iff, false_imp_iff, and_true, ← hjob]
      exact ⟨And.right, fun h ↦ ⟨htag h, h⟩⟩
    | some n' =>
      rw [hp, hq] at hjob
      simp only [Option.isSome_some, ↓reduceIte, ne_eq, not_true_eq_false, false_imp_iff,
        true_and, true_imp_iff, Option.some.injEq]
      apply forall_congr'
      rintro rfl
      rw [hjob, List.append_cancel_left_eq, joinTail_injective.eq_iff]

/-- A Project with previews enabled and the given annotations. -/
def annotatedProject (name : String) (annotations : Annotations) : Project :=
  { previewedProject with name := name, annotations := annotations }

/-- A push and a pull request of the Project `api`, for one commit. -/
theorem build_artifacts_apart_iff_api :
    ∃ P Q b c, Q.name = P.name ∧ deriveNewBuildStatus P = .ok (some b) ∧
      deriveNewBuildStatus Q = .ok (some c) ∧ b.target ≠ c.target ∧ b.imageTag ≠ c.imageTag ∧
      b.jobName ≠ c.jobName := by
  let P := annotatedProject "api" ⟨some "abcdef1234567890", none, none, none⟩
  let Q := annotatedProject "api" ⟨some "abcdef1234567890", some "create", some "42", none⟩
  have hapart : KeptApart P Q := by
    intro h
    cases h with
    | sameHead hname _ => exact absurd hname (by decide)
    | longerName part hname _ =>
      have hP : foldName P.name = ['a', 'p', 'i'] := by decide
      rw [hP, previewHead] at hname
      simp at hname
    | shorterName hname _ => exact absurd hname (by decide)
  have h := (build_artifacts_apart_iff (P := P) (Q := Q) rfl (by decide) rfl rfl (by decide)
    (by decide)).mpr hapart
  exact ⟨P, Q, _, _, rfl, rfl, rfl, by decide, h.1 (by decide)⟩

/-- In a Project named `pr-5` the image of pull request 5 is the production image. -/
theorem build_artifacts_shared :
    ¬ ∀ P Q b c, Q.name = P.name → isKubernetesName P.name = true →
      deriveNewBuildStatus P = .ok (some b) → deriveNewBuildStatus Q = .ok (some c) →
      (previewPrNumber P).all isNumeric = true → (previewPrNumber Q).all isNumeric = true →
      (b.target ≠ c.target → b.imageTag ≠ c.imageTag ∧ b.jobName ≠ c.jobName) ∧
        (b.target = c.target → b.prNumber = c.prNumber → b.jobName = c.jobName →
          b.trigger = c.trigger) := by
  intro h
  have := h (annotatedProject "pr-5" ⟨some "abcdef12", none, none, none⟩)
    (annotatedProject "pr-5" ⟨some "abcdef12", some "create", some "5", none⟩) _ _ rfl
    (by decide) rfl rfl (by decide) (by decide)
  exact absurd (this.1 (by decide)).1 (by decide)

end ReinhardtCloud.Operator

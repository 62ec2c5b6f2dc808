import ReinhardtCloud.Base.Affixes
import ReinhardtCloud.Base.DottedNames
import ReinhardtCloud.Base.HostNames
import ReinhardtCloud.Operator.ArtifactNames
import ReinhardtCloud.Operator.Migration
import ReinhardtCloud.Operator.Tenants

/-!
# Which Job names the API server admits

Library `Operator`. The names of `migration_job_name` (`resources/migration.rs:57–67`) and, through
`derive_new_build_status`, of `build_job_name` (`resources/source.rs:90–110`) for a Project with
an admitted name. The first cuts the Project's name off at 38 characters and trims dashes, the
second keeps it whole.
-/

namespace ReinhardtCloud.Operator

open ReinhardtCloud.Base

/-! ## Admitted names -/

theorem dns1123_separators : Separators isDns1123Alphanumeric '-' '.' where
  wordDash := by decide
  wordDot := by decide
  ne := by decide

private theorem toNat_le_of_dns1123 {c : Char}
    (h : isDns1123Alphanumeric c = true ∨ c = '-' ∨ c = '.') : c.val.toNat ≤ 127 := by
  rcases h with h | rfl | rfl
  · have hc := isDns1123Alphanumeric_iff.mp h
    show c.toNat ≤ 127
    omega
  · decide
  · decide

private theorem zip_tail_all_iff {α : Type} {p : α × α → Bool} {l : List α} :
    (l.zip l.tail).all p = true ↔ l.IsChain fun c d ↦ p (c, d) = true := by
  induction l with
  | nil => simp
  | cons c l ih =>
    cases l with
    | nil => simp
    | cons d l =>
      rw [List.tail_cons, List.zip_cons_cons, List.all_cons, Bool.and_eq_true,
        List.isChain_cons_cons]
      exact and_congr_right fun _ ↦ ih

/-- An object's name is a dotted name of at most 253 bytes. -/
theorem isKubernetesName_iff {name : String} :
    isKubernetesName name = true ↔
      name.utf8ByteSize ≤ 253 ∧ DottedName isDns1123Alphanumeric '-' '.' name.toList := by
  have hchain : (name.toList.zip name.toList.tail).all (fun cd ↦
        (cd.1 ≠ '.' || isDns1123Alphanumeric cd.2) && (cd.2 ≠ '.' || isDns1123Alphanumeric cd.1)) =
          true ↔
      name.toList.IsChain fun c d ↦ (c = '.' → isDns1123Alphanumeric d = true) ∧
        (d = '.' → isDns1123Alphanumeric c = true) := by
    rw [zip_tail_all_iff]
    simp only [Bool.and_eq_true, Bool.or_eq_true, ne_eq, decide_eq_true_eq, ← imp_iff_not_or]
  simp only [isKubernetesName, Bool.and_eq_true, decide_eq_true_eq]
  rw [hchain]
  constructor
  · rintro ⟨⟨⟨⟨hsize, hhead⟩, hlast⟩, hchars⟩, hjoined⟩
    refine ⟨hsize, ⟨hhead, ?_, hjoined⟩, hlast⟩
    intro c hc
    have := List.all_eq_true.mp hchars c hc
    simpa only [Bool.or_eq_true, decide_eq_true_eq, or_assoc] using this
  · rintro ⟨hsize, ⟨hhead, hchars, hjoined⟩, hlast⟩
    refine ⟨⟨⟨⟨hsize, hhead⟩, hlast⟩, ?_⟩, hjoined⟩
    apply List.all_eq_true.mpr
    intro c hc
    simpa only [Bool.or_eq_true, decide_eq_true_eq, or_assoc] using hchars c hc

/-- A Job's name is a dotted name of at most 63 characters, which are ASCII. -/
theorem isJobName_iff {name : String} :
    isJobName name = true ↔
      name.toList.length ≤ 63 ∧ DottedName isDns1123Alphanumeric '-' '.' name.toList := by
  rw [isJobName, Bool.and_eq_true, decide_eq_true_eq, isKubernetesName_iff, String.length_toList]
  constructor
  · rintro ⟨hlength, -, hname⟩
    exact ⟨hlength, hname⟩
  · rintro ⟨hlength, hname⟩
    have hsize := utf8ByteSize_of_ascii fun c hc ↦ toNat_le_of_dns1123 (hname.chars c hc)
    rw [String.ofList_toList, String.length_toList] at hsize
    exact ⟨hlength, by omega, hname⟩

/-! ## Migration Jobs -/

/-- The front of an admitted name is cut off and trimmed at its end only. -/
theorem toList_truncatedName {name : String} (h : isKubernetesName name = true) {n : Nat}
    (hn : 0 < n) : (truncatedName name n).toList = cutName '-' n name.toList := by
  obtain ⟨-, hname⟩ := isKubernetesName_iff.mp h
  have htrim : trimDashes (name.toList.take n) = cutName '-' n name.toList := by
    have hhead := hname.head
    cases hl : name.toList with
    | nil => exact absurd hl hname.ne_nil
    | cons c rest =>
      have hc : c ≠ '-' := by
        rintro rfl
        rw [hl, List.head?_cons, Option.any_some, dns1123_separators.wordDash] at hhead
        cases hhead
      obtain ⟨m, rfl⟩ := Nat.exists_eq_succ_of_ne_zero (Nat.ne_of_gt hn)
      rw [cutName, List.rdropWhile, trimDashes, List.take_succ_cons,
        List.dropWhile_cons_of_neg (by simpa using hc)]
  have hne : (cutName '-' n name.toList).isEmpty = false := by
    rw [List.isEmpty_eq_false_iff]
    exact cutName_ne_nil dns1123_separators hname.toDottedStem hn
  simp only [truncatedName, htrim, hne, Bool.false_eq_true, ↓reduceIte]
  rw [String.toList_ofList]

/-- A migration Job's name is admitted exactly when the Project's name has no dot where it is cut
off. -/
theorem isJobName_migrationJobName_iff {app : Project} (hvalid : isKubernetesName app.name = true)
    (revisionKey : String) :
    isJobName (migrationJobName app revisionKey) = true ↔ app.name.toList[37]? ≠ some '.' := by
  obtain ⟨-, hname⟩ := isKubernetesName_iff.mp hvalid
  have hstem : DottedStem isDns1123Alphanumeric '-' '.' (cutName '-' 38 app.name.toList) :=
    hname.toDottedStem.front (cutName_isPrefix _ _ _)
      (cutName_ne_nil dns1123_separators hname.toDottedStem (by decide))
  have hid := length_migrationRevisionId revisionKey
  have hchars : ∀ c ∈ "migrate-".toList ++ (migrationRevisionId revisionKey).toList,
      isDns1123Alphanumeric c = true ∨ c = '-' := by
    intro c hc
    rcases List.mem_append.mp hc with hc | hc
    · have hall : ("migrate-".toList.all fun c ↦ isDns1123Alphanumeric c || c = '-') = true := by
        decide
      simpa using List.all_eq_true.mp hall c hc
    · exact .inl (isDns1123Alphanumeric_of_isLowerHexDigit (isLowerHexDigit_of_mem_hexEncode hc))
  have hlast : ("migrate-".toList ++ (migrationRevisionId revisionKey).toList).getLast?.any
      isDns1123Alphanumeric = true := by
    have hne : (migrationRevisionId revisionKey).toList ≠ [] := by
      intro hnil
      rw [hnil] at hid
      cases hid
    rw [List.getLast?_append_of_ne_nil _ hne, List.getLast?_eq_some_getLast hne, Option.any_some]
    exact isDns1123Alphanumeric_of_isLowerHexDigit
      (isLowerHexDigit_of_mem_hexEncode (List.getLast_mem hne))
  have hlength : (cutName '-' 38 app.name.toList).length ≤ 38 := by
    rw [cutName]
    have hcut := (List.rdropWhile_prefix (· = '-') (app.name.toList.take 38)).length_le
    rw [List.length_take] at hcut
    omega
  have hdash : "-migrate-".toList = '-' :: "migrate-".toList := by decide
  have hmigrate : "migrate-".toList.length = 8 := by decide
  rw [isJobName_iff, toList_migrationJobName, toList_truncatedName hvalid (by decide), hdash,
    List.cons_append, hstem.append_iff dns1123_separators hchars hlast, Ne,
    getLast?_cutName dns1123_separators hname (by decide), List.length_append, List.length_cons,
    List.length_append, hid, hmigrate]
  exact and_iff_right (by omega)

/-! ## Build Jobs -/

/-- How many of a trigger's first eight characters a Job name keeps: those up to the last ASCII
letter or digit among them. -/
def keptTriggerLength (trigger : String) : Nat :=
  ((trigger.toList.take 8).rdropWhile fun c ↦ !c.isAlphanum).length

/-- How long the name of the requested build's Job is: the Project's name, `-build-`, the name
again or `pr-` and the number, and what is kept of the trigger behind a dash. -/
def buildNameLength (app : Project) : Nat :=
  let head := match previewPrNumber app with
    | some n => "pr-".length + n.length
    | none => app.name.length
  let kept := keptTriggerLength (requestTrigger app)
  app.name.length + "-build-".length + head + if kept = 0 then 0 else kept + 1

/-- A letter or a digit is folded to one. -/
private theorem dns1123_foldChar {c : Char} (h : c.isAlphanum = true) :
    isDns1123Alphanumeric (foldChar c) = true := by
  rw [foldChar, h, Bool.true_or, if_pos rfl]
  exact isDns1123Alphanumeric_toLower h

/-- Everything else is folded to a dash. -/
private theorem foldChar_eq_dash_iff {c : Char} : foldChar c = '-' ↔ c.isAlphanum = false := by
  constructor
  · intro hdash
    by_contra h
    have hdns := dns1123_foldChar (Bool.eq_true_of_not_eq_false h)
    rw [hdash, dns1123_separators.wordDash] at hdns
    cases hdns
  · intro h
    by_cases hdash : c = '-'
    · rw [hdash]
      decide
    · rw [foldChar, h, Bool.false_or, if_neg (by simpa using hdash)]

private theorem dns1123_foldName {name : String} {c : Char} (hc : c ∈ foldName name) :
    isDns1123Alphanumeric c = true ∨ c = '-' := by
  obtain ⟨d, -, rfl⟩ := List.mem_map.mp hc
  by_cases h : d.isAlphanum = true
  · exact .inl (dns1123_foldChar h)
  · exact .inr (foldChar_eq_dash_iff.mpr (Bool.eq_false_iff.mpr h))

private theorem length_foldTrigger (trigger : String) :
    (joinTail '-' (foldedTrigger trigger)).length =
      if keptTriggerLength trigger = 0 then 0 else keptTriggerLength trigger + 1 := by
  have hfold : (foldName (takeChars 8 trigger)).rdropWhile (· = '-') =
      ((trigger.toList.take 8).rdropWhile fun c ↦ !c.isAlphanum).map foldChar := by
    have hp : ((fun c ↦ decide (c = '-')) ∘ foldChar) = fun c ↦ !c.isAlphanum := by
      funext c
      rw [Function.comp_apply, Bool.eq_iff_iff, decide_eq_true_eq, foldChar_eq_dash_iff,
        Bool.not_eq_true']
    rw [foldName, takeChars, String.toList_ofList, List.rdropWhile, ← List.map_reverse,
      List.dropWhile_map, hp, ← List.map_reverse]
    rfl
  rw [foldedTrigger, trimmedTail, hfold, keptTriggerLength]
  cases hkept : (trigger.toList.take 8).rdropWhile fun c ↦ !c.isAlphanum with
  | nil => rfl
  | cons c rest =>
    rw [List.map_cons, List.isEmpty_cons, if_neg Bool.false_ne_true, joinTail, List.length_cons,
      List.length_cons, List.length_map, List.length_cons, if_neg (Nat.succ_ne_zero _)]

private theorem dns1123_tagHead {app : Project}
    (hnumeric : (previewPrNumber app).all isNumeric = true) {c : Char} (hc : c ∈ tagHead app) :
    isDns1123Alphanumeric c = true ∨ c = '-' := by
  unfold tagHead at hc
  cases hpr : previewPrNumber app with
  | none =>
    rw [hpr] at hc
    exact dns1123_foldName hc
  | some n =>
    rw [hpr] at hc hnumeric
    rw [Option.all_some] at hnumeric
    rcases List.mem_append.mp hc with hc | hc
    · have hall : ("pr-".toList.all fun c ↦ isDns1123Alphanumeric c || c = '-') = true := by
        decide
      simpa using List.all_eq_true.mp hall c hc
    · exact .inl (alphanumeric_of_digit (List.all_eq_true.mp hnumeric c hc))

private theorem dns1123_joinTail {trigger : String} {c : Char}
    (hc : c ∈ joinTail '-' (foldedTrigger trigger)) : isDns1123Alphanumeric c = true ∨ c = '-' := by
  cases htail : foldedTrigger trigger with
  | none =>
    rw [htail] at hc
    cases hc
  | some tail =>
    rw [htail, joinTail, List.mem_cons] at hc
    rcases hc with rfl | hc
    · exact .inr rfl
    · simp only [foldedTrigger, trimmedTail, Option.ite_none_left_eq_some,
        Option.some.injEq] at htail
      obtain ⟨-, rfl⟩ := htail
      exact dns1123_foldName ((List.rdropWhile_prefix _ _).subset hc)

/-- A build Job's name is admitted exactly when it fits. -/
theorem isJobName_jobName_iff {app : Project} {b : BuildStatus}
    (hvalid : isKubernetesName app.name = true)
    (hnumeric : (previewPrNumber app).all isNumeric = true)
    (h : deriveNewBuildStatus app = .ok (some b)) :
    isJobName b.jobName = true ↔ buildNameLength app ≤ 63 := by
  obtain ⟨-, hname⟩ := isKubernetesName_iff.mp hvalid
  have hends := (tagHead_ends hvalid hnumeric).2
  have htext : b.jobName.toList = app.name.toList ++ '-' :: ("build-".toList ++
      (tagHead app ++ joinTail '-' (foldedTrigger b.trigger))) := by
    have hdash : "-build-".toList = '-' :: "build-".toList := by decide
    have htail := @String.toList_ofList (tagHead app ++ joinTail '-' (foldedTrigger b.trigger))
    rw [jobName_of_derive hvalid hnumeric h, String.toList_append, String.toList_append, htail,
      hdash, List.append_assoc, List.cons_append]
  have hchars : ∀ c ∈ "build-".toList ++ (tagHead app ++ joinTail '-' (foldedTrigger b.trigger)),
      isDns1123Alphanumeric c = true ∨ c = '-' := by
    intro c hc
    rcases List.mem_append.mp hc with hc | hc
    · have hall : ("build-".toList.all fun c ↦ isDns1123Alphanumeric c || c = '-') = true := by
        decide
      simpa using List.all_eq_true.mp hall c hc
    · rcases List.mem_append.mp hc with hc | hc
      · exact dns1123_tagHead hnumeric hc
      · exact dns1123_joinTail hc
  have hlast : ("build-".toList ++
      (tagHead app ++ joinTail '-' (foldedTrigger b.trigger))).getLast?.any
        isDns1123Alphanumeric = true := by
    obtain ⟨c, hc, hdash⟩ := Option.any_eq_true _ _ |>.mp
      (getLast?_join hends (foldName (takeChars 8 b.trigger)))
    have hgetLast : ("build-".toList ++
        (tagHead app ++ joinTail '-' (foldedTrigger b.trigger))).getLast? = some c := by
      rw [List.getLast?_append, foldedTrigger, hc, Option.some_or]
    rw [hgetLast, Option.any_some]
    apply (hchars c (List.mem_of_getLast? hgetLast)).resolve_right
    simpa using hdash
  have hfit : (app.name.toList ++ '-' :: ("build-".toList ++
      (tagHead app ++ joinTail '-' (foldedTrigger b.trigger)))).length = buildNameLength app := by
    have htrigger : requestTrigger app = b.trigger := by
      rw [requestTrigger, (derivedBuild_of_derive h).trigger, Option.getD_some]
    have hhead : (tagHead app).length = match previewPrNumber app with
        | some n => "pr-".length + n.length
        | none => app.name.length := by
      unfold tagHead
      cases previewPrNumber app with
      | none => exact List.length_map _
      | some n => exact List.length_append
    have hbuild : "-build-".length = "build-".toList.length + 1 := by decide
    rw [List.length_append, List.length_cons, List.length_append, List.length_append,
      length_foldTrigger, hhead, buildNameLength, htrigger, hbuild, String.length_toList]
    omega
  rw [isJobName_iff, htext, hname.toDottedStem.append_iff dns1123_separators hchars hlast, hfit]
  apply and_iff_left
  intro hdot
  have hend := hname.last
  rw [hdot, Option.any_some, dns1123_separators.wordDot] at hend
  cases hend

/-! ## Both -/

/-- The migration Jobs of a Project are admitted exactly when its name has no dot at the place
where it is cut off, and the Job of an accepted build exactly when its parts fit. -/
theorem jobNames_admitted_iff {app : Project} (hvalid : isKubernetesName app.name = true)
    (hnumeric : (previewPrNumber app).all isNumeric = true) :
    (∀ revisionKey, isJobName (migrationJobName app revisionKey) = true ↔
      app.name.toList[37]? ≠ some '.') ∧
      ∀ b, deriveNewBuildStatus app = .ok (some b) →
        (isJobName b.jobName = true ↔ buildNameLength app ≤ 63) :=
  ⟨isJobName_migrationJobName_iff hvalid, fun _ ↦ isJobName_jobName_iff hvalid hnumeric⟩

/-- A push to the Project `shop.example`. -/
theorem jobNames_admitted_shop :
    ∃ app b, deriveNewBuildStatus app = .ok (some b) ∧ isJobName b.jobName = true ∧
      isJobName (migrationJobName app (migrationRevisionKey app)) = true := by
  let app := annotatedProject "shop.example" ⟨some "abcdef1234567890", none, none, none⟩
  have h := jobNames_admitted_iff (by decide : isKubernetesName app.name = true) (by decide)
  exact ⟨app, _, rfl, (h.2 _ rfl).mpr (by decide), (h.1 _).mpr (by decide)⟩

/-- A name with a dot at its 38th character makes an inadmissible migration Job, and a name of 24
characters an inadmissible build Job. -/
theorem jobNames_not_admitted :
    (¬ ∀ app : Project, isKubernetesName app.name = true → ∀ revisionKey,
      isJobName (migrationJobName app revisionKey) = true) ∧
    ¬ ∀ (app : Project) (b : BuildStatus), isKubernetesName app.name = true →
      (previewPrNumber app).all isNumeric = true → deriveNewBuildStatus app = .ok (some b) →
        isJobName b.jobName = true := by
  constructor
  · intro h
    have hname := h (annotatedProject "customer-portal-production-deployment.example"
      ⟨none, none, none, none⟩) (by decide) ""
    rw [isJobName_migrationJobName_iff (by decide)] at hname
    exact hname (by decide)
  · intro h
    have hname := h (annotatedProject "customer-portal-frontend"
      ⟨some "abcdef1234567890", none, none, none⟩) _ (by decide) (by decide) rfl
    exact absurd hname (by decide)

end ReinhardtCloud.Operator

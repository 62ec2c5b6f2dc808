import ReinhardtCloud.Cli.ProjectFiles

/-!
# Both project files or neither

Library `Cli`. What replacing `reinhardt-cloud.toml` and the Dockerfile as one unit is to mean,
whichever calls fail, and the failures after which it is not so.
-/

namespace ReinhardtCloud.Cli

open ReinhardtCloud.Base FileSystem

/-- The config of a project. -/
def configPath (dir : String) : FilePath := ⟨dir, "reinhardt-cloud.toml"⟩

/-- The Dockerfile of a project. -/
def dockerfilePath (dir : String) : FilePath := ⟨dir, "Dockerfile"⟩

/-- What is at a path, whatever its permissions. -/
def contentsAt (files : FileSystem FilePath) (path : FilePath) : Option (FileContents FilePath) :=
  (files path).map FileEntry.contents

/-- The step that would restore the Dockerfile fails. -/
def restoringFails (fails : ProjectCall → Bool) (dir : String) (files : FileSystem FilePath) :
    Bool :=
  if (files (dockerfilePath dir)).isSome then fails .moveBack else fails .removeFile

/-- Both files are replaced and nothing else remains, or neither is and the old Dockerfile is not
lost. -/
structure TogetherOrNot (fails : ProjectCall → Bool) (dir config : String)
    (dockerfile : Option String) (files : FileSystem FilePath)
    (result : Except FileError Unit × FileSystem FilePath) : Prop where
  replaced : result.1 = .ok () →
    contentsAt result.2 (configPath dir) = some (.text config) ∧
      (∀ text ∈ dockerfile, contentsAt result.2 (dockerfilePath dir) = some (.text text)) ∧
      ∀ path, path ≠ configPath dir → (dockerfile.isSome → path ≠ dockerfilePath dir) →
        result.2 path = files path
  kept : ∀ error, result.1 = .error error →
    result.2 (configPath dir) = files (configPath dir) ∧
      (restoringFails fails dir files = false →
        result.2 (dockerfilePath dir) = files (dockerfilePath dir)) ∧
      ∀ old, files (dockerfilePath dir) = some old →
        ∃ path, contentsAt result.2 path = some old.contents

/-! ## The condition -/

/-- The old Dockerfile is moved aside: there is one, and nothing fails before. -/
structure MovesAside (fails : ProjectCall → Bool) (names : TemporaryNames) (dir : String)
    (files : FileSystem FilePath) : Prop where
  config : CanStage (fun call ↦ fails (.config call)) (configPath dir) files
  dockerfile : CanStage (fun call ↦ fails (.dockerfile call)) (dockerfilePath dir) files
  lookup : fails .symlinkMetadata = false
  move : fails .moveAside = false
  existing : ∃ old, files (dockerfilePath dir) = some old ∧ old.contents ≠ .directory
  free : ∃ staged staged' backup,
    freePath files [] (stagedPaths names.config (configPath dir)) = some staged ∧
      freePath files [staged] (stagedPaths names.dockerfile (dockerfilePath dir)) = some staged' ∧
      freePath files [staged, staged'] (backupPaths names.backup (dockerfilePath dir)) = some backup

/-- One of the two replacements fails. A directory is not replaced. -/
def replacementFails (fails : ProjectCall → Bool) (dir : String) (files : FileSystem FilePath) :
    Bool :=
  fails (.dockerfile .persist) || fails (.config .persist) ||
    (files (configPath dir)).any (·.contents = .directory)

/-- A text that a failed replacement leaves somewhere: the new Dockerfile's when it is in place or
its staged file cannot be removed, the config's when its staged file cannot be. -/
def LeftOver (fails : ProjectCall → Bool) (config text : String)
    (contents : FileContents FilePath) : Prop :=
  (fails (.dockerfile .persist) = false ∨ fails (.dockerfile .drop) = true) ∧
      contents = .text text ∨
    fails (.config .drop) = true ∧ contents = .text config

/-- The backup is removed when both files are replaced, and when it is the last of the old
Dockerfile it is not. -/
structure BackupHandled (fails : ProjectCall → Bool) (dir config text : String)
    (files : FileSystem FilePath) : Prop where
  removed : replacementFails fails dir files = false → fails .dropBackup = false
  preserved : replacementFails fails dir files = true → fails .moveBack = true →
    fails .dropBackup = true ∨ ∀ old, files (dockerfilePath dir) = some old →
      (∃ path ≠ dockerfilePath dir, contentsAt files path = some old.contents) ∨
        LeftOver fails config text old.contents

/-! ## The replacement -/

/-- Where the staged files are before the replacement. -/
structure Staged (dir config text : String) (t u : FilePath)
    (files before : FileSystem FilePath) : Prop where
  config : contentsAt before t = some (.text config)
  dockerfile : contentsAt before u = some (.text text)
  moved : before (dockerfilePath dir) = none
  kept : before (configPath dir) = files (configPath dir)
  ne : u ≠ t
  configNe : t ≠ configPath dir ∧ u ≠ configPath dir
  dockerfileNe : t ≠ dockerfilePath dir ∧ u ≠ dockerfilePath dir

/-- After a failed replacement. -/
structure NotReplaced (fails : ProjectCall → Bool) (dir config text : String) (t u : FilePath)
    (files before after : FileSystem FilePath) : Prop where
  leftOver : ∀ contents, LeftOver fails config text contents ↔
    ∃ path, (path = t ∨ path = u ∨ path = dockerfilePath dir) ∧
      contentsAt after path = some contents
  config : after (configPath dir) = files (configPath dir)
  dockerfile : after (dockerfilePath dir) = none ∨
    contentsAt after (dockerfilePath dir) = some (.text text)
  others : ∀ path, path ≠ t → path ≠ u → path ≠ dockerfilePath dir → after path = before path

/-- After the replacement. -/
structure Replaced (dir config text : String) (t u : FilePath)
    (before after : FileSystem FilePath) : Prop where
  config : contentsAt after (configPath dir) = some (.text config)
  dockerfile : contentsAt after (dockerfilePath dir) = some (.text text)
  staged : after t = none ∧ after u = none
  others : ∀ path, path ≠ t → path ≠ u → path ≠ dockerfilePath dir → path ≠ configPath dir →
    after path = before path

variable {fails : ProjectCall → Bool} {dir config text : String} {t u : FilePath}
  {files before after : FileSystem FilePath}

theorem contentsAt_eq_some_iff {path : FilePath} {contents : FileContents FilePath} :
    contentsAt files path = some contents ↔
      ∃ entry, files path = some entry ∧ entry.contents = contents := Option.map_eq_some_iff

theorem contentsAt_of_eq {path : FilePath} {entry : FileEntry FilePath}
    (h : files path = some entry) : contentsAt files path = some entry.contents := by
  rw [contentsAt, h, Option.map_some]

theorem contentsAt_absent {path : FilePath} (h : files path = none) :
    contentsAt files path = none := by
  rw [contentsAt, h, Option.map_none]

/-- What dropping a text leaves of it. -/
theorem contentsAt_drop {path : FilePath} {value : String}
    (h : contentsAt files path = some (.text value)) (fails : Bool) :
    contentsAt (drop fails path files) path = if fails then some (.text value) else none := by
  obtain ⟨entry, hentry, hcontents⟩ := contentsAt_eq_some_iff.mp h
  rw [contentsAt, drop_apply_self fails hentry (by rw [hcontents]; exact fun h ↦ by cases h)]
  cases fails with
  | true => exact congrArg some hcontents
  | false => rfl

theorem contentsAt_congr {path : FilePath} (h : after path = before path) :
    contentsAt after path = contentsAt before path := by
  rw [contentsAt, h, contentsAt]

theorem exists_text_iff {path : FilePath} {value : String} {contents : FileContents FilePath}
    {b : Bool} (h : contentsAt files path = if b then some (.text value) else none) :
    contentsAt files path = some contents ↔ b = true ∧ contents = .text value := by
  rw [h]
  cases b with
  | true => exact ⟨fun h ↦ ⟨rfl, (Option.some.inj h).symm⟩, fun h ↦ congrArg some h.2.symm⟩
  | false => exact ⟨fun h ↦ (by cases h), fun h ↦ absurd h.1 Bool.false_ne_true⟩

/-- The Dockerfile's replacement fails: both staged files are dropped. -/
theorem notReplaced_dockerfile (h : Staged dir config text t u files before)
    (hfails : fails (.dockerfile .persist) = true) :
    NotReplaced fails dir config text t u files before
      (Replacement.dropStaged fails ⟨configPath dir, dockerfilePath dir, t, u⟩ before) := by
  obtain ⟨hconfig, hdockerfile, hmoved, hkept, hne, ⟨htc, huc⟩, htd, hud⟩ := h
  have hothers : ∀ path, path ≠ t → path ≠ u →
      Replacement.dropStaged fails ⟨configPath dir, dockerfilePath dir, t, u⟩ before path =
        before path := by
    intro path ht hu
    rw [Replacement.dropStaged, drop_apply_of_ne _ ht, drop_apply_of_ne _ hu]
  have hnone := (hothers _ htd.symm hud.symm).trans hmoved
  have hstaged := contentsAt_drop
    ((contentsAt_congr (drop_apply_of_ne (fails (.dockerfile .drop)) hne.symm)).trans hconfig)
    (fails (.config .drop))
  have hstaged' : contentsAt (Replacement.dropStaged fails
      ⟨configPath dir, dockerfilePath dir, t, u⟩ before) u =
        if fails (.dockerfile .drop) then some (.text text) else none := by
    rw [Replacement.dropStaged, contentsAt_congr (drop_apply_of_ne _ hne)]
    exact contentsAt_drop hdockerfile _
  refine ⟨?_, ?_, .inl hnone, fun path ht hu _ ↦ hothers path ht hu⟩
  · intro contents
    rw [LeftOver, hfails]
    constructor
    · rintro (⟨hdrop | hdrop, rfl⟩ | ⟨hdrop, rfl⟩)
      · cases hdrop
      · exact ⟨u, .inr (.inl rfl), (exists_text_iff hstaged').mpr ⟨hdrop, rfl⟩⟩
      · exact ⟨t, .inl rfl, (exists_text_iff hstaged).mpr ⟨hdrop, rfl⟩⟩
    · rintro ⟨path, rfl | rfl | rfl, hcontents⟩
      · exact .inr ((exists_text_iff hstaged).mp hcontents)
      · obtain ⟨hdrop, htext⟩ := (exists_text_iff hstaged').mp hcontents
        exact .inl ⟨.inr hdrop, htext⟩
      · rw [contentsAt_absent hnone] at hcontents
        cases hcontents
  · rw [hothers _ htc.symm huc.symm, hkept]

/-- The new Dockerfile in place. -/
theorem dockerfile_replaced (h : Staged dir config text t u files before)
    {entry : FileEntry FilePath} (hentry : before u = some entry) :
    contentsAt before t = contentsAt (Function.update (Function.update before u none)
        (dockerfilePath dir) (some entry)) t ∧
      Function.update (Function.update before u none) (dockerfilePath dir) (some entry) u = none ∧
      contentsAt (Function.update (Function.update before u none) (dockerfilePath dir)
        (some entry)) (dockerfilePath dir) = some (.text text) ∧
      Function.update (Function.update before u none) (dockerfilePath dir) (some entry)
        (configPath dir) = files (configPath dir) ∧
      ∀ path, path ≠ u → path ≠ dockerfilePath dir →
        Function.update (Function.update before u none) (dockerfilePath dir) (some entry) path =
          before path := by
  obtain ⟨hconfig, hdockerfile, hmoved, hkept, hne, ⟨htc, huc⟩, htd, hud⟩ := h
  have hothers : ∀ path, path ≠ u → path ≠ dockerfilePath dir →
      Function.update (Function.update before u none) (dockerfilePath dir) (some entry) path =
        before path := by
    intro path hu hd
    rw [Function.update_of_ne hd, Function.update_of_ne hu]
  refine ⟨(contentsAt_congr (hothers t hne.symm htd)).symm, ?_, ?_, ?_, hothers⟩
  · rw [Function.update_of_ne hud, Function.update_self]
  · rw [contentsAt, Function.update_self, ← hentry]
    exact hdockerfile
  · have hcd : configPath dir ≠ dockerfilePath dir := by
      intro h
      exact absurd (congrArg FilePath.name h) (by decide : "reinhardt-cloud.toml" ≠ "Dockerfile")
    rw [hothers _ huc.symm hcd, hkept]

/-- The config's replacement fails: the new Dockerfile is in place. -/
theorem notReplaced_config (h : Staged dir config text t u files before)
    {entry : FileEntry FilePath} (hentry : before u = some entry)
    (hfails : fails (.dockerfile .persist) = false) :
    NotReplaced fails dir config text t u files before
      (drop (fails (.config .drop)) t
        (Function.update (Function.update before u none) (dockerfilePath dir) (some entry))) := by
  obtain ⟨hstaged, hgone, hplaced, hkept, hothers⟩ := dockerfile_replaced h hentry
  obtain ⟨hconfig, -, -, -, hne, ⟨htc, -⟩, htd, -⟩ := h
  have hdropped : ∀ path, path ≠ t → drop (fails (.config .drop)) t
      (Function.update (Function.update before u none) (dockerfilePath dir) (some entry)) path =
        Function.update (Function.update before u none) (dockerfilePath dir) (some entry) path :=
    fun path hpath ↦ drop_apply_of_ne _ hpath
  have hplaced' := (contentsAt_congr (hdropped _ htd.symm)).trans hplaced
  have hleft := contentsAt_drop (hstaged.symm.trans hconfig) (fails (.config .drop))
  refine ⟨?_, ?_, .inr hplaced', ?_⟩
  · intro contents
    rw [LeftOver, hfails]
    constructor
    · rintro (⟨-, rfl⟩ | ⟨hdrop, rfl⟩)
      · exact ⟨_, .inr (.inr rfl), hplaced'⟩
      · exact ⟨t, .inl rfl, (exists_text_iff hleft).mpr ⟨hdrop, rfl⟩⟩
    · rintro ⟨path, rfl | rfl | rfl, hcontents⟩
      · exact .inr ((exists_text_iff hleft).mp hcontents)
      · rw [contentsAt_absent ((hdropped _ hne).trans hgone)] at hcontents
        cases hcontents
      · rw [hplaced'] at hcontents
        exact .inl ⟨.inl rfl, (Option.some.inj hcontents).symm⟩
  · rw [hdropped _ htc.symm, hkept]
  · intro path ht hu hd
    rw [hdropped path ht, hothers path hu hd]

theorem replaced_cases (fails : ProjectCall → Bool)
    (h : Staged dir config text t u files before) :
    (∃ error after, Replacement.replaced fails ⟨configPath dir, dockerfilePath dir, t, u⟩ before =
        (.error error, after) ∧ replacementFails fails dir files = true ∧
        NotReplaced fails dir config text t u files before after) ∨
      ∃ after, Replacement.replaced fails ⟨configPath dir, dockerfilePath dir, t, u⟩ before =
        (.ok (), after) ∧ replacementFails fails dir files = false ∧
        Replaced dir config text t u before after := by
  obtain ⟨entry, hentry, hentryContents⟩ := contentsAt_eq_some_iff.mp h.dockerfile
  cases hpersist : fails (.dockerfile .persist) with
  | true =>
    left
    refine ⟨.other, _, ?_, ?_, notReplaced_dockerfile h hpersist⟩
    · rw [Replacement.replaced, hpersist, attempt_true]
    · rw [replacementFails, hpersist, Bool.true_or, Bool.true_or]
  | false =>
    have hmove : attempt (fails (.dockerfile .persist)) (rename u (dockerfilePath dir)) before =
        .ok (Function.update (Function.update before u none) (dockerfilePath dir)
          (some entry)) := by
      rw [hpersist, attempt_false, rename_eq_ok hentry]
      intro e he
      rw [h.moved] at he
      cases he
    obtain ⟨hstaged, hgone, hplaced, hkept, hothers⟩ := dockerfile_replaced h hentry
    obtain ⟨entry', hentry', hcontents'⟩ :=
      contentsAt_eq_some_iff.mp (hstaged.symm.trans h.config)
    have hnot := notReplaced_config h hentry hpersist
    rw [Replacement.replaced]
    dsimp only
    rw [hmove, replacementFails, hpersist, Bool.false_or]
    dsimp only
    cases hconfig : fails (.config .persist) with
    | true => exact .inl ⟨.other, _, rfl, Bool.true_or _, hnot⟩
    | false =>
      rw [attempt_false, Bool.false_or]
      cases hdirectory : (files (configPath dir)).any (·.contents = .directory) with
      | true =>
        left
        rw [rename_onto_directory hentry' (by rw [hkept]; exact hdirectory)]
        exact ⟨_, _, rfl, rfl, hnot⟩
      | false =>
        right
        rw [rename_eq_ok hentry']
        · refine ⟨_, rfl, rfl, ?_⟩
          have hcd : dockerfilePath dir ≠ configPath dir := by
            intro h
            exact absurd (congrArg FilePath.name h)
              (by decide : "Dockerfile" ≠ "reinhardt-cloud.toml")
          refine ⟨?_, ?_, ⟨?_, ?_⟩, ?_⟩
          · rw [contentsAt, Function.update_self, Option.map_some, hcontents']
          · rw [contentsAt, Function.update_of_ne hcd, Function.update_of_ne h.dockerfileNe.1.symm]
            exact hplaced
          · rw [Function.update_of_ne h.configNe.1, Function.update_self]
          · rw [Function.update_of_ne h.configNe.2, Function.update_of_ne h.ne, hgone]
          · intro path ht hu hd hc
            rw [Function.update_of_ne hc, Function.update_of_ne ht, hothers path hu hd]
        · intro e he hcontents
          rw [hkept] at he
          rw [he, Option.any_some, decide_eq_false_iff_not] at hdirectory
          exact hdirectory hcontents

/-! ## Without a Dockerfile before -/

/-- A text at a path is a file there. -/
theorem isFile_of_contentsAt {path : FilePath} {value : String}
    (h : contentsAt files path = some (.text value)) : isFile path files = true := by
  obtain ⟨⟨contents, mode⟩, hentry, rfl⟩ := contentsAt_eq_some_iff.mp h
  rw [isFile, follow_entry 40 hentry rfl]

theorem isFile_absent {path : FilePath} (h : files path = none) : isFile path files = false := by
  rw [isFile, follow_absent 40 h]

theorem restoringFails_of_absent (h : files (dockerfilePath dir) = none) :
    restoringFails fails dir files = fails .removeFile := by
  rw [restoringFails, h]
  rfl

theorem configPath_ne : configPath dir ≠ dockerfilePath dir := by
  intro h
  exact absurd (congrArg FilePath.name h) (by decide : "reinhardt-cloud.toml" ≠ "Dockerfile")

/-- An error with the config and the Dockerfile as they were. -/
theorem together_of_unchanged {dockerfile : Option String} {error : FileError}
    (hconfig : after (configPath dir) = files (configPath dir))
    (hdockerfile : after (dockerfilePath dir) = files (dockerfilePath dir)) :
    TogetherOrNot fails dir config dockerfile files (.error error, after) := by
  constructor
  · intro h
    cases h
  · intro _ _
    refine ⟨hconfig, fun _ ↦ hdockerfile, fun old hold ↦ ⟨dockerfilePath dir, ?_⟩⟩
    exact contentsAt_of_eq (hdockerfile.trans hold)

/-- Success with the new contents in place and nothing else changed. -/
theorem together_of_replaced (h : Replaced dir config text t u before after)
    (hothers : ∀ path, path ≠ t → path ≠ u → path ≠ dockerfilePath dir → path ≠ configPath dir →
      before path = files path) (ht : files t = none) (hu : files u = none) :
    TogetherOrNot fails dir config (some text) files (.ok (), after) := by
  constructor
  · intro _
    refine ⟨h.config, ?_, ?_⟩
    · intro text' htext
      obtain rfl := Option.some.inj htext
      exact h.dockerfile
    · intro path hc hd
      by_cases hpt : path = t
      · rw [hpt, ht]
        exact h.staged.1
      · by_cases hpu : path = u
        · rw [hpu, hu]
          exact h.staged.2
        · exact (h.others path hpt hpu (hd rfl) hc).trans (hothers path hpt hpu (hd rfl) hc)
  · intro error h
    cases h

theorem finish_none_together (h : Staged dir config text t u files before)
    (hothers : ∀ path, path ≠ t → path ≠ u → before path = files path)
    (ht : files t = none) (hu : files u = none) :
    TogetherOrNot fails dir config (some text) files
      (Replacement.finish fails ⟨configPath dir, dockerfilePath dir, t, u⟩ none before) := by
  have hnone : files (dockerfilePath dir) = none := by
    rw [← hothers _ h.dockerfileNe.1.symm h.dockerfileNe.2.symm, h.moved]
  rcases replaced_cases fails h with ⟨error, after, hrun, -, hnot⟩ | ⟨after, hrun, -, hreplaced⟩
  · rw [Replacement.finish, hrun]
    dsimp only
    rw [Replacement.restore]
    dsimp only
    rcases hnot.dockerfile with hd | hd
    · rw [isFile_absent hd, if_neg Bool.false_ne_true]
      exact together_of_unchanged hnot.config (hd.trans hnone.symm)
    · rw [isFile_of_contentsAt hd, if_pos rfl]
      cases hremove : fails .removeFile with
      | true =>
        rw [attempt_true]
        constructor
        · intro h
          cases h
        · intro _ _
          refine ⟨hnot.config, fun hrestoring ↦ ?_, fun old hold ↦ ?_⟩
          · rw [restoringFails_of_absent hnone, hremove] at hrestoring
            cases hrestoring
          · rw [hnone] at hold
            cases hold
      | false =>
        obtain ⟨entry, hentry, hcontents⟩ := contentsAt_eq_some_iff.mp hd
        rw [attempt_false, remove_eq_ok hentry (by rw [hcontents]; exact fun h ↦ by cases h)]
        dsimp only [Replacement.dropBackup]
        apply together_of_unchanged
        · rw [Function.update_of_ne configPath_ne, hnot.config]
        · rw [Function.update_self, hnone]
  · rw [Replacement.finish, hrun]
    exact together_of_replaced hreplaced (fun path hpt hpu _ _ ↦ hothers path hpt hpu) ht hu

/-! ## With the old Dockerfile aside -/

variable {b : FilePath} {old : FileEntry FilePath}

/-- The state after the move of the old Dockerfile. -/
structure Aside (dir : String) (t u b : FilePath) (old : FileEntry FilePath)
    (files before : FileSystem FilePath) : Prop where
  backup : before b = some old
  notDirectory : old.contents ≠ .directory
  existing : files (dockerfilePath dir) = some old
  free : files t = none ∧ files u = none ∧ files b = none
  ne : b ≠ t ∧ b ≠ u ∧ b ≠ dockerfilePath dir ∧ b ≠ configPath dir
  others : ∀ path, path ≠ t → path ≠ u → path ≠ b → path ≠ dockerfilePath dir →
    before path = files path

/-- Without the backup the old contents are left where another entry has them. -/
theorem exists_contents_iff (ha : Aside dir t u b old files before)
    (hnot : NotReplaced fails dir config text t u files before after) :
    (∃ path, contentsAt (Function.update after b none) path = some old.contents) ↔
      (∃ path ≠ dockerfilePath dir, contentsAt files path = some old.contents) ∨
        LeftOver fails config text old.contents := by
  rw [hnot.leftOver]
  obtain ⟨hbt, hbu, hbd, -⟩ := ha.ne
  constructor
  · rintro ⟨path, hcontents⟩
    by_cases hpb : path = b
    · rw [hpb, contentsAt_absent (Function.update_self ..)] at hcontents
      cases hcontents
    · rw [contentsAt_congr (Function.update_of_ne hpb _ _)] at hcontents
      by_cases hstaged : path = t ∨ path = u ∨ path = dockerfilePath dir
      · exact .inr ⟨path, hstaged, hcontents⟩
      · rw [not_or, not_or] at hstaged
        obtain ⟨hpt, hpu, hpd⟩ := hstaged
        rw [contentsAt_congr
          ((hnot.others path hpt hpu hpd).trans (ha.others path hpt hpu hpb hpd))]
          at hcontents
        exact .inl ⟨path, hpd, hcontents⟩
  · rintro (⟨path, hpd, hcontents⟩ | ⟨path, hstaged, hcontents⟩)
    · have hsome : ∀ q, files q = none → path ≠ q := by
        rintro q hq rfl
        rw [contentsAt_absent hq] at hcontents
        cases hcontents
      have hpt := hsome t ha.free.1
      have hpu := hsome u ha.free.2.1
      have hpb := hsome b ha.free.2.2
      refine ⟨path, ?_⟩
      rw [contentsAt_congr (Function.update_of_ne hpb _ _),
        contentsAt_congr ((hnot.others path hpt hpu hpd).trans (ha.others path hpt hpu hpb hpd))]
      exact hcontents
    · refine ⟨path, ?_⟩
      rw [contentsAt_congr (Function.update_of_ne ?_ _ _)]
      · exact hcontents
      · rcases hstaged with rfl | rfl | rfl
        · exact hbt.symm
        · exact hbu.symm
        · exact hbd.symm

theorem finish_some_together_iff (h : Staged dir config text t u files before)
    (ha : Aside dir t u b old files before) :
    TogetherOrNot fails dir config (some text) files
        (Replacement.finish fails ⟨configPath dir, dockerfilePath dir, t, u⟩ (some b) before) ↔
      BackupHandled fails dir config text files := by
  obtain ⟨hbt, hbu, hbd, hbc⟩ := ha.ne
  rcases replaced_cases fails h with
    ⟨error, after, hrun, hfails, hnot⟩ | ⟨after, hrun, hok, hreplaced⟩
  · have hafter : after b = some old := (hnot.others b hbt hbu hbd).trans ha.backup
    rw [Replacement.finish, hrun]
    dsimp only [Replacement.restore, Replacement.dropBackup]
    cases hback : fails .moveBack with
    | true =>
      rw [attempt_true]
      dsimp only
      have hrestoring : restoringFails fails dir files = true := by
        rw [restoringFails, ha.existing]
        exact hback
      cases hdrop : fails .dropBackup with
      | true =>
        -- The backup cannot be removed: the old Dockerfile is still there.
        refine iff_of_true ⟨fun h ↦ (by cases h), ?_⟩ ⟨?_, fun _ _ ↦ .inl hdrop⟩
        · intro _ _
          refine ⟨hnot.config, fun hr ↦ ?_, fun old' hold ↦ ⟨b, ?_⟩⟩
          · rw [hrestoring] at hr
            cases hr
          · rw [ha.existing] at hold
            rw [← Option.some.inj hold]
            exact contentsAt_of_eq hafter
        · intro hreplaces
          rw [hfails] at hreplaces
          cases hreplaces
      | false =>
        rw [drop_false hafter ha.notDirectory]
        constructor
        · intro htogether
          refine ⟨?_, fun _ _ ↦ .inr fun old' hold ↦ ?_⟩
          · intro _
            exact hdrop
          · rw [ha.existing] at hold
            obtain rfl := Option.some.inj hold
            exact (exists_contents_iff ha hnot).mp
              ((htogether.kept .other rfl).2.2 old ha.existing)
        · intro hhandled
          refine ⟨fun h ↦ (by cases h), ?_⟩
          intro _ _
          refine ⟨?_, fun hr ↦ ?_, fun old' hold ↦ ?_⟩
          · dsimp only
            rw [Function.update_of_ne hbc.symm, hnot.config]
          · rw [hrestoring] at hr
            cases hr
          · rw [ha.existing] at hold
            obtain rfl := Option.some.inj hold
            rcases hhandled.preserved hfails hback with hd | hkept
            · rw [hdrop] at hd
              cases hd
            · exact (exists_contents_iff ha hnot).mpr (hkept old ha.existing)
    | false =>
      -- The old Dockerfile is back, and its backup's path is empty.
      have hplace : ∀ e, after (dockerfilePath dir) = some e → e.contents ≠ .directory := by
        intro e he hdirectory
        rcases hnot.dockerfile with hd | hd
        · rw [he] at hd
          cases hd
        · rw [contentsAt_of_eq he, hdirectory] at hd
          cases hd
      rw [attempt_false, rename_eq_ok hafter hplace]
      dsimp only
      rw [drop_absent]
      · refine iff_of_true (together_of_unchanged ?_ ?_) ⟨?_, ?_⟩
        · rw [Function.update_of_ne configPath_ne, Function.update_of_ne hbc.symm, hnot.config]
        · rw [Function.update_self, ha.existing]
        · intro hreplaces
          rw [hfails] at hreplaces
          cases hreplaces
        · intro _ hb
          rw [hback] at hb
          cases hb
      · rw [Function.update_of_ne hbd, Function.update_self]
  · have hafter : after b = some old := (hreplaced.others b hbt hbu hbd hbc).trans ha.backup
    rw [Replacement.finish, hrun]
    dsimp only [Replacement.dropBackup]
    have hpreserved : ∀ P : Prop, replacementFails fails dir files = true → P := by
      intro P hreplaces
      rw [hok] at hreplaces
      cases hreplaces
    cases hdrop : fails .dropBackup with
    | true =>
      -- The backup stays beside the new files.
      refine iff_of_false (fun htogether ↦ ?_) fun hhandled ↦ ?_
      · have hstays := (htogether.replaced rfl).2.2 b hbc fun _ ↦ hbd
        dsimp only at hstays
        rw [drop_true, hafter, ha.free.2.2] at hstays
        cases hstays
      · rw [hhandled.removed hok] at hdrop
        cases hdrop
    | false =>
      rw [drop_false hafter ha.notDirectory]
      refine iff_of_true ?_ ⟨fun _ ↦ hdrop, hpreserved _⟩
      have hremoved : Replaced dir config text t u (Function.update before b none)
          (Function.update after b none) := by
        refine ⟨?_, ?_, ⟨?_, ?_⟩, ?_⟩
        · rw [contentsAt_congr (Function.update_of_ne hbc.symm _ _)]
          exact hreplaced.config
        · rw [contentsAt_congr (Function.update_of_ne hbd.symm _ _)]
          exact hreplaced.dockerfile
        · rw [Function.update_of_ne hbt.symm, hreplaced.staged.1]
        · rw [Function.update_of_ne hbu.symm, hreplaced.staged.2]
        · intro path hpt hpu hpd hpc
          by_cases hpb : path = b
          · rw [hpb, Function.update_self, Function.update_self]
          · rw [Function.update_of_ne hpb, Function.update_of_ne hpb,
              hreplaced.others path hpt hpu hpd hpc]
      apply together_of_replaced hremoved _ ha.free.1 ha.free.2.1
      intro path hpt hpu hpd _
      by_cases hpb : path = b
      · rw [hpb, Function.update_self, ha.free.2.2]
      · rw [Function.update_of_ne hpb, ha.others path hpt hpu hpb hpd]

/-! ## The whole function -/

theorem move_cases (fails : Bool) (hold : before (dockerfilePath dir) = some old)
    (paths : List FilePath) :
    (∃ error, firstUnused (moveToUnusedPath fails (dockerfilePath dir)) before paths =
        .error error ∧ (fails = true ∨ freePath before [] paths = none)) ∨
      ∃ b, fails = false ∧ freePath before [] paths = some b ∧
        firstUnused (moveToUnusedPath fails (dockerfilePath dir)) before paths =
          .ok (b, Function.update (Function.update before (dockerfilePath dir) none) b
            (some old)) := by
  apply @firstUnused_cases _ _
    (fun b ↦ Function.update (Function.update before (dockerfilePath dir) none) b (some old))
  · rintro rfl path after h
    rw [moveToUnusedPath, attempt_true] at h
    split at h <;> cases h
  · rintro rfl path hpath
    rw [moveToUnusedPath, if_pos (Option.isSome_iff_ne_none.mpr hpath)]
  · rintro rfl path hpath
    rw [moveToUnusedPath, hpath, if_neg (by decide), attempt_false, rename_eq_ok hold]
    intro e he
    rw [hpath] at he
    cases he

theorem configPath_not_mem (names : List String) (target : FilePath) :
    configPath dir ∉ stagedPaths names target ∧ configPath dir ∉ backupPaths names target :=
  ⟨not_mem_beside (by decide) (by decide : "reinhardt-cloud.toml".toList.head? ≠ some '.') names,
    not_mem_beside (by decide) (by decide : "reinhardt-cloud.toml".toList.head? ≠ some '.') names⟩

theorem dockerfilePath_not_mem (names : List String) (target : FilePath) :
    dockerfilePath dir ∉ stagedPaths names target ∧
      dockerfilePath dir ∉ backupPaths names target :=
  ⟨not_mem_beside (by decide) (by decide : "Dockerfile".toList.head? ≠ some '.') names,
    not_mem_beside (by decide) (by decide : "Dockerfile".toList.head? ≠ some '.') names⟩

/-- The config alone is replaced or kept. -/
theorem config_together (fails : ProjectCall → Bool) {mode : Nat} (habsent : files t = none)
    (hne : t ≠ configPath dir ∧ t ≠ dockerfilePath dir)
    (hbefore : before = Function.update files t (some ⟨.text config, mode⟩)) :
    TogetherOrNot fails dir config none files
      (match attempt (fails (.config .persist)) (rename t (configPath dir)) before with
      | .error error => (.error error, drop (fails (.config .drop)) t before)
      | .ok files => (.ok (), files)) := by
  subst hbefore
  have hdropped : ∀ path, path ≠ t → drop (fails (.config .drop)) t
      (Function.update files t (some ⟨.text config, mode⟩)) path = files path :=
    fun path hpath ↦ drop_update_apply _ _ hpath
  have herror (error : FileError) : TogetherOrNot fails dir config none files
      (.error error, drop (fails (.config .drop)) t
        (Function.update files t (some ⟨.text config, mode⟩))) :=
    together_of_unchanged (hdropped _ hne.1.symm) (hdropped _ hne.2.symm)
  cases hpersist : fails (.config .persist) with
  | true => exact herror .other
  | false =>
    rw [attempt_false]
    have hentry : Function.update files t (some ⟨.text config, mode⟩) t =
        some (⟨.text config, mode⟩ : FileEntry FilePath) := Function.update_self ..
    cases hdirectory : (files (configPath dir)).any (·.contents = .directory) with
    | true =>
      rw [rename_onto_directory hentry (by rw [Function.update_of_ne hne.1.symm]; exact hdirectory)]
      exact herror .isADirectory
    | false =>
      rw [rename_eq_ok hentry]
      · dsimp only
        constructor
        · intro _
          dsimp only
          refine ⟨?_, fun text htext ↦ (by cases htext), ?_⟩
          · rw [contentsAt, Function.update_self, Option.map_some]
          · intro path hpc _
            rw [Function.update_of_ne hpc]
            by_cases hpt : path = t
            · rw [hpt, Function.update_self, habsent]
            · rw [Function.update_of_ne hpt, Function.update_of_ne hpt]
        · intro error h
          cases h
      · intro e he hcontents
        rw [Function.update_of_ne hne.1.symm] at he
        rw [he, Option.any_some, decide_eq_false_iff_not] at hdirectory
        exact hdirectory hcontents

/-- What follows the staging. -/
theorem run_together_iff (fails : ProjectCall → Bool) (names : TemporaryNames) {m m' : Nat}
    (hconfig : CanStage (fun call ↦ fails (.config call)) (configPath dir) files)
    (hdockerfile : CanStage (fun call ↦ fails (.dockerfile call)) (dockerfilePath dir) files)
    (ht : freePath files [] (stagedPaths names.config (configPath dir)) = some t)
    (hu : freePath files [t] (stagedPaths names.dockerfile (dockerfilePath dir)) = some u) :
    TogetherOrNot fails dir config (some text) files
        (Replacement.run fails ⟨configPath dir, dockerfilePath dir, t, u⟩ names.backup
          (Function.update (Function.update files t (some ⟨.text config, m⟩)) u
            (some ⟨.text text, m'⟩))) ↔
      (MovesAside fails names dir files → BackupHandled fails dir config text files) := by
  obtain ⟨htmem, htabsent, -⟩ := freePath_mem ht
  obtain ⟨humem, huabsent, hune⟩ := freePath_mem hu
  rw [List.mem_singleton, ← ne_eq] at hune
  have hct : configPath dir ≠ t := (ne_of_mem_of_not_mem htmem (configPath_not_mem _ _).1).symm
  have hcu : configPath dir ≠ u := (ne_of_mem_of_not_mem humem (configPath_not_mem _ _).1).symm
  have hdt : dockerfilePath dir ≠ t :=
    (ne_of_mem_of_not_mem htmem (dockerfilePath_not_mem _ _).1).symm
  have hdu : dockerfilePath dir ≠ u :=
    (ne_of_mem_of_not_mem humem (dockerfilePath_not_mem _ _).1).symm
  generalize hbefore : Function.update (Function.update files t (some ⟨.text config, m⟩)) u
    (some ⟨.text text, m'⟩) = before
  have hothers : ∀ path, path ≠ t → path ≠ u → before path = files path := by
    intro path hpt hpu
    rw [← hbefore, Function.update_of_ne hpu, Function.update_of_ne hpt]
  have hbt : before t = some ⟨.text config, m⟩ := by
    rw [← hbefore, Function.update_of_ne hune.symm, Function.update_self]
  have hbu : before u = some ⟨.text text, m'⟩ := by
    rw [← hbefore, Function.update_self]
  have hfree (paths : List FilePath) : freePath before [] paths = freePath files [t, u] paths := by
    rw [← hbefore, freePath_update, freePath_update]
  have hdropped (error : FileError) : TogetherOrNot fails dir config (some text) files
      (.error error, Replacement.dropStaged fails ⟨configPath dir, dockerfilePath dir, t, u⟩
        before) := by
    apply together_of_unchanged
    · rw [Replacement.dropStaged, drop_apply_of_ne _ hct, drop_apply_of_ne _ hcu, hothers _ hct hcu]
    · rw [Replacement.dropStaged, drop_apply_of_ne _ hdt, drop_apply_of_ne _ hdu, hothers _ hdt hdu]
  have hd := hothers _ hdt hdu
  rw [Replacement.run]
  dsimp only
  cases hlookup : fails .symlinkMetadata with
  | true =>
    rw [if_pos rfl]
    refine iff_of_true (hdropped _) fun hmoves ↦ ?_
    rw [hmoves.lookup] at hlookup
    cases hlookup
  | false =>
    rw [if_neg Bool.false_ne_true]
    cases hexisting : before (dockerfilePath dir) with
    | none =>
      have hstaged : Staged dir config text t u files before :=
        ⟨contentsAt_of_eq hbt, contentsAt_of_eq hbu, hexisting, hothers _ hct hcu, hune,
          ⟨hct.symm, hcu.symm⟩, hdt.symm, hdu.symm⟩
      refine iff_of_true (finish_none_together hstaged hothers htabsent huabsent) ?_
      intro hmoves
      obtain ⟨old, hold, -⟩ := hmoves.existing
      rw [← hd, hexisting] at hold
      cases hold
    | some old =>
      dsimp only
      by_cases hdirectory : old.contents = .directory
      · rw [if_pos hdirectory]
        refine iff_of_true (hdropped _) fun hmoves ↦ ?_
        obtain ⟨old', hold, hfile⟩ := hmoves.existing
        rw [← hd, hexisting] at hold
        exact absurd (Option.some.inj hold ▸ hdirectory) hfile
      · rw [if_neg hdirectory]
        rcases move_cases (fails .moveAside) hexisting
          (backupPaths names.backup (dockerfilePath dir)) with
            ⟨error, hrun, hreason⟩ | ⟨b, hmove, hb, hrun⟩
        · rw [hrun]
          refine iff_of_true (hdropped _) fun hmoves ↦ ?_
          rcases hreason with hmove | hnone
          · rw [hmoves.move] at hmove
            cases hmove
          · obtain ⟨t', u', b, ht', hu', hb⟩ := hmoves.free
            rw [ht] at ht'
            obtain rfl := Option.some.inj ht'
            rw [hu] at hu'
            obtain rfl := Option.some.inj hu'
            rw [hfree, hb] at hnone
            cases hnone
        · rw [hrun]
          rw [hfree] at hb
          have hmoves : MovesAside fails names dir files :=
            ⟨hconfig, hdockerfile, hlookup, hmove, ⟨old, hd ▸ hexisting, hdirectory⟩,
              t, u, b, ht, hu, hb⟩
          obtain ⟨hbmem, hbabsent, hbne⟩ := freePath_mem hb
          rw [List.mem_cons, List.mem_singleton, not_or, ← ne_eq, ← ne_eq] at hbne
          have hbd : b ≠ dockerfilePath dir :=
            (ne_of_mem_of_not_mem hbmem (dockerfilePath_not_mem _ _).2)
          have hbc : b ≠ configPath dir := (ne_of_mem_of_not_mem hbmem (configPath_not_mem _ _).2)
          have hafter : ∀ path, path ≠ b → path ≠ dockerfilePath dir →
              Function.update (Function.update before (dockerfilePath dir) none) b (some old) path =
                before path := by
            intro path hpb hpd
            rw [Function.update_of_ne hpb, Function.update_of_ne hpd]
          have hstaged : Staged dir config text t u files
              (Function.update (Function.update before (dockerfilePath dir) none) b
                (some old)) := by
            refine ⟨?_, ?_, ?_, ?_, hune, ⟨hct.symm, hcu.symm⟩, hdt.symm, hdu.symm⟩
            · exact contentsAt_of_eq ((hafter t hbne.1.symm hdt.symm).trans hbt)
            · exact contentsAt_of_eq ((hafter u hbne.2.symm hdu.symm).trans hbu)
            · rw [Function.update_of_ne hbd.symm, Function.update_self]
            · rw [hafter _ hbc.symm configPath_ne, hothers _ hct hcu]
          have haside : Aside dir t u b old files
              (Function.update (Function.update before (dockerfilePath dir) none) b
                (some old)) := by
            refine ⟨Function.update_self .., hdirectory, hd ▸ hexisting,
              ⟨htabsent, huabsent, hbabsent⟩, ⟨hbne.1, hbne.2, hbd, hbc⟩, ?_⟩
            intro path hpt hpu hpb hpd
            rw [hafter path hpb hpd, hothers path hpt hpu]
          dsimp only
          rw [finish_some_together_iff hstaged haside]
          exact ⟨fun h _ ↦ h, fun h ↦ h hmoves⟩

/-- Both files are replaced together or not at all, exactly when the backup of the old Dockerfile
is handled well in the runs that move it aside. -/
theorem writeProjectFiles_together_iff (fails : ProjectCall → Bool) (names : TemporaryNames)
    (dir config : String) (dockerfile : Option String) (files : FileSystem FilePath) :
    TogetherOrNot fails dir config dockerfile files
        (writeProjectFiles fails names (configPath dir) config
          (dockerfile.map fun text ↦ (dockerfilePath dir, text)) files) ↔
      ∀ text ∈ dockerfile, MovesAside fails names dir files →
        BackupHandled fails dir config text files := by
  rw [writeProjectFiles]
  rcases stageFile_cases (fun call ↦ fails (.config call)) names.config (configPath dir) config
    files with ⟨error, after, hrun, hreason, hsame⟩ | ⟨t, m, hconfig, ht, hrun⟩
  · rw [hrun]
    refine iff_of_true (together_of_unchanged (hsame _ (configPath_not_mem _ _).1)
      (hsame _ (dockerfilePath_not_mem _ _).1)) fun text _ hmoves ↦ ?_
    rcases hreason with hcan | hnone
    · exact absurd hmoves.config hcan
    · obtain ⟨t, -, -, ht, -⟩ := hmoves.free
      rw [ht] at hnone
      cases hnone
  · rw [hrun]
    obtain ⟨htmem, htabsent, -⟩ := freePath_mem ht
    have hct : configPath dir ≠ t := (ne_of_mem_of_not_mem htmem (configPath_not_mem _ _).1).symm
    have hdt : dockerfilePath dir ≠ t :=
      (ne_of_mem_of_not_mem htmem (dockerfilePath_not_mem _ _).1).symm
    cases dockerfile with
    | none =>
      exact iff_of_true (config_together fails htabsent ⟨hct.symm, hdt.symm⟩ rfl)
        fun text htext ↦ by cases htext
    | some text =>
      have hforall : (∀ text' ∈ some text, MovesAside fails names dir files →
          BackupHandled fails dir config text' files) ↔
            (MovesAside fails names dir files → BackupHandled fails dir config text files) :=
        ⟨fun h ↦ h text rfl, fun h text' htext ↦ Option.some.inj htext ▸ h⟩
      rw [hforall]
      have hlinks := @follow_update_eq_loop_iff _ _ files t ⟨.text config, m⟩ htabsent rfl 40
        (dockerfilePath dir)
      dsimp only [Option.map_some]
      rcases stageFile_cases (fun call ↦ fails (.dockerfile call)) names.dockerfile
        (dockerfilePath dir) text (Function.update files t (some ⟨.text config, m⟩)) with
          ⟨error, after, hrun', hreason, hsame⟩ | ⟨u, m', hcan, hu, hrun'⟩
      · rw [hrun']
        refine iff_of_true (together_of_unchanged ?_ ?_) fun hmoves ↦ ?_
        · rw [drop_apply_of_ne _ hct, hsame _ (configPath_not_mem _ _).1,
            Function.update_of_ne hct]
        · rw [drop_apply_of_ne _ hdt, hsame _ (dockerfilePath_not_mem _ _).1,
            Function.update_of_ne hdt]
        · rcases hreason with hcan | hnone
          · exact absurd ⟨hmoves.dockerfile.calls, fun h ↦ hmoves.dockerfile.links (hlinks.mp h)⟩
              hcan
          · obtain ⟨t', u, -, ht', hu, -⟩ := hmoves.free
            rw [ht] at ht'
            obtain rfl := Option.some.inj ht'
            rw [freePath_update, hu] at hnone
            cases hnone
      · rw [hrun']
        rw [freePath_update] at hu
        exact run_together_iff fails names hconfig
          ⟨hcan.calls, fun h ↦ hcan.links (hlinks.mpr h)⟩ ht hu

/-- The files of a project with a Dockerfile written by hand. -/
def handWritten : FileSystem FilePath := fun path ↦
  if path = configPath "shop" then some ⟨.text "old config", 0o644⟩
  else if path = dockerfilePath "shop" then some ⟨.text "FROM old", 0o644⟩
  else none

/-- When the config is not replaced and the Dockerfile's backup is not moved back, the backup is
removed: the Dockerfile is lost. -/
theorem writeProjectFiles_loses_dockerfile :
    ¬ ∀ fails names dir config dockerfile files,
      TogetherOrNot fails dir config dockerfile files
        (writeProjectFiles fails names (configPath dir) config
          (dockerfile.map fun text ↦ (dockerfilePath dir, text)) files) := by
  intro h
  let fails : ProjectCall → Bool := fun call ↦ call = .config .persist || call = .moveBack
  let names : TemporaryNames := ⟨["a1B2c3"], ["d4E5f6"], ["g7H8i9"]⟩
  let t : FilePath := ⟨"shop", ".reinhardt-cloud-a1B2c3"⟩
  let u : FilePath := ⟨"shop", ".reinhardt-cloud-d4E5f6"⟩
  let b : FilePath := ⟨"shop", ".reinhardt-cloud-backup-g7H8i9"⟩
  obtain ⟨-, -, hkept⟩ :=
    (h fails names "shop" "new config" (some "FROM new") handWritten).kept .other rfl
  obtain ⟨path, hpath⟩ := hkept ⟨.text "FROM old", 0o644⟩ rfl
  have hrun : (writeProjectFiles fails names (configPath "shop") "new config"
      (some (dockerfilePath "shop", "FROM new")) handWritten).2 =
        Function.update (Function.update (Function.update (Function.update
          (Function.update (Function.update (Function.update (Function.update (Function.update
            (Function.update (Function.update (Function.update handWritten
              t (some ⟨.text "", 0o600⟩)) t (some ⟨.text "new config", 0o600⟩))
              t (some ⟨.text "new config", 0o644⟩)) u (some ⟨.text "", 0o600⟩))
              u (some ⟨.text "FROM new", 0o600⟩)) u (some ⟨.text "FROM new", 0o644⟩))
            (dockerfilePath "shop") none) b (some ⟨.text "FROM old", 0o644⟩)) u none)
            (dockerfilePath "shop") (some ⟨.text "FROM new", 0o644⟩)) t none) b none := by
    rfl
  obtain ⟨⟨contents, mode⟩, hentry, hcontents⟩ := contentsAt_eq_some_iff.mp hpath
  dsimp only at hentry hcontents
  rw [Option.map_some, hrun] at hentry
  by_cases hpb : path = b
  · rw [hpb, Function.update_self] at hentry
    cases hentry
  rw [Function.update_of_ne hpb] at hentry
  by_cases hpt : path = t
  · rw [hpt, Function.update_self] at hentry
    cases hentry
  rw [Function.update_of_ne hpt] at hentry
  by_cases hpd : path = dockerfilePath "shop"
  · rw [hpd, Function.update_self, hcontents] at hentry
    exact absurd (congrArg FileEntry.contents (Option.some.inj hentry))
      (by decide : (FileContents.text "FROM new" : FileContents FilePath) ≠ .text "FROM old")
  rw [Function.update_of_ne hpd] at hentry
  by_cases hpu : path = u
  · rw [hpu, Function.update_self] at hentry
    cases hentry
  simp only [Function.update_of_ne hpu, Function.update_of_ne hpb, Function.update_of_ne hpd,
    Function.update_of_ne hpt, handWritten, if_neg hpd, hcontents] at hentry
  split at hentry
  · exact absurd (congrArg FileEntry.contents (Option.some.inj hentry))
      (by decide : (FileContents.text "old config" : FileContents FilePath) ≠ .text "FROM old")
  · cases hentry

end ReinhardtCloud.Cli

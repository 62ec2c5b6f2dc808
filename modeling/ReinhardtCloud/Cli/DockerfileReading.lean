import ReinhardtCloud.Cli.DockerfileText

/-!
# Reading a generated Dockerfile

Library `Cli`. What a build reads in the text of a `Dockerfile`
(`crates/reinhardt-cloud-cli/src/dockerfile_generator/dockerfile.rs:43–127`): when no text in it
breaks its line, the stages and instructions that were written.
-/

namespace ReinhardtCloud.Cli

open ReinhardtCloud.Base ReinhardtCloud.Base.Dockerfiles

/-! ## Instructions -/

/-- The keyword of an instruction, what stands between its texts besides blanks, and the texts, each
of which may have a line; none of a comment. -/
def BuildInstruction.parts : BuildInstruction → Option (List Char × List Char × List (List Char))
  | .arg name default =>
    some ("ARG".toList, [], [(name ++ default.elim "" ("=" ++ ·)).toList])
  | .plain (.workdir path) => some ("WORKDIR".toList, [], [path.toList])
  | .plain (.run command) => some ("RUN".toList, [], [command.toList])
  | .plain (.runMulti commands) => some ("RUN".toList, " &&".toList, commands.map String.toList)
  | .plain (.copy source src dst) => some ("COPY".toList, [],
      [(source.elim "" (fun source ↦ "--from=" ++ source ++ " ") ++ src ++ " " ++ dst).toList])
  | .plain (.env pairs) =>
    some ("ENV".toList, [], pairs.map fun pair ↦ (displayPair pair).toList)
  | .plain (.expose port) => some ("EXPOSE".toList, [], [(toString port.toNat).toList])
  | .plain (.entrypoint arguments) =>
    some ("ENTRYPOINT".toList, [], [(displayArguments arguments).toList])
  | .plain (.user name) => some ("USER".toList, [], [name.toList])
  | .plain (.comment _) => none

/-- The blanks before an argument on a line of its own. -/
def argumentIndent : List Char := [' ', ' ', ' ', ' ']

theorem isSpace_argumentIndent : ∀ c ∈ argumentIndent, isSpace c = true :=
  List.all_eq_true.mp rfl

/-- What an instruction is written as. -/
theorem display_eq_parts {i : BuildInstruction} {keyword sep : List Char}
    {arguments : List (List Char)} (h : i.parts = some (keyword, sep, arguments)) :
    i.display.toList = keyword ++ [' '] ++
      (sep ++ [' ', '\\', '\n'] ++ argumentIndent).intercalate arguments := by
  cases i with
  | arg name default =>
    obtain ⟨rfl, rfl, rfl⟩ := h
    cases default <;> simp [BuildInstruction.display]
  | plain i =>
    cases i with
    | runMulti commands =>
      obtain ⟨rfl, rfl, rfl⟩ := h
      match commands with
      | [] => simp [BuildInstruction.display, argumentIndent]
      | [command] => simp [BuildInstruction.display]
      | first :: second :: rest => simp [BuildInstruction.display, argumentIndent]
    | copy source src dst =>
      obtain ⟨rfl, rfl, rfl⟩ := h
      cases source <;> simp [BuildInstruction.display]
    | env pairs =>
      obtain ⟨rfl, rfl, rfl⟩ := h
      simp [BuildInstruction.display, argumentIndent, Function.comp_def]
    | comment text => cases h
    | _ =>
      obtain ⟨rfl, rfl, rfl⟩ := h
      simp [BuildInstruction.display]

theorem keyword_of_parts {i : BuildInstruction} {keyword sep : List Char}
    {arguments : List (List Char)} (h : i.parts = some (keyword, sep, arguments)) :
    Keyword keyword ∧ keyword ≠ fromKeyword ∧ '\n' ∉ sep := by
  cases i with
  | arg =>
    obtain ⟨rfl, rfl, -⟩ := h
    decide
  | plain i =>
    cases i with
    | comment text => cases h
    | _ =>
      obtain ⟨rfl, rfl, -⟩ := h
      decide

/-- What a build is to read of an instruction: its keyword and its arguments. -/
def BuildInstruction.said : BuildInstruction → Option Said
  | .arg name default => some ("ARG".toList, [(name ++ default.elim "" ("=" ++ ·)).toList])
  | .plain (.workdir path) => some ("WORKDIR".toList, [path.toList])
  | .plain (.run command) => some ("RUN".toList, [command.toList])
  | .plain (.runMulti commands) => some ("RUN".toList,
      [(" &&".toList ++ [' '] ++ argumentIndent).intercalate (commands.map String.toList)])
  | .plain (.copy source src dst) => some ("COPY".toList,
      source.toList.map (fun source ↦ sourceFlag ++ source.toList) ++ [src.toList, dst.toList])
  | .plain (.env pairs) => some ("ENV".toList, pairs.map fun pair ↦ (displayPair pair).toList)
  | .plain (.expose port) => some ("EXPOSE".toList, [(toString port.toNat).toList])
  | .plain (.entrypoint arguments) =>
    some ("ENTRYPOINT".toList, [(displayArguments arguments).toList])
  | .plain (.user name) => some ("USER".toList, [name.toList])
  | .plain (.comment _) => none

/-- Every text stands in its line as it is, and makes the arguments that are to be read; a comment
is one line. -/
def BuildInstruction.Readable (i : BuildInstruction) : Prop :=
  match i.parts with
  | some (keyword, sep, texts) => texts ≠ [] ∧ (∀ x ∈ texts, Item x) ∧
      i.said =
        some (keyword, argumentsOf keyword ((sep ++ [' '] ++ argumentIndent).intercalate texts))
  | none => '\n' ∉ i.display.toList

theorem said_of_parts {i : BuildInstruction} (h : i.parts = none) : i.said = none := by
  match i, h with
  | .plain (.comment text), _ => rfl

theorem readsAs_display {i : BuildInstruction} (h : i.Readable) :
    ReadsAs i.display.toList i.said := by
  unfold BuildInstruction.Readable at h
  cases hparts : i.parts with
  | none =>
    rw [hparts] at h
    rw [said_of_parts hparts]
    refine readsAs_remark h ?_
    match i, hparts with
    | .plain (.comment text), _ => simp [BuildInstruction.display, isRemark, isSpace]
  | some parts =>
    obtain ⟨keyword, sep, texts⟩ := parts
    rw [hparts] at h
    obtain ⟨hne, hitems, hsaid⟩ := h
    obtain ⟨hkeyword, -, hsep⟩ := keyword_of_parts hparts
    rw [display_eq_parts hparts, hsaid]
    exact readsAs_list hkeyword hsep isSpace_argumentIndent hne hitems

theorem keyword_said {i : BuildInstruction} {said : Said} (h : i.said = some said) :
    said.1 ≠ fromKeyword := by
  cases i with
  | arg =>
    obtain rfl := Option.some.inj h
    dsimp only
    decide
  | plain i =>
    cases i with
    | comment text => cases h
    | _ =>
      obtain rfl := Option.some.inj h
      dsimp only
      decide

section Readable

variable {i : BuildInstruction} {keyword quotes : List Char}

/-- An instruction with one text. -/
theorem readable_text {text : List Char} (hparts : i.parts = some (keyword, [], [text]))
    (hsaid : i.said = some (keyword, [text])) (hkeyword : wordKeywords.lookup keyword = none)
    (hitem : Item text) : i.Readable := by
  rw [BuildInstruction.Readable, hparts]
  refine ⟨List.cons_ne_nil _ _, fun _ hx ↦ List.mem_singleton.mp hx ▸ hitem, ?_⟩
  rw [hsaid, List.intercalate_singleton, argumentsOf, hkeyword]
  rfl

/-- An instruction with words. -/
theorem readable_words {texts : List (List Char)} (hparts : i.parts = some (keyword, [], texts))
    (hsaid : i.said = some (keyword, texts)) (hkeyword : wordKeywords.lookup keyword = some quotes)
    (hquotes : quotes ⊆ wordLimits) (hne : texts ≠ []) (hwords : ∀ x ∈ texts, Word x) :
    i.Readable := by
  rw [BuildInstruction.Readable, hparts]
  refine ⟨hne, fun x hx ↦ (hwords x hx).item, ?_⟩
  rw [hsaid, argumentsOf_words hkeyword hquotes _ (by decide) hwords]
  exact List.forall_mem_append.mpr ⟨isSpace_blank, isSpace_argumentIndent⟩

/-- Words joined by blanks are one item. -/
theorem item_intercalate {words : List (List Char)} (hne : words ≠ [])
    (hwords : ∀ word ∈ words, Word word) : Item ([' '].intercalate words) := by
  have hclean : Clean ([' '].intercalate words) :=
    clean_intercalate (by decide) fun word hword ↦ (hwords word hword).2.clean
  obtain ⟨-, -, hlast⟩ := ends_intercalate [' '] hne fun x hx ↦ (hwords x hx).item
  refine ⟨plain_of_forall hclean, ?_, hlast⟩
  cases words with
  | nil => exact absurd rfl hne
  | cons word rest =>
    obtain ⟨-, ⟨c, tail, rfl, hfirst⟩, -⟩ := (hwords word List.mem_cons_self).item
    cases rest with
    | nil => exact ⟨c, tail, by rw [List.intercalate_singleton], hfirst⟩
    | cons next rest =>
      exact ⟨c, _, List.intercalate_cons_of_ne_nil (List.cons_ne_nil _ _), hfirst⟩

/-- A copy whose arguments are words. -/
theorem readable_copy {source : Option String} {src dst : String}
    (hsource : ∀ name ∈ source, Word name.toList) (hsrc : Word src.toList)
    (hdst : Word dst.toList) :
    (BuildInstruction.plain (.copy source src dst)).Readable := by
  have hwords : ∀ word ∈ source.toList.map (fun source ↦ sourceFlag ++ source.toList) ++
      [src.toList, dst.toList], Word word := by
    rw [List.forall_mem_append]
    refine ⟨?_, by simp only [List.forall_mem_cons]; exact ⟨hsrc, hdst, by simp⟩⟩
    intro word hword
    obtain ⟨name, hname, rfl⟩ := List.mem_map.mp hword
    exact Word.append (by decide) (hsource name (Option.mem_toList.mp hname)).2
  have htext : (source.elim "" (fun source ↦ "--from=" ++ source ++ " ") ++ src ++ " " ++
      dst).toList = [' '].intercalate (source.toList.map (fun source ↦ sourceFlag ++
        source.toList) ++ [src.toList, dst.toList]) := by
    cases source with
    | none => simp [List.intercalate, List.intersperse]
    | some source => simp [List.intercalate, List.intersperse, sourceFlag]
  have hne : source.toList.map (fun source ↦ sourceFlag ++ source.toList) ++
      [src.toList, dst.toList] ≠ [] := by simp
  rw [BuildInstruction.Readable]
  refine ⟨List.cons_ne_nil _ _, ?_, ?_⟩
  · intro x hx
    rw [List.mem_singleton.mp hx, htext]
    exact item_intercalate hne hwords
  · rw [List.intercalate_singleton, htext,
      argumentsOf_words rfl (by decide) isSpace_blank (by decide) hwords]
    rfl

end Readable

/-! ## Stages -/

/-- The texts of a stage with a name and without a platform stand in their lines as they are. -/
structure BuildStage.Readable (stage : BuildStage) (name : String) : Prop where
  platform : stage.platform = none
  base : Word stage.baseImage.toList
  unflagged : ¬ platformFlag <+: stage.baseImage.toList
  named : stage.name = some name
  word : Word name.toList
  instructions : ∀ i ∈ stage.instructions, i.Readable

/-- The stage that a build reads. -/
def BuildStage.said (stage : BuildStage) : Dockerfiles.Stage where
  platform := stage.platform.map String.toList
  base := stage.baseImage.toList
  name := stage.name.map String.toList
  instructions := stage.instructions.filterMap BuildInstruction.said

/-- The text behind `FROM`. -/
def BuildStage.image (stage : BuildStage) : List Char :=
  stage.baseImage.toList ++ stage.name.elim [] fun name ↦ " AS ".toList ++ name.toList

/-- The arguments of `FROM`. -/
def BuildStage.imageWords (stage : BuildStage) : List (List Char) :=
  stage.baseImage.toList :: stage.name.elim [] fun name ↦ [['A', 'S'], name.toList]

namespace BuildStage.Readable

variable {stage : BuildStage} {name : String}

theorem imageWords_eq (h : stage.Readable name) :
    stage.imageWords = [stage.baseImage.toList, ['A', 'S'], name.toList] := by
  rw [BuildStage.imageWords, h.named]
  rfl

theorem image_eq (h : stage.Readable name) : stage.image = [' '].intercalate stage.imageWords := by
  rw [BuildStage.image, h.named, h.imageWords_eq]
  simp [List.intercalate, List.intersperse]

theorem words (h : stage.Readable name) : ∀ word ∈ stage.imageWords, Word word := by
  rw [h.imageWords_eq]
  simp only [List.forall_mem_cons]
  exact ⟨h.base, by decide, h.word, by simp⟩

theorem begins (h : stage.Readable name) :
    Begins stage.imageWords (stage.instructions.filterMap BuildInstruction.said)
      { stage.said with instructions := [] } where
  image := by
    rw [h.imageWords_eq, parseFrom_named h.unflagged]
    simp only [BuildStage.said, h.platform, h.named]
    rfl
  opened := rfl
  body := by
    intro said hsaid
    obtain ⟨i, -, hi⟩ := List.mem_filterMap.mp hsaid
    exact keyword_said hi

theorem readsAs_from (h : stage.Readable name) :
    ReadsAs (fromKeyword ++ [' '] ++ stage.image) (some (fromKeyword, stage.imageWords)) := by
  have hne : stage.imageWords ≠ [] := List.cons_ne_nil _ _
  have hkeyword : Keyword fromKeyword := by decide
  have hread := readsAs_line hkeyword (item_intercalate hne h.words)
  rwa [argumentsOf_words rfl (by decide) isSpace_blank (by decide) h.words, ← h.image_eq] at hread

end BuildStage.Readable

/-- The lines of a stage, with what is read of each. -/
def BuildStage.texts (stage : BuildStage) : List (List Char × Option Said) :=
  (fromKeyword ++ [' '] ++ stage.image, some (fromKeyword, stage.imageWords)) ::
    stage.instructions.map fun i ↦ (i.display.toList, i.said)

theorem toList_display_stage {stage : BuildStage} (h : stage.platform = none) :
    stage.display.toList = stage.texts.flatMap fun t ↦ t.1 ++ ['\n'] := by
  rw [BuildStage.display, BuildStage.displayFrom, h, BuildStage.texts, BuildStage.image]
  cases stage.name <;> simp [fromKeyword, String.toList_join, List.flatMap_map]

/-! ## The whole text -/

/-- Every stage has a name and can be read, and the comment is one line. -/
structure Dockerfile.Readable (dockerfile : Dockerfile) : Prop where
  comment : '\n' ∉ dockerfile.headerComment.toList
  stages : ∀ stage ∈ dockerfile.stages, ∃ name, stage.Readable name

/-- The lines of a Dockerfile, with what is read of each: no blank line before the first stage. -/
def Dockerfile.texts (dockerfile : Dockerfile) : List (List Char × Option Said) :=
  ("# ".toList ++ dockerfile.headerComment.toList, none) ::
    dockerfile.stages.head?.elim [] BuildStage.texts ++
      dockerfile.stages.tail.flatMap fun stage ↦ ([], none) :: stage.texts

theorem toList_display {dockerfile : Dockerfile}
    (h : ∀ stage ∈ dockerfile.stages, stage.platform = none) :
    dockerfile.display.toList = dockerfile.texts.flatMap fun t ↦ t.1 ++ ['\n'] := by
  have htail (stages : List BuildStage) (hstages : ∀ stage ∈ stages, stage.platform = none) :
      stages.flatMap (fun stage ↦ '\n' :: stage.display.toList) =
        (stages.flatMap fun stage ↦ ([], none) :: stage.texts).flatMap fun t ↦ t.1 ++ ['\n'] := by
    rw [List.flatMap_assoc]
    refine List.flatMap_congr fun stage hstage ↦ ?_
    rw [toList_display_stage (hstages stage hstage)]
    rfl
  rw [Dockerfile.display, Dockerfile.texts]
  cases hstages : dockerfile.stages with
  | nil => simp
  | cons first rest =>
    rw [hstages] at h
    have hrest := htail rest fun stage hstage ↦ h stage (List.mem_cons_of_mem first hstage)
    have hfirst := toList_display_stage (h first List.mem_cons_self)
    have hconst : rest.mapIdx (fun _ stage ↦ "\n" ++ stage.display) =
        rest.map fun stage ↦ "\n" ++ stage.display :=
      List.ext_getElem (by simp) (by simp)
    simp [String.toList_join, hfirst, ← hrest, hconst, List.flatMap_map]

theorem readsAs_texts {dockerfile : Dockerfile} (h : dockerfile.Readable) :
    ∀ t ∈ dockerfile.texts, ReadsAs t.1 t.2 := by
  have hstage (stage : BuildStage) (hmem : stage ∈ dockerfile.stages) :
      ∀ t ∈ stage.texts, ReadsAs t.1 t.2 := by
    obtain ⟨name, hname⟩ := h.stages stage hmem
    intro t ht
    rcases List.mem_cons.mp ht with rfl | ht
    · exact hname.readsAs_from
    · obtain ⟨i, hi, rfl⟩ := List.mem_map.mp ht
      exact readsAs_display (hname.instructions i hi)
  intro t ht
  rcases List.mem_append.mp ht with ht | ht
  · rcases List.mem_cons.mp ht with rfl | ht
    · refine readsAs_remark ?_ rfl
      simpa using h.comment
    · cases hstages : dockerfile.stages with
      | nil => rw [hstages] at ht; cases ht
      | cons first rest =>
        rw [hstages] at ht
        exact hstage first (hstages ▸ List.mem_cons_self) t ht
  · obtain ⟨stage, hmem, ht⟩ := List.mem_flatMap.mp ht
    rcases List.mem_cons.mp ht with rfl | ht
    · exact readsAs_remark List.not_mem_nil rfl
    · exact hstage stage (List.mem_of_mem_tail hmem) t ht

theorem said_texts_stage (stage : BuildStage) :
    stage.texts.flatMap (fun t ↦ t.2.toList) =
      (fromKeyword, stage.imageWords) :: stage.instructions.filterMap BuildInstruction.said := by
  rw [BuildStage.texts, List.flatMap_cons, List.flatMap_map, List.filterMap_eq_flatMap_toList]
  rfl

theorem said_texts (dockerfile : Dockerfile) :
    dockerfile.texts.flatMap (fun t ↦ t.2.toList) = dockerfile.stages.flatMap fun stage ↦
      (fromKeyword, stage.imageWords) :: stage.instructions.filterMap BuildInstruction.said := by
  rw [Dockerfile.texts]
  cases dockerfile.stages with
  | nil => rfl
  | cons first rest =>
    simp [said_texts_stage, List.flatMap_assoc]

/-- A Dockerfile is read as it was written. -/
theorem read_display {dockerfile : Dockerfile} (h : dockerfile.Readable) :
    read dockerfile.display.toList = some (dockerfile.stages.map BuildStage.said) := by
  have hplatform (stage : BuildStage) (hmem : stage ∈ dockerfile.stages) :
      stage.platform = none := by
    obtain ⟨name, hname⟩ := h.stages stage hmem
    exact hname.platform
  have hbegins (stage : BuildStage) (hmem : stage ∈ dockerfile.stages) :
      Begins stage.imageWords (stage.instructions.filterMap BuildInstruction.said)
        { stage.said with instructions := [] } := by
    obtain ⟨name, hname⟩ := h.stages stage hmem
    exact hname.begins
  rw [toList_display hplatform, read_flatMap (readsAs_texts h), said_texts,
    stages_flatMap hbegins]
  rfl

end ReinhardtCloud.Cli

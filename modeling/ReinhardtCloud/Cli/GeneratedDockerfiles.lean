import ReinhardtCloud.Cli.DockerfileReading
import ReinhardtCloud.Cli.InitDeploys

/-!
# What the generated Dockerfiles say

Library `Cli`. Whatever the project is, the texts that `collect_signals` lets through
(`crates/reinhardt-cloud-cli/src/dockerfile_generator.rs:276–392`) break no line of the Dockerfile
that `generate` makes of them, and its stages copy from stages before them.
-/

namespace ReinhardtCloud.Cli

open ReinhardtCloud.Base ReinhardtCloud.Base.Dockerfiles

/-! ## Copies -/

/-- An instruction copies from a stage with one of the names, or everything from the context. -/
def BuildInstruction.CopiesFrom (names : List String) : BuildInstruction → Prop
  | .plain (.copy (some source) _ _) => source ∈ names
  | .plain (.copy none src dst) => src = "." ∧ dst = "."
  | _ => True

/-- An instruction can be read and copies from stages with the names. -/
def BuildInstruction.Fits (names : List String) (i : BuildInstruction) : Prop :=
  i.Readable ∧ i.CopiesFrom names

section Fits

variable {names : List String} {i : BuildInstruction} {keyword quotes : List Char}

theorem fits_text {text : List Char} (hparts : i.parts = some (keyword, [], [text]))
    (hsaid : i.said = some (keyword, [text])) (hkeyword : wordKeywords.lookup keyword = none)
    (hcopies : i.CopiesFrom names) (hitem : Item text) : i.Fits names :=
  ⟨readable_text hparts hsaid hkeyword hitem, hcopies⟩

theorem fits_word {text : List Char} (hparts : i.parts = some (keyword, [], [text]))
    (hsaid : i.said = some (keyword, [text])) (hkeyword : wordKeywords.lookup keyword = some quotes)
    (hquotes : quotes ⊆ wordLimits) (hcopies : i.CopiesFrom names) (hword : Word text) :
    i.Fits names :=
  ⟨readable_words hparts hsaid hkeyword hquotes (List.cons_ne_nil _ _) fun _ hx ↦
    List.mem_singleton.mp hx ▸ hword, hcopies⟩

theorem fits_run {command : String} (h : Item command.toList) :
    (BuildInstruction.plain (.run command)).Fits names :=
  fits_text rfl rfl (by decide) trivial h

theorem fits_runMulti {commands : List String} (hne : commands ≠ [])
    (h : ∀ command ∈ commands, Item command.toList) :
    (BuildInstruction.plain (.runMulti commands)).Fits names := by
  refine ⟨⟨fun hmap ↦ hne (List.map_eq_nil_iff.mp hmap), ?_, rfl⟩, trivial⟩
  intro x hx
  obtain ⟨command, hcommand, rfl⟩ := List.mem_map.mp hx
  exact h command hcommand

theorem fits_workdir {path : String} (h : Item path.toList) :
    (BuildInstruction.plain (.workdir path)).Fits names :=
  fits_text rfl rfl (by decide) trivial h

theorem fits_copy {source src dst : String} (hsource : source ∈ names) (hword : Word source.toList)
    (hsrc : Word src.toList) (hdst : Word dst.toList) :
    (BuildInstruction.plain (.copy (some source) src dst)).Fits names := by
  refine ⟨readable_copy ?_ hsrc hdst, hsource⟩
  rintro _ ⟨⟩
  exact hword

/-- A copy from the context. -/
theorem fits_copyContext : (BuildInstruction.plain (.copy none "." ".")).Fits names :=
  ⟨readable_copy (fun _ h ↦ absurd h (Option.not_mem_none _)) (by decide) (by decide), rfl, rfl⟩

theorem fits_comment {text : String} (h : '\n' ∉ text.toList) :
    (BuildInstruction.plain (.comment text)).Fits names := by
  refine ⟨?_, trivial⟩
  show '\n' ∉ ("# " ++ text).toList
  rw [String.toList_append, List.mem_append]
  exact not_or.mpr ⟨by decide, h⟩

/-- What the copies of instructions are from. -/
theorem mem_of_copiesFrom_said (hcopies : i.CopiesFrom names) {said : Said}
    (hsaid : i.said = some said) {source : List Char} (hsource : copiesFrom said = some source) :
    source ∈ names.map String.toList := by
  cases i with
  | arg name default =>
    obtain rfl := Option.some.inj hsaid
    cases hsource
  | plain i =>
    cases i with
    | copy stage src dst =>
      obtain rfl := Option.some.inj hsaid
      cases stage with
      | none =>
        obtain ⟨rfl, rfl⟩ := hcopies
        cases hsource
      | some stage =>
        cases (copiesFrom_flag stage.toList [src.toList, dst.toList]).symm.trans hsource
        exact List.mem_map_of_mem hcopies
    | comment text => cases hsaid
    | _ =>
      obtain rfl := Option.some.inj hsaid
      cases hsource

end Fits

/-! ## Texts that break no line -/

/-- The texts of a static root stand in a line as they are. -/
structure StaticRoot.Legible (root : StaticRoot) : Prop where
  path : Solid root.path.toList
  bindings : ∀ binding ∈ root.envBinding.toList ++ root.urlEnvBinding.toList,
    Word binding.1.toList ∧ Solid binding.2.toList
  buildArgs : ∀ name ∈ root.buildArgs, Word name.toList
  buildEnv : ∀ name ∈ root.buildEnv, Word name.toList

/-- The texts of a project stand in a line as they are. -/
structure BuildSignals.Legible (signals : BuildSignals) : Prop where
  project : Word signals.projectName.toList
  rust : Word signals.rustVersion.toList
  wasm : ∀ version ∈ signals.wasmBindgenVersion, Word version.toList
  root : ∀ root ∈ signals.staticRoot, root.Legible
  base : ∀ base ∈ signals.baseImageOverride,
    Word base.toList ∧ ¬ platformFlag <+: base.toList
  member : ∀ member ∈ signals.projectRelativePath, Solid member.text
  session : signals.sessionBackend = none

/-- A stage has the name, can be read and copies from stages with the names. -/
structure BuildStage.Sound (stage : BuildStage) (names : List String) (name : String) :
    Prop where
  platform : stage.platform = none
  base : Word stage.baseImage.toList
  unflagged : ¬ platformFlag <+: stage.baseImage.toList
  named : stage.name = some name
  instructions : ∀ i ∈ stage.instructions, i.Fits names

theorem item_append {a b : String} (ha : Item a.toList) (hb : Tail b.toList) :
    Item (a ++ b).toList := by
  rw [String.toList_append]
  exact ha.append hb

theorem item_after {a b : String} (ha : '\n' ∉ a.toList)
    (hfirst : (a.toList.head?.all fun c ↦ !isSpace c && c ≠ '#') = true) (hb : Item b.toList) :
    Item (a ++ b).toList := by
  rw [String.toList_append]
  refine hb.after ha fun c hc ↦ ?_
  have hboth := (Option.all_eq_true _ _).mp hfirst c hc
  simpa using hboth

theorem word_append {a b : String} (ha : Word a.toList) (hb : Solid b.toList) :
    Word (a ++ b).toList := by
  rw [String.toList_append]
  exact ha.append hb

/-! ## The stages -/

section Stages

variable {signals : BuildSignals}

theorem word_rustImage (h : signals.Legible) : Word (rustImage signals).toList := by
  rw [rustImage, String.toList_append, String.toList_append]
  exact (Word.append (by decide) h.rust.2).append (by decide)

theorem unflagged_rustImage : ¬ platformFlag <+: (rustImage signals).toList := by
  refine unflagged_of_head ?_
  rw [rustImage, String.toList_append, String.toList_append]
  intro hhead
  exact absurd (Option.some.inj hhead) (by decide)

theorem fits_installProtoc {names : List String} :
    ∀ i ∈ (installProtoc signals).map BuildInstruction.plain, i.Fits names := by
  unfold installProtoc
  split
  · rw [List.map_singleton, List.forall_mem_singleton]
    exact fits_runMulti (List.cons_ne_nil _ _) (by decide)
  · exact List.forall_mem_nil _

theorem sound_chef (h : signals.Legible) :
    (buildChefStage signals).toBuild.Sound [] "chef" where
  platform := rfl
  base := word_rustImage h
  unflagged := unflagged_rustImage
  named := rfl
  instructions := by
    show ∀ i ∈ (installProtoc signals ++ _).map BuildInstruction.plain, _
    rw [List.map_append, List.forall_mem_append]
    refine ⟨fits_installProtoc, ?_⟩
    simp only [List.map_cons, List.map_nil, List.forall_mem_cons]
    refine ⟨?_, ?_, ?_, ?_, by simp⟩
    · exact fits_run (by decide)
    · exact fits_workdir (by decide)
    · exact fits_copyContext
    · exact fits_run (by decide)

theorem sound_builder (h : signals.Legible) :
    (buildBuilderStage signals).toBuild.Sound ["chef"] "builder" where
  platform := rfl
  base := word_rustImage h
  unflagged := unflagged_rustImage
  named := rfl
  instructions := by
    have hfeatures : Tail (if signals.graphql then " --features graphql" else "").toList := by
      split <;> decide
    show ∀ i ∈ (installProtoc signals ++ _).map BuildInstruction.plain, _
    rw [List.map_append, List.forall_mem_append]
    refine ⟨fits_installProtoc, ?_⟩
    simp only [List.map_cons, List.map_nil, List.forall_mem_cons]
    refine ⟨?_, ?_, ?_, ?_, ?_, ?_, by simp⟩
    · exact fits_run (by decide)
    · exact fits_workdir (by decide)
    · exact fits_copy (List.mem_singleton.mpr rfl) (by decide) (by decide) (by decide)
    · exact fits_run (item_append (item_append (by decide) hfeatures) (by decide))
    · exact fits_copyContext
    · exact fits_run
        (item_append (item_after (by decide) (by decide) h.project.item) hfeatures)

theorem word_underscored {name : String} (h : Word name.toList) :
    Word (underscored name).toList := by
  rw [underscored, String.toList_ofList]
  refine ⟨fun hmap ↦ h.1 (List.map_eq_nil_iff.mp hmap), ?_⟩
  intro c hc
  obtain ⟨d, hd, rfl⟩ := List.mem_map.mp hc
  split
  · decide
  · exact h.2 d hd

theorem sound_wasm (h : signals.Legible) {version : String}
    (hversion : version ∈ signals.wasmBindgenVersion) :
    (buildWasmStage signals version).toBuild.Sound [] "wasm" where
  platform := rfl
  base := word_rustImage h
  unflagged := unflagged_rustImage
  named := rfl
  instructions := by
    show ∀ i ∈ List.map BuildInstruction.plain _, _
    simp only [buildWasmStage, List.map_cons, List.map_nil, List.forall_mem_cons]
    refine ⟨?_, ?_, ?_, ?_, ?_, ?_, by simp⟩
    · exact fits_run (by decide)
    · exact fits_run (item_append (by decide) (h.wasm version hversion).2.tail)
    · exact fits_workdir (by decide)
    · exact fits_copyContext
    · exact fits_run (item_after (by decide) (by decide) h.project.item)
    · exact fits_run
        (item_append (item_append (by decide) (word_underscored h.project).2.tail) (by decide))

/-- A value of one piece needs no quotes. -/
theorem word_displayPair {pair : String × String} (hname : Word pair.1.toList)
    (hvalue : Solid pair.2.toList) : Word (displayPair pair).toList := by
  have hblank : ¬ pair.2.toList.contains ' ' = true := by
    intro hmem
    exact hvalue ' ' (List.contains_iff_mem.mp hmem) (by decide)
  rw [displayPair, if_neg hblank]
  exact word_append (word_append hname (by decide)) hvalue

theorem fits_env {names : List String} {pairs : List (String × String)} (hne : pairs ≠ [])
    (h : ∀ pair ∈ pairs, Word pair.1.toList ∧ Solid pair.2.toList) :
    (BuildInstruction.plain (.env pairs)).Fits names := by
  have hparts : (BuildInstruction.plain (.env pairs)).parts =
      some ("ENV".toList, [], pairs.map fun pair ↦ (displayPair pair).toList) := rfl
  refine ⟨readable_words hparts rfl rfl (by decide) ?_ ?_, trivial⟩
  · exact fun hmap ↦ hne (List.map_eq_nil_iff.mp hmap)
  · intro x hx
    obtain ⟨pair, hpair, rfl⟩ := List.mem_map.mp hx
    exact word_displayPair (h pair hpair).1 (h pair hpair).2

/-- The random variables go before a command. -/
theorem item_ephemeral {names : List String} (hnames : ∀ name ∈ names, Word name.toList)
    {command : String} (hcommand : Item command.toList) :
    Item (String.join (names.map ephemeralVariable) ++ command).toList := by
  -- The shell text of a variable has a backslash in it, but never at the end of the line.
  have hnewline : '\n' ∉ (String.join (names.map ephemeralVariable)).toList := by
    rw [String.toList_join, List.flatMap_map]
    intro hmem
    obtain ⟨name, hname, hc⟩ := List.mem_flatMap.mp hmem
    rw [ephemeralVariable, String.toList_append, List.mem_append] at hc
    exact hc.elim (fun hc ↦ ((hnames name hname).2.clean _ hc).1 rfl) (by decide)
  rw [String.toList_append]
  refine hcommand.after hnewline ?_
  cases names with
  | nil => simp
  | cons name rest =>
    obtain ⟨-, ⟨c, tail, hname, hblank, hhash⟩, -⟩ := (hnames name List.mem_cons_self).item
    rw [String.toList_join, List.map_cons, List.flatMap_cons, ephemeralVariable,
      String.toList_append, hname]
    rintro _ ⟨⟩
    exact ⟨hblank, hhash⟩

theorem sound_assets (h : signals.Legible) {root : StaticRoot}
    (hroot : root ∈ signals.staticRoot) :
    (buildAssetsStage signals root).Sound ["wasm"] "assets" where
  platform := rfl
  base := by show Word "builder".toList; decide
  unflagged := unflagged_of_head (by show "builder".toList.head? ≠ some '-'; decide)
  named := rfl
  instructions := by
    have hlegible := h.root root hroot
    show ∀ i ∈ root.buildArgs.map _ ++ List.map BuildInstruction.plain (_ ++ _), _
    rw [List.forall_mem_append, List.map_append, List.forall_mem_append]
    refine ⟨?_, ?_, ?_⟩
    · intro i hi
      obtain ⟨name, hname, rfl⟩ := List.mem_map.mp hi
      have hword : Word (name ++ "").toList :=
        word_append (hlegible.buildArgs name hname) (by decide)
      exact fits_word rfl rfl rfl (by decide) trivial hword
    · intro i hi
      rw [List.map_map] at hi
      obtain ⟨binding, hbinding, rfl⟩ := List.mem_map.mp hi
      refine fits_env (List.cons_ne_nil _ _) fun pair hpair ↦ ?_
      rw [List.mem_singleton.mp hpair]
      exact hlegible.bindings binding hbinding
    · simp only [List.map_cons, List.map_nil, List.forall_mem_cons]
      refine ⟨?_, ?_, ?_, ?_, by simp⟩
      · exact fits_copy (List.mem_singleton.mpr rfl) (by decide) (by decide) (by decide)
      · refine fits_workdir ?_
        cases hmember : signals.projectRelativePath with
        | none => decide
        | some member =>
          refine item_append (by decide) ?_
          rw [String.toList_ofList]
          exact (h.member member hmember).tail
      · exact fits_env (List.cons_ne_nil _ _) (by decide)
      · refine fits_run ?_
        rw [String.append_assoc, String.append_assoc]
        refine item_ephemeral hlegible.buildEnv ?_
        exact item_after (by decide) (by decide)
          (item_append (word_underscored h.project).item (by decide))

theorem word_runtimePackages (signals : DockerfileSignals) :
    ∀ package ∈ runtimePackages signals, Word package.toList := by
  rw [runtimePackages, List.forall_mem_append, List.forall_mem_append]
  refine ⟨⟨by decide, ?_⟩, ?_⟩
  · split <;> decide
  · split <;> decide

theorem fits_runtimePackages {names : List String} (signals : DockerfileSignals) :
    (BuildInstruction.plain (.runMulti ["apt-get update",
      "apt-get install -y --no-install-recommends " ++ " ".intercalate (runtimePackages signals),
      "rm -rf /var/lib/apt/lists/*"])).Fits names := by
  refine fits_runMulti (List.cons_ne_nil _ _) ?_
  simp only [List.forall_mem_cons]
  refine ⟨by decide, item_after (by decide) (by decide) ?_, by decide, by simp⟩
  rw [String.toList_intercalate]
  refine item_intercalate (fun hmap ↦ ?_) fun _ hword ↦ ?_
  · rw [List.map_eq_nil_iff, runtimePackages, List.append_assoc] at hmap
    cases hmap
  · obtain ⟨package, hpackage, rfl⟩ := List.mem_map.mp hword
    exact word_runtimePackages signals package hpackage

theorem item_displayArguments {arguments : List String}
    (h : ∀ argument ∈ arguments, Clean argument.toList) :
    Item (displayArguments arguments).toList := by
  have hclean : Clean (", ".intercalate (arguments.map fun a ↦ "\"" ++ a ++ "\"")).toList := by
    rw [String.toList_intercalate]
    refine clean_intercalate (by decide) fun text htext ↦ ?_
    rw [List.map_map] at htext
    obtain ⟨argument, hargument, rfl⟩ := List.mem_map.mp htext
    have hquote : Clean "\"".toList := by decide
    simp only [Function.comp_apply, String.toList_append]
    exact (hquote.append (h argument hargument)).append hquote
  refine item_after ?_ ?_ (by decide)
  · rw [String.toList_append, List.mem_append]
    exact not_or.mpr ⟨by decide, fun hmem ↦ (hclean _ hmem).1 rfl⟩
  · rw [String.toList_append]
    rfl

/-- The settings of the published root. -/
theorem bindings_published (h : signals.Legible) (pairs : List (String × String))
    (hpairs : pairs = (if signals.pages then (signals.staticRoot.bind StaticRoot.envBinding).toList
      else []) ++ (signals.staticRoot.bind StaticRoot.urlEnvBinding).toList) :
    ∀ pair ∈ pairs, Word pair.1.toList ∧ Solid pair.2.toList := by
  intro pair hpair
  rw [hpairs] at hpair
  cases hroot : signals.staticRoot with
  | none =>
    rw [hroot] at hpair
    simp at hpair
  | some root =>
    rw [hroot] at hpair
    refine (h.root root hroot).bindings pair (List.mem_append.mpr ?_)
    rcases List.mem_append.mp hpair with hpair | hpair
    · split at hpair
      · exact .inl hpair
      · exact absurd hpair List.not_mem_nil
    · exact .inr hpair

/-- The stages that the runtime stage copies from. -/
def runtimeSources (signals : BuildSignals) : List String :=
  if signals.pages then ["builder", "assets"] else ["builder"]

theorem builder_mem_runtimeSources : "builder" ∈ runtimeSources signals := by
  rw [runtimeSources]
  split <;> decide

theorem word_buildPath (h : signals.Legible) {root : StaticRoot} (hroot : root.Legible) :
    Word (root.buildPath signals.projectRelativePath) := by
  unfold StaticRoot.buildPath
  split
  · next habsolute =>
    refine ⟨?_, hroot.path⟩
    intro hnil
    rw [hnil] at habsolute
    cases habsolute
  · cases hmember : signals.projectRelativePath with
    | none => exact Word.append (by decide) hroot.path
    | some member =>
      refine Word.append (by decide) ((h.member member hmember).append ?_)
      exact Solid.append (a := ['/']) (by decide) hroot.path

theorem word_runtimePath {root : StaticRoot} (hroot : root.Legible) :
    Word root.runtimePath.toList := by
  rw [StaticRoot.runtimePath]
  split
  · next habsolute =>
    refine ⟨?_, hroot.path⟩
    intro hnil
    rw [hnil] at habsolute
    cases habsolute
  · exact word_append (by decide) hroot.path

theorem fits_runtimeCopies (h : signals.Legible) :
    ∀ i ∈ (runtimeCopies signals.toDockerfileSignals).map BuildInstruction.plain,
      i.Fits (runtimeSources signals) := by
  rw [runtimeCopies, List.map_append, List.map_append, List.map_append, List.forall_mem_append,
    List.forall_mem_append, List.forall_mem_append]
  refine ⟨⟨⟨?_, ?_⟩, ?_⟩, ?_⟩
  · simp only [List.map_cons, List.map_nil, List.forall_mem_cons]
    refine ⟨?_, ?_, by simp⟩
    · exact fits_copy builder_mem_runtimeSources (by decide)
        (word_append (by decide) h.project.2) (by decide)
    · exact fits_copy builder_mem_runtimeSources (by decide) (by decide) (by decide)
  · split
    · rw [List.map_singleton, List.forall_mem_singleton]
      exact fits_comment (by decide)
    · exact List.forall_mem_nil _
  · split
    · next hpages =>
      intro i hi
      rw [List.map_map] at hi
      obtain ⟨root, hroot, rfl⟩ := List.mem_map.mp hi
      have hlegible := h.root root (Option.mem_toList.mp hroot)
      refine fits_copy ?_ (by decide) ?_ (word_runtimePath hlegible)
      · rw [runtimeSources, if_pos hpages]
        decide
      · rw [String.toList_ofList]
        exact word_buildPath h hlegible
    · exact List.forall_mem_nil _
  · split
    · rw [List.map_singleton, List.forall_mem_singleton]
      refine fits_copy builder_mem_runtimeSources (by decide) ?_ (by decide)
      cases hmember : signals.projectRelativePath with
      | none => decide
      | some member =>
        refine word_append (word_append (by decide) ?_) (by decide)
        rw [String.toList_ofList]
        exact h.member member hmember
    · exact List.forall_mem_nil _

theorem sound_runtime (h : signals.Legible) :
    (buildRuntimeStage signals.toDockerfileSignals).toBuild.Sound (runtimeSources signals)
      "runtime" where
  platform := rfl
  base := by
    show Word (signals.baseImageOverride.getD "debian:bookworm-slim").toList
    cases hbase : signals.baseImageOverride with
    | none => exact (by decide : Word "debian:bookworm-slim".toList)
    | some base => exact (h.base base hbase).1
  unflagged := by
    show ¬ platformFlag <+: (signals.baseImageOverride.getD "debian:bookworm-slim").toList
    cases hbase : signals.baseImageOverride with
    | none =>
      exact unflagged_of_head (by show "debian:bookworm-slim".toList.head? ≠ some '-'; decide)
    | some base => exact (h.base base hbase).2
  named := rfl
  instructions := by
    show ∀ i ∈ List.map BuildInstruction.plain (_ ++ _ :: _ ++ _ ++ _ :: _ ++ _), _
    simp only [List.map_append, List.map_cons, List.map_nil, List.forall_mem_append,
      List.forall_mem_cons]
    refine ⟨⟨⟨⟨?_, ?_, fits_runtimeCopies h⟩, ?_⟩, ?_, ?_⟩, ?_, ?_, by simp⟩
    · split
      · exact List.forall_mem_nil _
      · simp only [List.map_cons, List.map_nil, List.forall_mem_cons]
        exact ⟨fits_runtimePackages _, fits_run (by decide), by simp⟩
    · exact fits_workdir (by decide)
    · split
      · simp only [List.map_cons, List.map_nil, List.forall_mem_cons]
        exact ⟨fits_comment (by decide), fits_text rfl rfl (by decide) trivial (by decide), by simp⟩
      · simp only [List.map_cons, List.map_nil, List.forall_mem_cons]
        exact ⟨fits_run (by decide), fits_comment (by decide),
          fits_text rfl rfl (by decide) trivial (by decide), by simp⟩
    · refine fits_env (by simp) ?_
      rw [h.session, Option.toList_none, List.map_nil, List.append_nil, List.append_assoc,
        List.forall_mem_append]
      exact ⟨by decide, bindings_published h _ rfl⟩
    · split
      · simp only [List.map_cons, List.map_nil, List.forall_mem_cons]
        exact ⟨fits_env (List.cons_ne_nil _ _) (by decide),
          fits_env (List.cons_ne_nil _ _) (by decide), by simp⟩
      · exact List.forall_mem_nil _
    · exact fits_word rfl rfl rfl (by decide) trivial (by decide)
    · refine fits_text rfl rfl (by decide) trivial (item_displayArguments ?_)
      have hprogram : Clean ("/app/" ++ signals.projectName).toList :=
        (word_append (by decide) h.project.2).2.clean
      split
      · exact fun argument hargument ↦ List.mem_singleton.mp hargument ▸ hprogram
      · simp only [List.forall_mem_cons]
        exact ⟨by decide, by decide, hprogram, by simp⟩

end Stages

/-! ## The whole Dockerfile -/

theorem BuildStage.Sound.readable {stage : BuildStage} {names : List String} {name : String}
    (h : stage.Sound names name) (hname : Word name.toList) : stage.Readable name :=
  ⟨h.platform, h.base, h.unflagged, h.named, hname, fun i hi ↦ (h.instructions i hi).1⟩

theorem BuildStage.Sound.name_said {stage : BuildStage} {names : List String} {name : String}
    (h : stage.Sound names name) : stage.said.name = some name.toList := by
  rw [BuildStage.said, h.named]
  rfl

/-- A sound stage copies from stages with the names. -/
theorem BuildStage.Sound.copies {stage : BuildStage} {names : List String} {name : String}
    (h : stage.Sound names name) : ∀ source ∈ stage.said.instructions.filterMap copiesFrom,
      source ∈ names.map String.toList := by
  intro source hsource
  obtain ⟨said, hsaid, hcopies⟩ := List.mem_filterMap.mp hsource
  obtain ⟨i, hi, hsaid⟩ := List.mem_filterMap.mp hsaid
  exact mem_of_copiesFrom_said (h.instructions i hi).2 hsaid hcopies

theorem resolvedAfter_cons {stage : BuildStage} {names : List String} {name : String}
    (h : stage.Sound names name) {before : List String} (hbefore : names ⊆ before)
    (hnew : name ∉ before) {rest : List Dockerfiles.Stage}
    (hrest : ResolvedAfter ((before ++ [name]).map String.toList) rest) :
    ResolvedAfter (before.map String.toList) (stage.said :: rest) := by
  refine ⟨fun source hsource ↦ List.map_subset _ hbefore (h.copies source hsource), ?_, ?_⟩
  · intro other hother
    rw [h.name_said] at hother
    obtain rfl := Option.mem_some.mp hother
    intro hmem
    obtain ⟨earlier, hearlier, htext⟩ := List.mem_map.mp hmem
    exact hnew (String.toList_inj.mp htext ▸ hearlier)
  · rw [h.name_said, Option.toList_some]
    rwa [List.map_append, List.map_singleton] at hrest

theorem pagesStages_eq_some {signals : BuildSignals} {pages : List BuildStage}
    (h : pagesStages signals = some pages) :
    (signals.pages = false ∧ pages = []) ∨ ∃ version ∈ signals.wasmBindgenVersion,
      ∃ root ∈ signals.staticRoot, signals.pages = true ∧
        pages = [(buildWasmStage signals version).toBuild, buildAssetsStage signals root] := by
  unfold pagesStages at h
  split at h
  · next hpages =>
    obtain ⟨version, hversion, h⟩ := Option.bind_eq_some_iff.mp h
    obtain ⟨root, hroot, rfl⟩ := Option.map_eq_some_iff.mp h
    exact .inr ⟨version, hversion, root, hroot, hpages, rfl⟩
  · next hpages =>
    cases h
    exact .inl ⟨Bool.eq_false_of_not_eq_true hpages, rfl⟩

/-- What is generated of legible texts is read as it was written, and each of its copies is from a
stage before. -/
theorem read_generate {signals : BuildSignals} (h : signals.Legible) {dockerfile : Dockerfile}
    (hgenerate : generate signals = some dockerfile) :
    read dockerfile.display.toList = some (dockerfile.stages.map BuildStage.said) ∧
      ResolvedAfter [] (dockerfile.stages.map BuildStage.said) := by
  obtain ⟨pages, hpages, rfl⟩ := Option.map_eq_some_iff.mp hgenerate
  have hcomment : '\n' ∉ "Generated by reinhardt-cloud. Do not edit manually.".toList := by decide
  have hchef := sound_chef h
  have hbuilder := sound_builder h
  have hruntime := sound_runtime h
  obtain ⟨hoff, rfl⟩ | ⟨version, hversion, root, hroot, hon, rfl⟩ := pagesStages_eq_some hpages
  · refine ⟨read_display ⟨hcomment, ?_⟩, ?_⟩
    · simp only [List.append_nil, List.cons_append, List.nil_append, List.forall_mem_cons]
      exact ⟨⟨_, hchef.readable (by decide)⟩, ⟨_, hbuilder.readable (by decide)⟩,
        ⟨_, hruntime.readable (by decide)⟩, by simp⟩
    · rw [runtimeSources, hoff] at hruntime
      show ResolvedAfter (([] : List String).map String.toList) _
      refine resolvedAfter_cons hchef (by simp) (by decide) ?_
      refine resolvedAfter_cons hbuilder (by decide) (by decide) ?_
      exact resolvedAfter_cons hruntime (by decide) (by decide) trivial
  · have hwasm := sound_wasm h hversion
    have hassets := sound_assets h hroot
    refine ⟨read_display ⟨hcomment, ?_⟩, ?_⟩
    · simp only [List.cons_append, List.nil_append, List.forall_mem_cons]
      exact ⟨⟨_, hchef.readable (by decide)⟩, ⟨_, hbuilder.readable (by decide)⟩,
        ⟨_, hwasm.readable (by decide)⟩, ⟨_, hassets.readable (by decide)⟩,
        ⟨_, hruntime.readable (by decide)⟩, by simp⟩
    · rw [runtimeSources, hon] at hruntime
      show ResolvedAfter (([] : List String).map String.toList) _
      refine resolvedAfter_cons hchef (by simp) (by decide) ?_
      refine resolvedAfter_cons hbuilder (by decide) (by decide) ?_
      refine resolvedAfter_cons hwasm (by decide) (by decide) ?_
      refine resolvedAfter_cons hassets (by decide) (by decide) ?_
      exact resolvedAfter_cons hruntime (by decide) (by decide) trivial

/-! ## Collected texts -/

/-- A name of letters in upper case, digits and underscores is a word. -/
theorem word_of_isUpperName {name : String} (hne : name.toList ≠ []) (h : isUpperName name = true) :
    Word name.toList :=
  ⟨hne, fun c hc ↦ not_mem_wordLimits (p := fun c ↦ c.isUpper || c.isDigit || c = '_') (by decide)
    (List.all_eq_true.mp h c hc)⟩

theorem word_of_insertBuildVariable {name : String} {names result : List String}
    (h : insertBuildVariable name names = .ok result) : Word name.toList := by
  unfold insertBuildVariable at h
  split at h
  · cases h
  · next hvalid =>
    rw [Bool.or_eq_true, Bool.or_eq_true, Bool.or_eq_true, not_or, not_or, not_or,
      Bool.not_eq_true', Bool.not_eq_true', Bool.not_eq_false, Bool.not_eq_false] at hvalid
    obtain ⟨⟨⟨hhead, hupper⟩, -⟩, -⟩ := hvalid
    refine word_of_isUpperName ?_ hupper
    intro hnil
    rw [hnil] at hhead
    cases hhead

/-- Every name is a word. -/
def AllWords (names : List String) : Prop := ∀ name ∈ names, Word name.toList

theorem AllWords.insertBuildVariable {name : String} {names result : List String}
    (hnames : AllWords names) (h : insertBuildVariable name names = .ok result) :
    AllWords result := by
  have hword := word_of_insertBuildVariable h
  unfold Cli.insertBuildVariable at h
  split at h
  · cases h
  · split at h
    · cases h
      exact hnames
    · cases h
      intro other hother
      rcases (List.mem_orderedInsert _).mp hother with rfl | hother
      · exact hword
      · exact hnames other hother

theorem AllWords.requiredVariable {expression : String} {names result : List String}
    (hnames : AllWords names) (h : requiredVariable expression names = .ok result) :
    AllWords result := by
  unfold Cli.requiredVariable at h
  split at h
  · exact hnames.insertBuildVariable h
  · split at h
    · cases h
      exact hnames
    · split at h
      · exact hnames.insertBuildVariable h
      · cases h

theorem AllWords.foldlM {expressions : List String} {names result : List String}
    (hnames : AllWords names) (h : expressions.foldlM
      (fun names expression ↦ Cli.requiredVariable expression names) names = .ok result) :
    AllWords result := by
  induction expressions generalizing names with
  | nil =>
    cases h
    exact hnames
  | cons expression rest ih =>
    rw [List.foldlM_cons] at h
    obtain ⟨next, hnext, h⟩ := except_bind_ok h
    exact ih (hnames.requiredVariable hnext) h

mutual

private theorem words_collected : (value : Toml) → ∀ {names result}, AllWords names →
    collectRequiredVariables names value = .ok result → AllWords result
  | .string text, names, result, hnames, h => by
    rw [collectRequiredVariables] at h
    exact hnames.foldlM h
  | .table entries, names, result, hnames, h => by
    rw [collectRequiredVariables] at h
    split at h
    · obtain ⟨next, hnext, h⟩ := except_bind_ok h
      exact words_entries entries (hnames.insertBuildVariable hnext) h
    · exact words_entries entries hnames h
  | .array items, names, result, hnames, h => by
    rw [collectRequiredVariables] at h
    exact words_items items hnames h
  | .integer _, names, result, hnames, h => by
    cases h
    exact hnames
  | .boolean _, names, result, hnames, h => by
    cases h
    exact hnames

private theorem words_entries : (entries : List (String × Toml)) → ∀ {names result},
    AllWords names → collectFromEntries names entries = .ok result → AllWords result
  | [], names, result, hnames, h => by
    cases h
    exact hnames
  | (key, value) :: rest, names, result, hnames, h => by
    rw [collectFromEntries] at h
    split at h
    · exact words_entries rest hnames h
    · obtain ⟨next, hnext, h⟩ := except_bind_ok h
      exact words_entries rest (words_collected value hnames hnext) h

private theorem words_items : (items : List Toml) → ∀ {names result},
    AllWords names → collectFromItems names items = .ok result → AllWords result
  | [], names, result, hnames, h => by
    cases h
    exact hnames
  | value :: rest, names, result, hnames, h => by
    rw [collectFromItems] at h
    obtain ⟨next, hnext, h⟩ := except_bind_ok h
    exact words_items rest (words_collected value hnames hnext) h

end

/-- A path of path characters stands in a line as it is. -/
theorem solid_of_isPathChar {text : List Char} (h : ∀ c ∈ text, isPathChar c = true) : Solid text :=
  fun c hc ↦ not_mem_wordLimits (p := isPathChar) (by decide) (h c hc)

theorem solid_of_checkUrl {url : String} (h : checkUrl url = .ok ()) : Solid url.toList := by
  unfold checkUrl at h
  dsimp only at h
  split at h
  · cases h
  · next hvalid =>
    rw [Bool.or_eq_true, Bool.or_eq_true, not_or, not_or, Bool.not_eq_true', Bool.not_eq_false,
      List.all_eq_true] at hvalid
    exact solid_of_isPathChar hvalid.1.2

theorem CheckedRoot.solid {member : Option MemberPath} {path : String}
    (h : CheckedRoot member path) : Solid path.toList := by
  have hrelative : Solid (relativeRoot path) := solid_of_isPathChar h.chars
  cases habsolute : isAbsoluteRoot path with
  | true =>
    rw [relativeRoot_absolute habsolute]
    exact Solid.append (by decide) hrelative
  | false => rwa [← relativeRoot_relative habsolute]

theorem word_of_declaredUrl {settings : Toml} {buildArgs : List (String × String)} {url : String}
    {binding : Option (String × String)}
    (h : declaredUrl settings buildArgs = .ok (url, binding)) :
    ∀ b ∈ binding, Word b.1.toList ∧ b.2 = url := by
  unfold declaredUrl at h
  split at h
  · cases h
    exact fun b hb ↦ absurd hb (Option.not_mem_none b)
  · split at h
    · cases h
    · split at h
      · cases h
        exact fun b hb ↦ absurd hb (Option.not_mem_none b)
      · obtain ⟨_, hinsert, h⟩ := except_bind_ok h
        split at h
        · cases h
        · split at h
          · cases h
          · cases h
            intro b hb
            obtain rfl := Option.mem_some.mp hb
            exact ⟨word_of_insertBuildVariable hinsert, rfl⟩

theorem word_of_declaredRoot {settings : Toml} {buildArgs : List (String × String)} {path : String}
    {binding : Option (String × String)}
    (h : declaredRoot settings buildArgs = .ok (path, binding)) :
    ∀ b ∈ binding, Word b.1.toList ∧ b.2 = path := by
  unfold declaredRoot at h
  split at h
  · cases h
  · split at h
    · cases h
    · split at h
      · cases h
        exact fun b hb ↦ absurd hb (Option.not_mem_none b)
      · split at h
        · cases h
        · next hname =>
          rw [Bool.or_eq_true, not_or, Bool.not_eq_true', Bool.not_eq_true', Bool.not_eq_false,
            Bool.not_eq_false] at hname
          split at h
          · cases h
          · cases h
            intro b hb
            obtain rfl := Option.mem_some.mp hb
            refine ⟨word_of_isUpperName ?_ hname.2, rfl⟩
            intro hnil
            have hsuffix := hname.1
            dsimp only at hnil
            rw [hnil] at hsuffix
            cases hsuffix

/-- What is read of the settings stands in a line as it is. -/
theorem legible_of_readStaticRoot {tree : ProjectTree} {buildArgs : List (String × String)}
    {root : StaticRoot} (h : readStaticRoot tree buildArgs = .ok root) : root.Legible := by
  obtain ⟨settings, -, h⟩ := except_bind_ok h
  obtain ⟨required, hrequired, h⟩ := except_bind_ok h
  obtain ⟨⟨url, urlEnvBinding⟩, hurl, h⟩ := except_bind_ok h
  obtain ⟨_, hcheckUrl, h⟩ := except_bind_ok h
  obtain ⟨_, -, h⟩ := except_bind_ok h
  obtain ⟨⟨path, envBinding⟩, hpath, h⟩ := except_bind_ok h
  obtain ⟨_, hcheckRoot, h⟩ := except_bind_ok h
  cases h
  have hsolid := (checkedRoot_of_ok hcheckRoot).solid
  have hwords := words_collected settings (fun _ hname ↦ absurd hname List.not_mem_nil) hrequired
  constructor
  case path => exact hsolid
  case bindings =>
    intro binding hbinding
    rcases List.mem_append.mp hbinding with hbinding | hbinding
    · obtain ⟨hword, hvalue⟩ := word_of_declaredRoot hpath binding (Option.mem_toList.mp hbinding)
      exact ⟨hword, hvalue ▸ hsolid⟩
    · obtain ⟨hword, hvalue⟩ := word_of_declaredUrl hurl binding (Option.mem_toList.mp hbinding)
      exact ⟨hword, hvalue ▸ solid_of_checkUrl hcheckUrl⟩
  case buildArgs =>
    intro name hname
    exact hwords name (List.mem_of_mem_filter (List.mem_of_mem_filter hname))
  case buildEnv =>
    intro name hname
    exact hwords name (List.mem_of_mem_filter (List.mem_of_mem_filter hname))

theorem word_of_parseChannel {toolchain : Toml} {channel : String}
    (h : parseChannel toolchain = .ok channel) : Word channel.toList := by
  unfold parseChannel at h
  split at h
  · cases h
  · unfold validateChannel at h
    split at h
    · cases h
    · next hvalid =>
      cases h
      rw [Bool.or_eq_true, not_or, Bool.not_eq_true', Bool.not_eq_false, List.all_eq_true] at hvalid
      refine ⟨fun hnil ↦ hvalid.1 (String.isEmpty_iff.mpr (String.toList_eq_nil_iff.mp hnil)), ?_⟩
      exact fun c hc ↦ not_mem_wordLimits (p := isTokenChar) (by decide) (hvalid.2 c hc)

theorem word_of_wasmVersion {config : ReinhardtCloudToml} {lock : Option (Except String Toml)}
    {version : String} (h : wasmVersion config lock = .ok version) : Word version.toList := by
  obtain ⟨fromLock, -, h⟩ := except_bind_ok h
  split at h
  · cases h
  · next found hfound =>
    unfold validateDockerToken at h
    split at h
    · next hvalid =>
      cases h
      rw [isVersionToken, Bool.and_eq_true, Bool.not_eq_true', List.all_eq_true] at hvalid
      refine ⟨?_, fun c hc ↦ not_mem_wordLimits (p := fun c ↦ isTokenChar c || c = '+') (by decide)
        (hvalid.2 c hc)⟩
      intro hnil
      rw [String.isEmpty_iff.mpr (String.toList_eq_nil_iff.mp hnil)] at hvalid
      exact absurd hvalid.1 (by decide)
    · cases h

theorem word_of_validatePackageName {name : String} (h : validatePackageName name = .ok ()) :
    Word name.toList := by
  obtain ⟨hne, hchars⟩ := mem_packageName h
  refine ⟨hne, fun c hc ↦ not_mem_wordLimits
    (p := fun c ↦ c.isAlphanum || (decide (c = '-') || decide (c = '_'))) (by decide) ?_⟩
  rw [Bool.or_eq_true, Bool.or_eq_true, decide_eq_true_eq, decide_eq_true_eq]
  exact hchars c hc

section Collected

variable {Version : Type} [LinearOrder Version] {parse : String → Option Version}
  {inputs : BuildInputs} {metadata : ProjectMetadata} {config : ReinhardtCloudToml}
  {signals : BuildSignals}

theorem except_map_some {ε α : Type} {x : Except ε α} {o : Option α}
    (h : x.map some = .ok o) : ∃ a, x = .ok a ∧ o = some a := by
  cases x with
  | error e => cases h
  | ok a =>
    cases h
    exact ⟨a, rfl, rfl⟩

/-- What signals are collected from. -/
structure Collected (parse : String → Option Version) (inputs : BuildInputs)
    (metadata : ProjectMetadata) (config : ReinhardtCloudToml) (signals : BuildSignals) :
    Prop where
  project : signals.projectName = metadata.name
  base : signals.baseImageOverride = config.build.bind BuildSection.baseImage
  member : signals.projectRelativePath = inputs.tree.member
  session : signals.sessionBackend = none
  rust : inputs.toolchain.bind parseChannel = .ok signals.rustVersion
  wasm : ∀ version ∈ signals.wasmBindgenVersion, ∃ lock, wasmVersion config lock = .ok version
  root : ∀ root ∈ signals.staticRoot, ∃ lock,
    publication parse metadata config lock inputs.tree = .ok root
  pages : signals.pages = true →
    signals.wasmBindgenVersion.isSome = true ∧ signals.staticRoot.isSome = true

theorem collected_of_ok (h : collectSignals parse inputs metadata config = .ok signals) :
    Collected parse inputs metadata config signals := by
  obtain ⟨_, -, h⟩ := except_bind_ok h
  obtain ⟨rustVersion, hrust, h⟩ := except_bind_ok h
  obtain ⟨lock, -, h⟩ := except_bind_ok h
  dsimp only at h
  by_cases hpages : metadata.signals.pages = true
  · rw [if_pos hpages] at h
    obtain ⟨wasm, hwasm, h⟩ := except_bind_ok h
    rw [if_pos hpages] at h
    obtain ⟨root, hroot, h⟩ := except_bind_ok h
    cases h
    obtain ⟨version, hversion, rfl⟩ := except_map_some hwasm
    obtain ⟨published, hpublished, rfl⟩ := except_map_some hroot
    refine ⟨rfl, rfl, rfl, rfl, hrust, ?_, ?_, fun _ ↦ ⟨rfl, rfl⟩⟩
    · rintro _ ⟨⟩
      exact ⟨lock, hversion⟩
    · rintro _ ⟨⟩
      exact ⟨lock, hpublished⟩
  · rw [if_neg hpages] at h
    obtain ⟨wasm, hwasm, h⟩ := except_bind_ok h
    rw [if_neg hpages] at h
    obtain ⟨root, hroot, h⟩ := except_bind_ok h
    cases h
    cases hwasm
    cases hroot
    refine ⟨rfl, rfl, rfl, rfl, hrust, ?_, ?_, fun hon ↦ absurd hon hpages⟩
    · exact fun _ hversion ↦ absurd hversion (Option.not_mem_none _)
    · exact fun _ hroot ↦ absurd hroot (Option.not_mem_none _)

/-- What is collected of a project stands in lines as it is. -/
theorem Collected.legible (h : Collected parse inputs metadata config signals)
    (hname : validatePackageName metadata.name = .ok ())
    (hbase : ∀ base ∈ config.build.bind BuildSection.baseImage,
      Word base.toList ∧ ¬ platformFlag <+: base.toList)
    (hmember : ∀ member ∈ inputs.tree.member, Solid member.text) : signals.Legible where
  project := h.project ▸ word_of_validatePackageName hname
  rust := by
    obtain ⟨toolchain, -, hchannel⟩ := except_bind_ok h.rust
    exact word_of_parseChannel hchannel
  wasm := by
    intro version hversion
    obtain ⟨lock, hlock⟩ := h.wasm version hversion
    exact word_of_wasmVersion hlock
  root := by
    intro root hroot
    obtain ⟨lock, hpublished⟩ := h.root root hroot
    obtain ⟨_, -, hpublished⟩ := except_bind_ok hpublished
    obtain ⟨_, -, hpublished⟩ := except_bind_ok hpublished
    exact legible_of_readStaticRoot hpublished
  base := h.base ▸ hbase
  member := h.member ▸ hmember
  session := h.session

/-- No stage of pages lacks its version or its root. -/
theorem Collected.generate_isSome (h : Collected parse inputs metadata config signals) :
    (generate signals).isSome = true := by
  rw [generate, Option.isSome_map, pagesStages]
  split
  · next hpages =>
    obtain ⟨hversion, hroot⟩ := h.pages hpages
    obtain ⟨version, hversion⟩ := Option.isSome_iff_exists.mp hversion
    obtain ⟨root, hroot⟩ := Option.isSome_iff_exists.mp hroot
    rw [hversion, hroot]
    rfl
  · rfl

/-- For every project whose signals can be collected a Dockerfile is generated; a build reads it as
it was written, and each of its copies is from a stage before. -/
theorem generated_dockerfile_reads (h : collectSignals parse inputs metadata config = .ok signals)
    (hname : validatePackageName metadata.name = .ok ())
    (hbase : ∀ base ∈ config.build.bind BuildSection.baseImage,
      Word base.toList ∧ ¬ platformFlag <+: base.toList)
    (hmember : ∀ member ∈ inputs.tree.member, Solid member.text) :
    ∃ dockerfile, generate signals = some dockerfile ∧
      read dockerfile.display.toList = some (dockerfile.stages.map BuildStage.said) ∧
      ResolvedAfter [] (dockerfile.stages.map BuildStage.said) := by
  have hcollected := collected_of_ok h
  obtain ⟨dockerfile, hgenerate⟩ := Option.isSome_iff_exists.mp hcollected.generate_isSome
  exact ⟨dockerfile, hgenerate, read_generate (hcollected.legible hname hbase hmember) hgenerate⟩

end Collected

/-! ## Two projects -/

/-- The lock file of `shop`, which has the framework and wasm-bindgen. -/
def shopPackages : List Toml :=
  [lockEntry "shop" "0.1.0" ["reinhardt-commands"],
    lockEntry "reinhardt-commands" "0.4.0-alpha.20" ["wasm-bindgen"],
    lockEntry "wasm-bindgen" "0.2.100" []]

/-- The member `apps/shop` of a workspace. Its static root, its static URL and a token come from the
arguments of a build or have a default; its key only has to be there. -/
def shopTree : ProjectTree where
  profile := fun name ↦
    if name = "production" then some (.ok (.table
      [("feed", .string "$\x7bFEED_TOKEN\x7d"), ("key", .string "$\x7bSECRET_KEY:?no key\x7d"),
        ("static_files", .table [("root", .string "$\x7bSHOP_ROOT:-public\x7d"),
          ("url", .string "$\x7bSHOP_URL\x7d")])]))
    else none
  member := some ⟨"apps/shop".toList, by decide⟩
  containsCrateManifest := fun _ ↦ .ok false

/-- What an image of it is built from. -/
def shopInputs : BuildInputs where
  toolchain := .ok (.table [("toolchain", .table [("channel", .string "1.94.1")])])
  lock := .ok (some (.ok (.table [("package", .array shopPackages)])))
  hasSettingsDir := true
  hasMigrationsDir := true
  tree := shopTree

/-- A project with a database and the features. -/
def shopWith (features : List String) : ProjectMetadata :=
  ⟨"shop", "0.1.0", "db-postgres" :: features, .fromFeatures ("db-postgres" :: features)⟩

/-- A configuration with a base image and build arguments. -/
def shopConfig (baseImage : Option String) : ReinhardtCloudToml where
  app := ⟨"shop", "shop:latest"⟩
  source := some ⟨"https://git.example/shop", none, none, none, some
    { baseImage := baseImage
      buildArgs := (SortedMap.empty.insert "FEED_TOKEN" "a b").insert "SHOP_URL" "/assets/" },
    none, none⟩

/-- Its root: the URL and the root are bound, the token is an argument of the build. -/
def shopRoot : StaticRoot :=
  ⟨"public", "/assets/", some ("SHOP_URL", "/assets/"), some ("SHOP_ROOT", "public"),
    ["SECRET_KEY"], ["FEED_TOKEN"]⟩

theorem requireBuildstatic_shop :
    requireBuildstatic alphaRelease (some (.ok (.table [("package", .array shopPackages)])))
      "shop" "0.1.0" = .ok () := by
  have hroots : indicesOf shopPackages (isApplication "shop" "0.1.0") = [⟨0, by decide⟩] := by
    decide +kernel
  have hshop : visitPackage alphaRelease 20 shopPackages false ⟨0, by decide⟩ =
      .ok (false, [⟨1, by decide⟩]) := by decide +kernel
  have hcommands : visitPackage alphaRelease 20 shopPackages false ⟨1, by decide⟩ =
      .ok (true, [⟨2, by decide⟩]) := by decide +kernel
  have hbindgen : visitPackage alphaRelease 20 shopPackages true ⟨2, by decide⟩ =
      .ok (true, []) := by decide +kernel
  have hsearch : search (visitPackage alphaRelease 20 shopPackages) false ∅ [⟨0, by decide⟩] =
      .ok true := by
    simp [search, hshop, hcommands, hbindgen]
  have hminimum : alphaRelease "0.4.0-alpha.20" = some 20 := by decide
  have hpackages : packagesOf (.table [("package", .array shopPackages)]) = some shopPackages := by
    rfl
  simp [requireBuildstatic, hpackages, hroots, hminimum, hsearch]

/-- The signals of `shop` with pages. -/
theorem collectSignals_pages : ∃ signals,
    collectSignals alphaRelease shopInputs (shopWith ["pages"]) (shopConfig none) = .ok signals ∧
      signals.projectRelativePath = shopTree.member ∧ signals.staticRoot = some shopRoot := by
  have hversion : wasmVersion (shopConfig none) (some (.ok (.table
      [("package", .array shopPackages)]))) = .ok "0.2.100" := by decide +kernel
  have hroot : readStaticRoot shopTree (shopConfig none).buildArguments = .ok shopRoot := by
    decide +kernel
  have hpublication : publication alphaRelease (shopWith ["pages"]) (shopConfig none)
      (some (.ok (.table [("package", .array shopPackages)]))) shopTree = .ok shopRoot := by
    rw [publication, hroot]
    simp only [shopWith, requireBuildstatic_shop]
    rfl
  have hpages : (shopWith ["pages"]).signals.pages = true := by decide
  have hcontext : validateBuildContext (shopConfig none) = .ok () := by rfl
  have hlock : shopInputs.lock = .ok (some (.ok (.table [("package", .array shopPackages)]))) := by
    rfl
  have htree : shopInputs.tree = shopTree := by rfl
  simp only [collectSignals, hcontext, hlock, htree, hpages, if_true, hversion,
    hpublication, bind, Except.bind, Except.map]
  exact ⟨_, rfl, rfl, rfl⟩

/-- The image of the member with pages, its arguments and variables; and without pages, but from a
base image of its own. -/
theorem generated_dockerfile_reads_shop :
    (∃ signals, collectSignals alphaRelease shopInputs (shopWith ["pages"]) (shopConfig none) =
        .ok signals ∧ signals.projectRelativePath = shopTree.member ∧
      signals.staticRoot = some shopRoot ∧
      ∃ dockerfile, generate signals = some dockerfile ∧
        read dockerfile.display.toList = some (dockerfile.stages.map BuildStage.said) ∧
        ResolvedAfter [] (dockerfile.stages.map BuildStage.said)) ∧
    ∃ signals, collectSignals alphaRelease shopInputs (shopWith [])
        (shopConfig (some "debian:stable-slim")) = .ok signals ∧
      signals.baseImageOverride = some "debian:stable-slim" ∧
      ∃ dockerfile, generate signals = some dockerfile ∧
        read dockerfile.display.toList = some (dockerfile.stages.map BuildStage.said) ∧
        ResolvedAfter [] (dockerfile.stages.map BuildStage.said) := by
  have hname : validatePackageName "shop" = .ok () := by decide
  have hmember : ∀ member ∈ shopInputs.tree.member, Solid member.text := by
    rintro _ ⟨⟩
    decide
  constructor
  · obtain ⟨signals, hsignals, hpath, hroot⟩ := collectSignals_pages
    refine ⟨signals, hsignals, hpath, hroot, generated_dockerfile_reads hsignals hname ?_ hmember⟩
    exact fun _ hbase ↦ absurd hbase (Option.not_mem_none _)
  · obtain ⟨signals, hsignals, hbase⟩ : ∃ signals, collectSignals alphaRelease shopInputs
        (shopWith []) (shopConfig (some "debian:stable-slim")) = .ok signals ∧
          signals.baseImageOverride = some "debian:stable-slim" := ⟨_, rfl, rfl⟩
    refine ⟨signals, hsignals, hbase, generated_dockerfile_reads hsignals hname ?_ hmember⟩
    rintro _ ⟨⟩
    decide

end ReinhardtCloud.Cli

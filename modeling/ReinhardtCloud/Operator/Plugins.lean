import Mathlib.Data.String.Basic
import ReinhardtCloud.Base.Affixes
import ReinhardtCloud.Base.Paths
import ReinhardtCloud.Base.SortedMap
import ReinhardtCloud.Base.TomlText
import ReinhardtCloud.Operator.Migration
import ReinhardtCloud.Operator.ServiceNames
import ReinhardtCloud.Operator.Tenants

/-!
# Plugins

Library `Operator`. The plugin checks of `ProjectSpec::validate`
(`crates/reinhardt-cloud-types/src/crd/{plugins,spec}.rs`) and the builders of
`crates/reinhardt-cloud-operator/src/resources/plugins.rs`. The TOML library is a parameter.
-/

namespace ReinhardtCloud.Operator

open ReinhardtCloud.Base

/-! ## Checks, `crd/plugins.rs` -/

/-- `sanitized_volume_suffix`, `plugins.rs:25–37`. -/
def sanitizedVolumeSuffix (name : String) : String :=
  let sanitized := (name.toList.map fun c ↦ if c.isAlphanum then c else '-').map Char.toLower
  let trimmed := trimDashes sanitized
  if trimmed.isEmpty then "plugin" else String.ofList trimmed

/-- The names and directories seen so far, with the errors found among them. -/
structure SeenPlugins where
  errors : List String
  suffixes : SortedMap String Unit
  dirs : SortedMap String Unit

/-- One more plugin of the loop, `spec.rs:457–475`. -/
def SeenPlugins.see (seen : SeenPlugins) (plugin : PluginSpec) : SeenPlugins :=
  let suffix := sanitizedVolumeSuffix plugin.name
  let dir := trim plugin.wasmDir
  let errors := seen.errors ++ if suffix ∈ seen.suffixes.keys then
    ["spec.plugins contains entries whose sanitized name collides on Volume suffix '" ++ suffix ++
      "'"] else []
  let suffixes := seen.suffixes.insert suffix ()
  if dir = "" then ⟨errors, suffixes, seen.dirs⟩
  else
    ⟨errors ++ if dir ∈ seen.dirs.keys then
        ["spec.plugins contains entries with duplicate wasm_dir '" ++ dir ++ "'"] else [],
      suffixes, seen.dirs.insert dir ()⟩

/-- The plugins of a list, seen one after the other. -/
def SeenPlugins.ofList (plugins : List PluginSpec) : SeenPlugins :=
  plugins.foldl SeenPlugins.see ⟨[], .empty, .empty⟩

/-- One of the directories is the other or above it. -/
def dirsOverlap (dir other : String) : Bool :=
  pathStartsWith dir.toList other.toList || pathStartsWith other.toList dir.toList

theorem dirsOverlap_comm (dir other : String) : dirsOverlap dir other = dirsOverlap other dir :=
  Bool.or_comm _ _

/-- The pairs of the sorted directories, `spec.rs:476–489`. -/
def overlapErrors : List String → List String
  | [] => []
  | dir :: rest =>
    (rest.filter (dirsOverlap dir)).map (fun other ↦
      "spec.plugins contains overlapping wasm_dir mount paths '" ++ dir ++ "' and '" ++ other ++
        "'") ++ overlapErrors rest

/-- What `ProjectSpec::validate` has against the plugins, `spec.rs:446–492`. -/
def pluginErrors (spec : ProjectSpec) : List String :=
  match spec.plugins with
  | none => []
  | some plugins =>
    let seen := SeenPlugins.ofList plugins
    plugins.flatMap PluginSpec.errors ++ seen.errors ++ overlapErrors seen.dirs.keys

/-! ## What the checks leave -/

theorem mem_of_mem_trimDashes {c : Char} {l : List Char} (h : c ∈ trimDashes l) : c ∈ l := by
  rw [trimDashes, List.mem_reverse] at h
  have hback := List.dropWhile_subset _ h
  exact List.dropWhile_subset _ (List.mem_reverse.mp hback)

theorem getLast?_trimDashes_ne (l : List Char) : (trimDashes l).getLast? ≠ some '-' := by
  intro h
  have hhead := List.head?_dropWhile_not (fun c ↦ decide (c = '-'))
    (l.dropWhile (· = '-')).reverse
  rw [trimDashes, List.getLast?_reverse] at h
  rw [h] at hhead
  cases hhead

/-- The character that stands for one of a name. -/
theorem isLabelChar_sanitized (c : Char) :
    IsLabelChar (if c.isAlphanum then c else '-').toLower := by
  split
  · next h => exact .inl (isDns1123Alphanumeric_toLower h)
  · exact .inr (by decide)

/-- A suffix is not empty, does not end in a dash and has characters of labels only. -/
theorem sanitizedVolumeSuffix_shape (name : String) :
    (∀ c ∈ (sanitizedVolumeSuffix name).toList, IsLabelChar c) ∧
      (sanitizedVolumeSuffix name).toList.getLast?.any isDns1123Alphanumeric = true := by
  have hchars : ∀ c ∈ (name.toList.map fun c ↦ if c.isAlphanum then c else '-').map Char.toLower,
      IsLabelChar c := by
    intro c hc
    obtain ⟨d, hd, rfl⟩ := List.mem_map.mp hc
    obtain ⟨e, -, rfl⟩ := List.mem_map.mp hd
    exact isLabelChar_sanitized e
  rw [sanitizedVolumeSuffix]
  generalize (name.toList.map fun c ↦ if c.isAlphanum then c else '-').map Char.toLower =
    sanitized at hchars
  by_cases hempty : (trimDashes sanitized).isEmpty = true
  · rw [if_pos hempty]
    constructor
    · have hplugin : ∀ c ∈ "plugin".toList, isDns1123Alphanumeric c = true :=
        List.all_eq_true.mp (by decide)
      exact fun c hc ↦ .inl (hplugin c hc)
    · decide
  · rw [if_neg hempty, String.toList_ofList]
    have hsub : ∀ c ∈ trimDashes sanitized, IsLabelChar c := fun c hc ↦
      hchars c (mem_of_mem_trimDashes hc)
    refine ⟨hsub, ?_⟩
    cases hlast : (trimDashes sanitized).getLast? with
    | none =>
      rw [List.getLast?_eq_none_iff] at hlast
      rw [hlast] at hempty
      exact absurd rfl hempty
    | some c =>
      rw [Option.any_some]
      rcases hsub c (List.mem_of_getLast? hlast) with h | rfl
      · exact h
      · exact absurd hlast (getLast?_trimDashes_ne sanitized)

/-- The first character is a blank. -/
def startsInSpace (s : String) : Bool := s.toList.head?.any isWhiteSpace

/-- The last character is a blank. -/
def endsInSpace (s : String) : Bool := s.toList.getLast?.any isWhiteSpace

/-- A text that does not begin with a blank is its trimmed text and the blanks behind it. -/
theorem eq_trim_append {s : String} (h : startsInSpace s = false) :
    ∃ ending, (∀ c ∈ ending, isWhiteSpace c = true) ∧
      s.toList = (trim s).toList ++ ending := by
  have hdrop : s.toList.dropWhile isWhiteSpace = s.toList := by
    rw [startsInSpace] at h
    cases hs : s.toList with
    | nil => rfl
    | cons c rest =>
      rw [hs, List.head?_cons, Option.any_some] at h
      exact List.dropWhile_cons_of_neg (by rw [h]; exact Bool.false_ne_true)
  refine ⟨(s.toList.reverse.takeWhile isWhiteSpace).reverse, ?_, ?_⟩
  · intro c hc
    exact List.mem_takeWhile_imp (List.mem_reverse.mp hc)
  · rw [trim, hdrop, String.toList_ofList, ← List.reverse_append,
      List.takeWhile_append_dropWhile, List.reverse_reverse]

theorem trim_eq_self {s : String} (h : startsInSpace s = false)
    (hlast : endsInSpace s = false) : trim s = s := by
  obtain ⟨ending, hending, hs⟩ := eq_trim_append h
  have hnil : ending = [] := by
    rcases List.eq_nil_or_concat ending with hnil | ⟨front, last, hconcat⟩
    · exact hnil
    · rw [List.concat_eq_append] at hconcat
      have hmem : last ∈ ending := by
        rw [hconcat]
        exact List.mem_append_right _ List.mem_cons_self
      have hblank := hending last hmem
      rw [endsInSpace, hs, hconcat, ← List.append_assoc, List.getLast?_concat, Option.any_some,
        hblank] at hlast
      cases hlast
  rw [hnil, List.append_nil] at hs
  exact (String.toList_inj.mp hs).symm

/-- An accepted directory is one below the root of all plugins, as far as its text goes. -/
theorem trim_wasmDir_of_errors {plugin : PluginSpec} (h : plugin.errors = []) :
    trim plugin.wasmDir ≠ "" ∧
      startsWith (trim plugin.wasmDir) (pluginWasmDirPrefix ++ "/") = true := by
  rw [PluginSpec.errors] at h
  simp only [List.append_eq_nil_iff] at h
  obtain ⟨⟨⟨-, hdir⟩, -⟩, -⟩ := h
  split at hdir
  · cases hdir
  · next hne =>
    refine ⟨hne, ?_⟩
    simp only [List.append_eq_nil_iff] at hdir
    obtain ⟨⟨habsolute, hparent⟩, hunder⟩ := hdir
    have h1 : startsWith (trim plugin.wasmDir) "/" = true := by
      by_contra hnot
      rw [if_neg hnot] at habsolute
      cases habsolute
    have h2 : ((trim plugin.wasmDir).toList.splitOn '/').any (· = ['.', '.']) = false := by
      by_contra hany
      rw [if_pos (Bool.eq_true_of_not_eq_false hany)] at hparent
      cases hparent
    by_contra hnot
    rw [if_pos] at hunder
    · cases hunder
    · rw [h1, h2, Bool.eq_false_of_not_eq_true hnot]
      rfl

/-- The plugins seen without an error differ in their suffixes and directories, among each other and
from those before. -/
theorem SeenPlugins.distinct_of_errors {plugins : List PluginSpec}
    (hdirs : ∀ p ∈ plugins, trim p.wasmDir ≠ "") {seen : SeenPlugins}
    (h : (plugins.foldl SeenPlugins.see seen).errors = []) :
    seen.errors = [] ∧
      (∀ p ∈ plugins, sanitizedVolumeSuffix p.name ∉ seen.suffixes.keys ∧
        trim p.wasmDir ∉ seen.dirs.keys) ∧
      plugins.Pairwise fun p q ↦ sanitizedVolumeSuffix p.name ≠ sanitizedVolumeSuffix q.name ∧
        trim p.wasmDir ≠ trim q.wasmDir := by
  induction plugins generalizing seen with
  | nil => exact ⟨h, by simp, .nil⟩
  | cons plugin rest ih =>
    obtain ⟨hdir, hrest⟩ := List.forall_mem_cons.mp hdirs
    obtain ⟨herrors, hapart, hpairs⟩ := ih hrest h
    have hsee : seen.see plugin = ⟨(seen.see plugin).errors,
        seen.suffixes.insert (sanitizedVolumeSuffix plugin.name) (),
        seen.dirs.insert (trim plugin.wasmDir) ()⟩ := by
      rw [see, if_neg hdir]
    rw [hsee] at hapart
    rw [see, if_neg hdir] at herrors
    simp only [List.append_eq_nil_iff, ite_eq_right_iff, List.cons_ne_nil, imp_false] at herrors
    obtain ⟨⟨hseen, hsuffix⟩, hnew⟩ := herrors
    simp only [SortedMap.mem_keys_insert, not_or] at hapart
    refine ⟨hseen, ?_, List.Pairwise.cons ?_ hpairs⟩
    · intro p hp
      rcases List.mem_cons.mp hp with rfl | hp
      · exact ⟨hsuffix, hnew⟩
      · exact ⟨(hapart p hp).1.2, (hapart p hp).2.2⟩
    · intro p hp
      exact ⟨Ne.symm (hapart p hp).1.1, Ne.symm (hapart p hp).2.1⟩

theorem SeenPlugins.mem_dirs {plugins : List PluginSpec}
    (hdirs : ∀ p ∈ plugins, trim p.wasmDir ≠ "") {seen : SeenPlugins} {dir : String} :
    dir ∈ (plugins.foldl SeenPlugins.see seen).dirs.keys ↔
      dir ∈ seen.dirs.keys ∨ ∃ p ∈ plugins, trim p.wasmDir = dir := by
  induction plugins generalizing seen with
  | nil => simp
  | cons plugin rest ih =>
    obtain ⟨hdir, hrest⟩ := List.forall_mem_cons.mp hdirs
    have hsee : (seen.see plugin).dirs = seen.dirs.insert (trim plugin.wasmDir) () := by
      rw [see, if_neg hdir]
    rw [List.foldl_cons, ih hrest, hsee, SortedMap.mem_keys_insert, List.exists_mem_cons_iff,
      eq_comm (a := dir), or_assoc, or_left_comm]

theorem dirsOverlap_of_overlapErrors {dirs : List String} (h : overlapErrors dirs = []) :
    dirs.Pairwise fun dir other ↦ dirsOverlap dir other = false := by
  induction dirs with
  | nil => exact .nil
  | cons dir rest ih =>
    rw [overlapErrors, List.append_eq_nil_iff, List.map_eq_nil_iff, List.filter_eq_nil_iff] at h
    refine List.Pairwise.cons ?_ (ih h.2)
    intro other hother
    exact Bool.eq_false_of_not_eq_true (h.1 other hother)

/-- What `ProjectSpec::validate` says of plugins it has nothing against. -/
structure PluginsAccepted (plugins : List PluginSpec) : Prop where
  each : ∀ p ∈ plugins, p.errors = []
  suffixes : plugins.Pairwise fun p q ↦
    sanitizedVolumeSuffix p.name ≠ sanitizedVolumeSuffix q.name
  dirs : plugins.Pairwise fun p q ↦
    dirsOverlap (trim p.wasmDir) (trim q.wasmDir) = false

theorem pluginsAccepted_of_pluginErrors {spec : ProjectSpec} (h : pluginErrors spec = [])
    {plugins : List PluginSpec} (hplugins : spec.plugins = some plugins) :
    PluginsAccepted plugins := by
  simp only [pluginErrors, hplugins, List.append_eq_nil_iff] at h
  obtain ⟨⟨heach, hseen⟩, hoverlap⟩ := h
  have heach : ∀ p ∈ plugins, p.errors = [] := List.flatMap_eq_nil_iff.mp heach
  have hdirs : ∀ p ∈ plugins, trim p.wasmDir ≠ "" := fun p hp ↦
    (trim_wasmDir_of_errors (heach p hp)).1
  obtain ⟨-, -, hpairs⟩ := SeenPlugins.distinct_of_errors hdirs hseen
  refine ⟨heach, hpairs.imp And.left, ?_⟩
  -- Different directories stand apart in the sorted set, whatever their order there.
  have hsymm : Std.Symm fun dir other ↦ dirsOverlap dir other = false :=
    ⟨fun dir other h ↦ (dirsOverlap_comm other dir).trans h⟩
  have hset := (dirsOverlap_of_overlapErrors hoverlap).forall
  have hmem : ∀ p ∈ plugins, trim p.wasmDir ∈ (SeenPlugins.ofList plugins).dirs.keys :=
    fun p hp ↦ (SeenPlugins.mem_dirs hdirs).mpr (.inr ⟨p, hp, rfl⟩)
  refine hpairs.imp_of_mem ?_
  intro p q hp hq hne
  exact hset (hmem p hp) (hmem q hq) hne.2

/-! ## The document, `resources/plugins.rs` -/

/-- `plugin_type_str`. -/
def pluginTypeStr : PluginType → String
  | .httpMiddleware => "http-middleware"
  | .grpcInterceptor => "grpc-interceptor"
  | .eventHandler => "event-handler"

/-- `capability_str`. -/
def capabilityStr : PluginCapability → String
  | .networkAccess => "network"
  | .filesystemRead => "fs-read"
  | .filesystemWrite => "fs-write"
  | .envAccess => "env"

/-- The type with a text. -/
def pluginTypeOf (text : String) : Option PluginType :=
  [.httpMiddleware, .grpcInterceptor, .eventHandler].find? fun ty ↦ pluginTypeStr ty = text

/-- The capability with a text. -/
def capabilityOf (text : String) : Option PluginCapability :=
  [.networkAccess, .filesystemRead, .filesystemWrite, .envAccess].find? fun cap ↦
    capabilityStr cap = text

/-- `PluginTomlEntry`, and reading one. -/
def pluginTomlEntry : Serde PluginSpec :=
  (Record.field "name" Serde.string.required <|
    .field "type" (Serde.variants pluginTypeStr pluginTypeOf
      (fun ty ↦ by cases ty <;> rfl)).required <|
    .field "wasm_dir" Serde.string.required <|
    .field "memory_limit_mb" Serde.uint64.optional <|
    .field "timeout_ms" Serde.uint64.optional <|
    .field "capabilities" (Serde.variants capabilityStr capabilityOf
      (fun cap ↦ by cases cap <;> rfl)).list.required .nil).serde
    (fun p ↦ (p.name, p.pluginType, p.wasmDir, p.memoryLimitMb, p.timeoutMs, p.capabilities, ⟨⟩))
    (fun (name, pluginType, wasmDir, memoryLimitMb, timeoutMs, capabilities, _) ↦
      { name, pluginType, wasmDir, memoryLimitMb, timeoutMs, capabilities })
    (fun _ ↦ rfl) fun _ ↦ rfl

/-- `PluginTomlDocument`. -/
def pluginTomlDocument : Serde (List PluginSpec) :=
  (Record.field "plugins" pluginTomlEntry.list.required .nil).serde (fun plugins ↦ (plugins, ⟨⟩))
    Prod.fst (fun _ ↦ rfl) fun _ ↦ rfl

/-- `render_plugin_config`. -/
def renderPluginConfig (toml : TomlCodec) (plugins : List PluginSpec) : Except Error String :=
  match toml.toString (pluginTomlDocument.write plugins) with
  | .ok text => .ok text
  | .error message => .error (.pluginConfigRender message)

/-! ## The builders -/

/-- `plugin_configmap_name`. -/
def pluginConfigmapName (app : Project) : String := app.name ++ "-dentdelion-plugins"

/-- The `ConfigMap` of `build_plugin_configmap`. -/
structure PluginConfigMap where
  name : String
  ns : String
  labels : StringMap
  owner : Uid
  data : StringMap
  deriving DecidableEq

/-- `build_plugin_configmap`. -/
def buildPluginConfigmap (toml : TomlCodec) (app : Project) :
    Except Error (Option PluginConfigMap) :=
  match app.spec.plugins with
  | none => .ok none
  | some plugins =>
    if plugins.isEmpty then .ok none
    else do
      validatePluginSpecs plugins
      let ns ← requireNamespace app
      let owner ← ownerReference app
      let rendered ← renderPluginConfig toml plugins
      return some
        { name := pluginConfigmapName app
          ns := ns
          labels := standardLabels app .plugins
          owner := owner
          data := [("dentdelion.toml", rendered)] }

/-- What a volume holds. -/
inductive VolumeSource where
  | configMap (name : String)
  | emptyDir
  deriving DecidableEq

/-- `Volume`. -/
structure Volume where
  name : String
  source : VolumeSource
  deriving DecidableEq

/-- `VolumeMount`. -/
structure VolumeMount where
  name : String
  mountPath : String
  readOnly : Option Bool := none
  deriving DecidableEq

/-- `PLUGIN_CONFIG_VOLUME_NAME`. -/
def pluginConfigVolumeName : String := "dentdelion-config"

/-- `DENTDELION_CONFIG_MOUNT_DIR`. -/
def dentdelionConfigMountDir : String := "/etc/dentdelion"

/-- `plugin_volume_name`. -/
def pluginVolumeName (plugin : PluginSpec) : String :=
  "dentdelion-" ++ sanitizedVolumeSuffix plugin.name

/-- `build_plugin_volumes`. -/
def buildPluginVolumes (app : Project) : Except Error (List Volume × List VolumeMount) :=
  match app.spec.plugins with
  | none => .ok ([], [])
  | some plugins =>
    if plugins.isEmpty then .ok ([], [])
    else do
      validatePluginSpecs plugins
      return (⟨pluginConfigVolumeName, .configMap (pluginConfigmapName app)⟩ ::
          plugins.map fun plugin ↦ ⟨pluginVolumeName plugin, .emptyDir⟩,
        ⟨pluginConfigVolumeName, dentdelionConfigMountDir, some true⟩ ::
          plugins.map fun plugin ↦ ⟨pluginVolumeName plugin, plugin.wasmDir, none⟩)

/-- The volumes are built of the plugins that the check lets through. -/
theorem buildPluginVolumes_check (app : Project) :
    (buildPluginVolumes app).map (fun _ ↦ ()) = pluginChecks.plugins app := by
  show Except.map _ (buildPluginVolumes app) = validatePluginSpecs (app.spec.plugins.getD [])
  unfold buildPluginVolumes
  cases app.spec.plugins with
  | none => rfl
  | some plugins =>
    cases plugins with
    | nil => rfl
    | cons plugin rest =>
      dsimp only [List.isEmpty_cons, Option.getD_some]
      cases validatePluginSpecs (plugin :: rest) with
      | error e => rfl
      | ok u => rfl

/-! ## What the builders return for accepted plugins -/

section Builders

variable {plugins : List PluginSpec} (haccepted : ∀ p ∈ plugins, p.errors = [])

include haccepted

theorem validatePluginSpecs_of_errors : validatePluginSpecs plugins = .ok () := by
  have hnil : (plugins.zipIdx.flatMap fun entry ↦
      entry.1.errors.map fun message ↦ s!"plugins[{entry.2}]: {message}") = [] := by
    rw [List.flatMap_eq_nil_iff]
    intro entry hentry
    obtain ⟨p, idx⟩ := entry
    rw [haccepted p (List.fst_mem_of_mem_zipIdx hentry), List.map_nil]
  rw [validatePluginSpecs]
  exact if_pos (by rw [hnil, List.isEmpty_nil])

variable {app : Project} (hplugins : app.spec.plugins = some plugins) (hne : plugins ≠ [])

include hplugins hne

theorem buildPluginVolumes_eq :
    buildPluginVolumes app =
      .ok (⟨pluginConfigVolumeName, .configMap (pluginConfigmapName app)⟩ ::
          plugins.map fun plugin ↦ ⟨pluginVolumeName plugin, .emptyDir⟩,
        ⟨pluginConfigVolumeName, dentdelionConfigMountDir, some true⟩ ::
          plugins.map fun plugin ↦ ⟨pluginVolumeName plugin, plugin.wasmDir, none⟩) := by
  have hempty : plugins.isEmpty = false := List.isEmpty_eq_false_iff.mpr hne
  simp only [buildPluginVolumes, hplugins, hempty, validatePluginSpecs_of_errors haccepted]
  rfl

theorem buildPluginConfigmap_eq (toml : TomlCodec) {ns : String} {uid : Uid}
    (hns : app.ns = some ns) (huid : app.uid = some uid) :
    buildPluginConfigmap toml app = (renderPluginConfig toml plugins).map fun rendered ↦ some
      { name := pluginConfigmapName app
        ns := ns
        labels := standardLabels app .plugins
        owner := uid
        data := [("dentdelion.toml", rendered)] } := by
  have hempty : plugins.isEmpty = false := List.isEmpty_eq_false_iff.mpr hne
  simp only [buildPluginConfigmap, hplugins, hempty, validatePluginSpecs_of_errors haccepted,
    requireNamespace, hns, ownerReference, huid]
  cases renderPluginConfig toml plugins with
  | ok rendered => rfl
  | error e => rfl

end Builders

end ReinhardtCloud.Operator

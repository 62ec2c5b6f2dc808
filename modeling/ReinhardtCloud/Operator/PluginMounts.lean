import ReinhardtCloud.Operator.Plugins

/-!
# Which plugins can be mounted

Library `Operator`. What a Pod needs of the volumes and mounts of accepted plugins, and which
plugins provide it: their directories are checked trimmed and mounted as written, and their volumes
share the start of their names with the volume of the configuration.
-/

namespace ReinhardtCloud.Operator

open ReinhardtCloud.Base

/-! ## What a Pod needs -/

/-- The volumes have different names, all labels. -/
structure VolumeNames (volumes : List Volume) : Prop where
  labels : ∀ volume ∈ volumes, isDns1123Label volume.name = true
  distinct : (volumes.map Volume.name).Nodup

/-- The path is in the root of all plugins and is not the root. -/
def liesUnderPluginRoot (path : String) : Bool :=
  pathStartsWith path.toList pluginWasmDirPrefix.toList &&
    !pathStartsWith pluginWasmDirPrefix.toList path.toList

/-- The mounts, of which the first is that of the configuration, have absolute paths, of which none
is or contains another. -/
structure MountPaths (mounts : List VolumeMount) : Prop where
  absolute : ∀ mount ∈ mounts, startsWith mount.mountPath "/" = true
  under : ∀ mount ∈ mounts.tail, liesUnderPluginRoot mount.mountPath = true
  apart : mounts.Pairwise fun mount other ↦
    mount.mountPath ≠ other.mountPath ∧ dirsOverlap mount.mountPath other.mountPath = false

/-- The document of the plugins is there, if there are any, and reading it gives them back. -/
def ReadsBack (toml : TomlCodec) (plugins : List PluginSpec) (configMap : Option PluginConfigMap) :
    Prop :=
  plugins ≠ [] → ∃ built ∈ configMap, ∃ text, built.data.lookup "dentdelion.toml" = some text ∧
    (toml.parse text).bind pluginTomlDocument.read = some plugins

/-- The plugins of a Project are materialized and can be mounted. -/
def PluginsMountable (toml : TomlCodec) (app : Project) : Prop :=
  ∃ configMap volumes mounts, buildPluginConfigmap toml app = .ok configMap ∧
    buildPluginVolumes app = .ok (volumes, mounts) ∧ VolumeNames volumes ∧ MountPaths mounts ∧
    ReadsBack toml (app.spec.plugins.getD []) configMap

/-! ## When plugins provide it -/

/-- Plugins whose volumes and mounts hold beside each other and the configuration. -/
structure MountablePlugins (plugins : List PluginSpec) : Prop where
  limits : ∀ p ∈ plugins, (∀ n ∈ p.memoryLimitMb, n.toNat < 2 ^ 63) ∧
    ∀ n ∈ p.timeoutMs, n.toNat < 2 ^ 63
  names : ∀ p ∈ plugins, sanitizedVolumeSuffix p.name ≠ "config" ∧
    (sanitizedVolumeSuffix p.name).length ≤ 52
  leading : ∀ p ∈ plugins, startsInSpace p.wasmDir = false
  root : ∀ p ∈ plugins,
    pathStartsWith pluginWasmDirPrefix.toList p.wasmDir.toList = false
  trailing : plugins.Pairwise fun p q ↦
    (endsInSpace p.wasmDir = true → pathStartsWith q.wasmDir.toList p.wasmDir.toList = false) ∧
      (endsInSpace q.wasmDir = true → pathStartsWith p.wasmDir.toList q.wasmDir.toList = false)

/-! ### Names -/

/-- A volume's name is a label exactly when its plugin's suffix fits. -/
theorem isDns1123Label_pluginVolumeName {plugin : PluginSpec} :
    isDns1123Label (pluginVolumeName plugin) = true ↔
      (sanitizedVolumeSuffix plugin.name).length ≤ 52 := by
  obtain ⟨hchars, hlast⟩ := sanitizedVolumeSuffix_shape plugin.name
  have hlist : (pluginVolumeName plugin).toList =
      "dentdelion-".toList ++ (sanitizedVolumeSuffix plugin.name).toList := by
    rw [pluginVolumeName, String.toList_append]
  have hall : ∀ c ∈ (pluginVolumeName plugin).toList, IsLabelChar c := by
    intro c hc
    rw [hlist] at hc
    rcases List.mem_append.mp hc with hc | hc
    · have hstart : ∀ c ∈ "dentdelion-".toList,
          (isDns1123Alphanumeric c || c = '-') = true := List.all_eq_true.mp (by decide)
      rcases Bool.or_eq_true_iff.mp (hstart c hc) with h | h
      · exact .inl h
      · exact .inr (of_decide_eq_true h)
    · exact hchars c hc
  have hsize : (pluginVolumeName plugin).utf8ByteSize =
      11 + (sanitizedVolumeSuffix plugin.name).length := by
    have hbytes := utf8ByteSize_of_ascii fun c hc ↦ toNat_le_of_isLabelChar (hall c hc)
    rw [String.ofList_toList, hlist, List.length_append, String.length_toList] at hbytes
    exact hbytes
  rw [isDns1123Label_iff, hsize]
  constructor
  · rintro ⟨hle, -⟩
    omega
  · intro hle
    refine ⟨by omega, by rw [hlist]; rfl, ?_, hall⟩
    obtain ⟨c, hc⟩ := Option.isSome_iff_exists.mp (Option.isSome_of_any hlast)
    rw [hlist, List.getLast?_append, hc, Option.some_or, ← hc]
    exact hlast

theorem volumeNames_iff {app : Project} {plugins : List PluginSpec}
    (haccepted : PluginsAccepted plugins) :
    VolumeNames (⟨pluginConfigVolumeName, .configMap (pluginConfigmapName app)⟩ ::
        plugins.map fun plugin ↦ ⟨pluginVolumeName plugin, .emptyDir⟩) ↔
      ∀ p ∈ plugins, sanitizedVolumeSuffix p.name ≠ "config" ∧
        (sanitizedVolumeSuffix p.name).length ≤ 52 := by
  have hconfig (p : PluginSpec) :
      pluginConfigVolumeName = pluginVolumeName p ↔ sanitizedVolumeSuffix p.name = "config" := by
    have hname : pluginConfigVolumeName = "dentdelion-" ++ "config" := rfl
    rw [hname, pluginVolumeName, String.append_right_inj, eq_comm]
  have hnames : (plugins.map fun plugin ↦ (⟨pluginVolumeName plugin, .emptyDir⟩ : Volume)).map
      Volume.name = plugins.map pluginVolumeName := by
    rw [List.map_map]
    exact List.map_congr_left fun _ _ ↦ rfl
  constructor
  · rintro ⟨hlabels, hdistinct⟩ p hp
    rw [List.map_cons, List.nodup_cons, hnames, List.mem_map] at hdistinct
    constructor
    · intro hsame
      exact hdistinct.1 ⟨p, hp, ((hconfig p).mpr hsame).symm⟩
    · have hlabel := hlabels ⟨pluginVolumeName p, .emptyDir⟩
        (List.mem_cons_of_mem _ (List.mem_map_of_mem hp))
      exact isDns1123Label_pluginVolumeName.mp hlabel
  · intro h
    constructor
    · intro volume hvolume
      rcases List.mem_cons.mp hvolume with rfl | hvolume
      · exact (by decide : isDns1123Label pluginConfigVolumeName = true)
      · obtain ⟨p, hp, rfl⟩ := List.mem_map.mp hvolume
        exact isDns1123Label_pluginVolumeName.mpr (h p hp).2
    · rw [List.map_cons, List.nodup_cons, hnames]
      constructor
      · intro hmem
        obtain ⟨p, hp, hsame⟩ := List.mem_map.mp hmem
        exact (h p hp).1 ((hconfig p).mp hsame.symm)
      · rw [List.Nodup, List.pairwise_map]
        refine haccepted.suffixes.imp ?_
        intro p q hne hsame
        exact hne ((String.append_right_inj _).mp hsame)

/-! ### Paths -/

theorem dirsOverlap_eq_false_iff {dir other : String} :
    dirsOverlap dir other = false ↔
      ¬ pathComponents other.toList <+: pathComponents dir.toList ∧
        ¬ pathComponents dir.toList <+: pathComponents other.toList := by
  rw [dirsOverlap, Bool.or_eq_false_iff, ← pathStartsWith_iff, ← pathStartsWith_iff,
    Bool.not_eq_true, Bool.not_eq_true]

/-- The directory of an accepted plugin, as written: what was checked and the blanks behind it. -/
theorem wasmDir_of_errors {plugin : PluginSpec} (herrors : plugin.errors = [])
    (hleading : startsInSpace plugin.wasmDir = false) :
    startsWith plugin.wasmDir "/" = true ∧
      pathComponents pluginWasmDirPrefix.toList <+: pathComponents plugin.wasmDir.toList := by
  obtain ⟨-, hunder⟩ := trim_wasmDir_of_errors herrors
  obtain ⟨rest, hrest⟩ := startsWith_iff.mp hunder
  obtain ⟨ending, -, hdir⟩ := eq_trim_append hleading
  have hlist : plugin.wasmDir.toList =
      pluginWasmDirPrefix.toList ++ '/' :: (rest.toList ++ ending) := by
    rw [hdir, hrest, String.toList_append, String.toList_append, List.append_assoc,
      List.append_assoc]
    rfl
  constructor
  · rw [startsWith, hlist]
    rfl
  · rw [hlist, pathComponents_append (by decide)]
    exact List.prefix_append _ _

/-- The configuration is mounted elsewhere. -/
theorem dirsOverlap_config {dir : String}
    (h : pathComponents pluginWasmDirPrefix.toList <+: pathComponents dir.toList) :
    dirsOverlap dentdelionConfigMountDir dir = false := by
  rw [dirsOverlap_eq_false_iff]
  constructor
  · intro hdir
    exact absurd (h.trans hdir) (by decide)
  · intro hconfig
    exact absurd (List.prefix_of_prefix_length_le hconfig h (by decide)) (by decide)

/-- Directories that were checked apart are only below each other where a blank that was trimmed off
makes them so. -/
theorem not_prefix_wasmDir {p q : PluginSpec}
    (hchecked : dirsOverlap (trim p.wasmDir) (trim q.wasmDir) = false)
    (hp : startsInSpace p.wasmDir = false) (hq : startsInSpace q.wasmDir = false)
    (hpends : endsInSpace p.wasmDir = true →
      pathStartsWith q.wasmDir.toList p.wasmDir.toList = false)
    (hqends : endsInSpace q.wasmDir = true →
      pathStartsWith p.wasmDir.toList q.wasmDir.toList = false) :
    ¬ pathComponents p.wasmDir.toList <+: pathComponents q.wasmDir.toList := by
  intro h
  obtain ⟨-, hnot⟩ := dirsOverlap_eq_false_iff.mp hchecked
  by_cases hpblank : endsInSpace p.wasmDir = true
  · exact absurd (pathStartsWith_iff.mpr h) (Bool.eq_false_iff.mp (hpends hpblank))
  · rw [trim_eq_self hp (Bool.eq_false_of_not_eq_true hpblank)] at hnot
    obtain ⟨ending, hblank, hdir⟩ := eq_trim_append hq
    have hslash : '/' ∉ ending := by
      intro hmem
      exact absurd (hblank _ hmem) (by decide)
    -- Both are the same path, and the second one has the blank.
    have hsame : pathComponents p.wasmDir.toList = pathComponents q.wasmDir.toList := by
      rw [hdir] at h ⊢
      exact (prefix_pathComponents_append hslash h).resolve_left hnot
    by_cases hqblank : endsInSpace q.wasmDir = true
    · have hback : pathStartsWith p.wasmDir.toList q.wasmDir.toList = true := by
        rw [pathStartsWith_iff, hsame]
      exact absurd hback (Bool.eq_false_iff.mp (hqends hqblank))
    · rw [trim_eq_self hq (Bool.eq_false_of_not_eq_true hqblank), hsame] at hnot
      exact hnot (List.prefix_refl _)

theorem mountPaths_iff {plugins : List PluginSpec} (haccepted : PluginsAccepted plugins) :
    MountPaths (⟨pluginConfigVolumeName, dentdelionConfigMountDir, some true⟩ ::
        plugins.map fun plugin ↦ ⟨pluginVolumeName plugin, plugin.wasmDir, none⟩) ↔
      (∀ p ∈ plugins, startsInSpace p.wasmDir = false) ∧
      (∀ p ∈ plugins, pathStartsWith pluginWasmDirPrefix.toList p.wasmDir.toList = false) ∧
      plugins.Pairwise fun p q ↦
        (endsInSpace p.wasmDir = true → pathStartsWith q.wasmDir.toList p.wasmDir.toList = false) ∧
          (endsInSpace q.wasmDir = true →
            pathStartsWith p.wasmDir.toList q.wasmDir.toList = false) := by
  constructor
  · rintro ⟨habsolute, hunder, hapart⟩
    refine ⟨?_, ?_, ?_⟩
    · intro p hp
      have hslash : startsWith p.wasmDir "/" = true :=
        habsolute ⟨pluginVolumeName p, p.wasmDir, none⟩
          (List.mem_cons_of_mem _ (List.mem_map_of_mem hp))
      obtain ⟨rest, hrest⟩ := startsWith_iff.mp hslash
      have hhead : p.wasmDir.toList.head? = some '/' := by
        rw [hrest, String.toList_append]
        rfl
      rw [startsInSpace, hhead]
      decide
    · intro p hp
      have hbelow := hunder ⟨pluginVolumeName p, p.wasmDir, none⟩ (List.mem_map_of_mem hp)
      rw [liesUnderPluginRoot, Bool.and_eq_true, Bool.not_eq_true'] at hbelow
      exact hbelow.2
    · have hpairs := (List.pairwise_cons.mp hapart).2
      rw [List.pairwise_map] at hpairs
      refine hpairs.imp ?_
      rintro p q ⟨-, hoverlap⟩
      rw [dirsOverlap, Bool.or_eq_false_iff] at hoverlap
      exact ⟨fun _ ↦ hoverlap.2, fun _ ↦ hoverlap.1⟩
  · rintro ⟨hleading, hroot, htrailing⟩
    have hdirs : ∀ p ∈ plugins, startsWith p.wasmDir "/" = true ∧
        pathComponents pluginWasmDirPrefix.toList <+: pathComponents p.wasmDir.toList :=
      fun p hp ↦ wasmDir_of_errors (haccepted.each p hp) (hleading p hp)
    have hne {dir other : String} (h : dirsOverlap dir other = false) : dir ≠ other := by
      rintro rfl
      exact (dirsOverlap_eq_false_iff.mp h).1 (List.prefix_refl _)
    refine ⟨?_, ?_, List.Pairwise.cons ?_ ?_⟩
    · intro mount hmount
      rcases List.mem_cons.mp hmount with rfl | hmount
      · decide
      · obtain ⟨p, hp, rfl⟩ := List.mem_map.mp hmount
        exact (hdirs p hp).1
    · intro mount hmount
      obtain ⟨p, hp, rfl⟩ := List.mem_map.mp hmount
      rw [liesUnderPluginRoot, Bool.and_eq_true, Bool.not_eq_true']
      exact ⟨pathStartsWith_iff.mpr (hdirs p hp).2, hroot p hp⟩
    · intro mount hmount
      obtain ⟨p, hp, rfl⟩ := List.mem_map.mp hmount
      have hconfig := dirsOverlap_config (hdirs p hp).2
      exact ⟨hne hconfig, hconfig⟩
    · rw [List.pairwise_map]
      refine (haccepted.dirs.and htrailing).imp_of_mem ?_
      rintro p q hp hq ⟨hchecked, hpends, hqends⟩
      have hoverlap : dirsOverlap p.wasmDir q.wasmDir = false := by
        rw [dirsOverlap_eq_false_iff]
        rw [dirsOverlap_comm] at hchecked
        exact ⟨not_prefix_wasmDir hchecked (hleading q hq) (hleading p hp) hqends hpends,
          not_prefix_wasmDir (dirsOverlap_comm _ _ ▸ hchecked) (hleading p hp) (hleading q hq)
            hpends hqends⟩
      exact ⟨hne hoverlap, hoverlap⟩

/-! ### The document -/

/-- Only the limits can be too large for a document. -/
theorem fits_pluginTomlDocument_iff {plugins : List PluginSpec} :
    pluginTomlDocument.fits plugins ↔
      ∀ p ∈ plugins, (∀ n ∈ p.memoryLimitMb, n.toNat < 2 ^ 63) ∧
        ∀ n ∈ p.timeoutMs, n.toNat < 2 ^ 63 := by
  constructor
  · rintro ⟨h, -⟩ p hp
    obtain ⟨-, -, -, hmemory, htimeout, -⟩ := h p hp
    exact ⟨hmemory, htimeout⟩
  · intro h
    refine ⟨?_, trivial⟩
    intro p hp
    exact ⟨trivial, trivial, trivial, (h p hp).1, (h p hp).2, fun _ _ ↦ trivial, trivial⟩

variable {toml : TomlCodec} {app : Project} {ns : String} {uid : Uid}

/-- The configuration is rendered and read back exactly when every limit is a TOML integer. -/
theorem readsBack_iff (hns : app.ns = some ns) (huid : app.uid = some uid)
    {plugins : List PluginSpec} (haccepted : PluginsAccepted plugins)
    (hplugins : app.spec.plugins = some plugins) (hne : plugins ≠ []) :
    (∃ configMap, buildPluginConfigmap toml app = .ok configMap ∧
      ReadsBack toml plugins configMap) ↔ pluginTomlDocument.fits plugins := by
  rw [← toml.reads_back_iff pluginTomlDocument rfl,
    buildPluginConfigmap_eq haccepted.each hplugins hne toml hns huid, renderPluginConfig]
  constructor
  · rintro ⟨configMap, hbuilt, hreads⟩
    cases htext : toml.toString (pluginTomlDocument.write plugins) with
    | error message =>
      rw [htext] at hbuilt
      cases hbuilt
    | ok text =>
      rw [htext] at hbuilt
      cases hbuilt
      obtain ⟨built, hsome, rendered, hlookup, hread⟩ := hreads hne
      obtain rfl := Option.some.inj hsome
      obtain rfl := Option.some.inj hlookup
      exact ⟨text, rfl, hread⟩
  · rintro ⟨text, htext, hread⟩
    rw [htext]
    exact ⟨_, rfl, fun _ ↦ ⟨_, rfl, text, rfl, hread⟩⟩

/-! ## Exactness -/

/-- Of plugins that `ProjectSpec::validate` accepts, those of a stored Project can be mounted
exactly when no volume has the configuration's name or one too long, no directory begins with a
blank, is the root or comes to contain another by a blank at its end, and every limit is a TOML
integer. -/
theorem plugins_mountable_iff (hns : app.ns = some ns) (huid : app.uid = some uid)
    (hvalid : pluginErrors app.spec = []) :
    PluginsMountable toml app ↔ MountablePlugins (app.spec.plugins.getD []) := by
  have hnone (hconfig : buildPluginConfigmap toml app = .ok none)
      (hvolumes : buildPluginVolumes app = .ok ([], [])) (hnil : app.spec.plugins.getD [] = []) :
      PluginsMountable toml app ↔ MountablePlugins (app.spec.plugins.getD []) := by
    rw [PluginsMountable, hnil]
    constructor
    · intro _
      constructor <;> simp
    · intro _
      refine ⟨none, [], [], hconfig, hvolumes, ⟨by simp, .nil⟩, ⟨by simp, by simp, .nil⟩, ?_⟩
      exact fun hne ↦ absurd rfl hne
  cases hplugins : app.spec.plugins with
  | none =>
    rw [← hplugins]
    apply hnone
    · rw [buildPluginConfigmap, hplugins]
    · rw [buildPluginVolumes, hplugins]
    · rw [hplugins, Option.getD_none]
  | some plugins =>
    by_cases hempty : plugins = []
    · rw [← hplugins]
      subst hempty
      apply hnone
      · rw [buildPluginConfigmap, hplugins]
        rfl
      · rw [buildPluginVolumes, hplugins]
        rfl
      · rw [hplugins, Option.getD_some]
    · have haccepted := pluginsAccepted_of_pluginErrors hvalid hplugins
      have hvolumes := buildPluginVolumes_eq haccepted.each hplugins hempty
      have hreads := @readsBack_iff toml _ _ _ hns huid _ haccepted hplugins hempty
      rw [fits_pluginTomlDocument_iff] at hreads
      rw [PluginsMountable, hplugins, Option.getD_some]
      constructor
      · rintro ⟨configMap, volumes, mounts, hconfig, hbuilt, hnames, hpaths, hread⟩
        rw [hvolumes] at hbuilt
        cases hbuilt
        obtain ⟨hleading, hroot, htrailing⟩ := (mountPaths_iff haccepted).mp hpaths
        exact ⟨hreads.mp ⟨configMap, hconfig, hread⟩, (volumeNames_iff haccepted).mp hnames,
          hleading, hroot, htrailing⟩
      · rintro ⟨hlimits, hnames, hleading, hroot, htrailing⟩
        obtain ⟨configMap, hconfig, hread⟩ := hreads.mpr hlimits
        exact ⟨configMap, _, _, hconfig, hvolumes, (volumeNames_iff haccepted).mpr hnames,
          (mountPaths_iff haccepted).mpr ⟨hleading, hroot, htrailing⟩, hread⟩

/-- A stored Project with the given plugins. -/
def pluginProject (plugins : List PluginSpec) : Project where
  name := "demo"
  ns := some "default"
  uid := some 1
  resourceVersion := none
  annotations := ⟨none, none, none, none⟩
  spec := { image := "demo:latest", plugins := some plugins }
  status := none

/-- A plugin with limits. -/
def authGate : PluginSpec where
  name := "auth-gate"
  wasmDir := "/var/lib/dentdelion/auth-gate"
  pluginType := .httpMiddleware
  memoryLimitMb := some 64
  timeoutMs := some 500
  capabilities := [.networkAccess]

/-- Its document. -/
def authGateText : String :=
  "[[plugins]]\n" ++
    ("name = \"auth-gate\"\ntype = \"http-middleware\"\n" ++
      ("wasm_dir = \"/var/lib/dentdelion/auth-gate\"\nmemory_limit_mb = 64\n" ++
        "timeout_ms = 500\ncapabilities = [\"network\"]\n"))

/-- The plugin is mounted and configured. -/
theorem plugins_mountable_authGate :
    ∃ toml : TomlCodec, toml.toString (pluginTomlDocument.write [authGate]) = .ok authGateText ∧
      PluginsMountable toml (pluginProject [authGate]) := by
  have htext : authGateText.toList.head? = some '[' := by
    rw [authGateText, String.toList_append]
    rfl
  let toml := TomlCodec.ofInjective
    (Toml.codeWith (pluginTomlDocument.write [authGate]) authGateText)
    (Toml.codeWith_injective htext)
  refine ⟨toml, congrArg Except.ok (Toml.codeWith_self _ _), ?_⟩
  have hplugins : MountablePlugins [authGate] := by
    constructor
    · intro p hp
      obtain rfl := List.mem_singleton.mp hp
      refine ⟨?_, ?_⟩ <;> (intro n hn; obtain rfl := Option.some.inj hn; decide)
    · exact List.forall_mem_singleton.mpr ⟨by decide, by decide⟩
    · exact List.forall_mem_singleton.mpr (by decide)
    · exact List.forall_mem_singleton.mpr (by decide)
    · exact List.pairwise_singleton _ _
  exact (@plugins_mountable_iff toml (pluginProject [authGate]) _ _ rfl rfl (by decide)).mpr
    hplugins

/-- A plugin with the name of the configuration's volume is accepted and cannot be mounted. -/
theorem plugins_not_mountable :
    ¬ ∀ toml app, (∃ ns, app.ns = some ns) → (∃ uid, app.uid = some uid) →
      pluginErrors app.spec = [] → PluginsMountable toml app := by
  intro h
  let config : PluginSpec :=
    { name := "config", wasmDir := "/var/lib/dentdelion/config", pluginType := .httpMiddleware }
  have htext : "[".toList.head? = some '[' := rfl
  let toml := TomlCodec.ofInjective (Toml.codeWith (.table []) "[") (Toml.codeWith_injective htext)
  obtain ⟨-, volumes, mounts, -, hbuilt, hnames, -⟩ :=
    h toml (pluginProject [config]) ⟨_, rfl⟩ ⟨_, rfl⟩ (by decide)
  have hvolumes : buildPluginVolumes (pluginProject [config]) = .ok
      ([⟨"dentdelion-config", .configMap "demo-dentdelion-plugins"⟩,
          ⟨"dentdelion-config", .emptyDir⟩],
        [⟨"dentdelion-config", "/etc/dentdelion", some true⟩,
          ⟨"dentdelion-config", "/var/lib/dentdelion/config", none⟩]) := by decide
  rw [hvolumes] at hbuilt
  cases hbuilt
  exact absurd hnames.distinct (by decide)

end ReinhardtCloud.Operator

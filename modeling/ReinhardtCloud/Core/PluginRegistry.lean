import Mathlib.Data.List.Induction
import Mathlib.Data.List.Nodup
import Mathlib.Logic.Function.Basic

/-!
# The plugin registry

Library `Core`. The registry of plugins by name, its lists of names by hook
(`crates/reinhardt-cloud-core/src/plugin/registry.rs:31–108`), and when the lists say of a history
of registrations what is registered.
-/

namespace ReinhardtCloud.Core

/-- `PluginHookType`, `crates/reinhardt-cloud-core/src/plugin/traits.rs:11–20`. -/
inductive PluginHookType where
  | preBuild
  | postBuild
  | preDeploy
  | postDeploy
  deriving DecidableEq

/-- `ConditionSeverity`. -/
inductive ConditionSeverity where
  | info
  | warning
  | error
  deriving DecidableEq

/-- `PluginCondition`. -/
structure PluginCondition where
  conditionType : String
  message : String
  severity : ConditionSeverity
  deriving DecidableEq

/-- `PluginResult`. -/
structure PluginResult where
  success : Bool
  output : List UInt8
  conditions : List PluginCondition
  deriving DecidableEq

/-- `ApiError`, `crates/reinhardt-cloud-core/src/error.rs:11–28`. -/
inductive ApiError where
  | unauthorized (message : String)
  | forbidden (message : String)
  | notFound (message : String)
  | badRequest (message : String)
  | internal (message : String)
  deriving DecidableEq

/-- What the registry reads of a `PluginService`. -/
class PluginService (P : Type) where
  name : P → String
  hookTypes : P → List PluginHookType

variable {P : Type} [PluginService P]

open PluginService

/-- `PluginRegistry`. -/
structure PluginRegistry (P : Type) where
  plugins : String → Option P
  hooks : PluginHookType → Option (List String)

namespace PluginRegistry

/-- `PluginRegistry::new`. -/
def new : PluginRegistry P := ⟨fun _ ↦ none, fun _ ↦ none⟩

/-- `self.hooks.entry(hook_type).or_default().push(name)`. -/
def pushHook (name : String) (hooks : PluginHookType → Option (List String))
    (hookType : PluginHookType) : PluginHookType → Option (List String) :=
  Function.update hooks hookType (some ((hooks hookType).getD [] ++ [name]))

/-- `register`. -/
def register (r : PluginRegistry P) (plugin : P) : PluginRegistry P where
  hooks := (hookTypes plugin).foldl (pushHook (name plugin)) r.hooks
  plugins := Function.update r.plugins (name plugin) (some plugin)

/-- `plugins_for_hook`. -/
def pluginsForHook (r : PluginRegistry P) (hookType : PluginHookType) : List P :=
  ((r.hooks hookType).map fun names ↦ names.filterMap r.plugins).getD []

/-- The loop of `execute_hook`: its result and the plugins it has run. The outcomes are those of
the calls in their order. -/
def runPlugins (outcome : Nat → P → Except ApiError PluginResult) (n : Nat)
    (results : List PluginResult) : List P → Except ApiError (List PluginResult) × List P
  | [] => (.ok results, [])
  | plugin :: rest =>
    match outcome n plugin with
    | .error error => (.error error, [plugin])
    | .ok result =>
      if result.conditions.any (·.severity = .error) then
        (.error (.internal ("Plugin " ++ name plugin ++ " returned fatal error")), [plugin])
      else
        let (ended, ran) := runPlugins outcome (n + 1) (results ++ [result]) rest
        (ended, plugin :: ran)

/-- `execute_hook`. -/
def executeHook (r : PluginRegistry P) (outcome : Nat → P → Except ApiError PluginResult)
    (hookType : PluginHookType) : Except ApiError (List PluginResult) × List P :=
  runPlugins outcome 0 [] (r.pluginsForHook hookType)

/-- The registry after a history of registrations. -/
def after (history : List P) : PluginRegistry P := history.foldl register new

end PluginRegistry

/-! ## What is registered -/

/-- The plugins that no later one of their name has replaced, in the order of registration. -/
def registered : List P → List P
  | [] => []
  | plugin :: later =>
    if later.any fun other ↦ name other = name plugin then registered later
    else plugin :: registered later

/-- The names under a hook after a history: one for each time a plugin lists the hook. -/
def hookNames (hookType : PluginHookType) (history : List P) : List String :=
  history.flatMap fun plugin ↦ List.replicate ((hookTypes plugin).count hookType) (name plugin)

theorem foldl_pushHook (pluginName : String) (types : List PluginHookType)
    (hooks : PluginHookType → Option (List String)) (hookType : PluginHookType) :
    (types.foldl (PluginRegistry.pushHook pluginName) hooks hookType).getD [] =
      (hooks hookType).getD [] ++ List.replicate (types.count hookType) pluginName := by
  induction types generalizing hooks with
  | nil => exact (List.append_nil _).symm
  | cons listed rest ih =>
    rw [List.foldl_cons, ih, PluginRegistry.pushHook]
    by_cases h : listed = hookType
    · rw [h, Function.update_self, Option.getD_some, List.count_cons_self, List.replicate_succ,
        List.append_assoc, List.singleton_append]
    · rw [Function.update_of_ne (Ne.symm h), List.count_cons_of_ne h]

/-- What the maps hold after a history. -/
theorem after_eq (history : List P) :
    (∀ hookType, ((PluginRegistry.after history).hooks hookType).getD [] =
        hookNames hookType history) ∧
      ∀ pluginName, (PluginRegistry.after history).plugins pluginName =
        history.reverse.find? fun plugin ↦ name plugin = pluginName := by
  rw [PluginRegistry.after]
  induction history using List.reverseRecOn with
  | nil => exact ⟨fun _ ↦ rfl, fun _ ↦ rfl⟩
  | append_singleton history plugin ih =>
    obtain ⟨hhooks, hplugins⟩ := ih
    rw [List.foldl_append, List.foldl_cons, List.foldl_nil]
    constructor
    · intro hookType
      rw [PluginRegistry.register]
      dsimp only
      rw [foldl_pushHook, hhooks, hookNames, hookNames, List.flatMap_append, List.flatMap_singleton]
    · intro pluginName
      rw [PluginRegistry.register, List.reverse_append, List.reverse_singleton,
        List.singleton_append]
      dsimp only
      by_cases h : name plugin = pluginName
      · rw [List.find?_cons_of_pos (by simpa using h), h, Function.update_self]
      · rw [List.find?_cons_of_neg (by simpa using h), Function.update_of_ne (Ne.symm h), hplugins]

/-! ## The registered plugins -/

theorem mem_registered {history : List P} {plugin : P} (h : plugin ∈ registered history) :
    plugin ∈ history := by
  induction history with
  | nil => exact h
  | cons first later ih =>
    rw [registered] at h
    split at h
    · exact List.mem_cons_of_mem _ (ih h)
    · rcases List.mem_cons.mp h with rfl | h
      · exact List.mem_cons_self
      · exact List.mem_cons_of_mem _ (ih h)

/-- The registered plugins have different names. -/
theorem nodup_registered (history : List P) : ((registered history).map name).Nodup := by
  induction history with
  | nil => exact .nil
  | cons first later ih =>
    rw [registered]
    split
    · exact ih
    · next hany =>
      rw [List.map_cons, List.nodup_cons]
      refine ⟨?_, ih⟩
      intro hmem
      obtain ⟨other, hother, hname⟩ := List.mem_map.mp hmem
      apply hany
      rw [List.any_eq_true]
      exact ⟨other, mem_registered hother, decide_eq_true hname⟩

/-- The registered plugins are those the map holds under their names. -/
theorem mem_registered_iff {history : List P} {plugin : P} :
    plugin ∈ registered history ↔
      (PluginRegistry.after history).plugins (name plugin) = some plugin := by
  rw [(after_eq history).2]
  induction history with
  | nil => exact iff_of_false List.not_mem_nil fun h ↦ by cases h
  | cons first later ih =>
    rw [registered, List.reverse_cons, List.find?_append]
    cases hlater : later.reverse.find? fun other ↦ name other = name plugin with
    | some found =>
      -- A later plugin of that name is the one the map holds.
      rw [hlater] at ih
      rw [Option.some_or]
      split
      · exact ih
      · next hany =>
        rw [List.mem_cons, ← ih]
        refine ⟨fun h ↦ h.resolve_left ?_, .inr⟩
        rintro rfl
        apply hany
        rw [List.any_eq_true]
        have hname := List.find?_some hlater
        exact ⟨found, List.mem_reverse.mp (List.mem_of_find?_eq_some hlater), hname⟩
    | none =>
      have hnone := List.find?_eq_none.mp hlater
      have hnot : plugin ∉ registered later := by
        intro h
        exact absurd (decide_eq_true rfl) (hnone plugin (List.mem_reverse.mpr (mem_registered h)))
      rw [Option.none_or, List.find?_singleton]
      split
      · next hany =>
        rw [List.any_eq_true] at hany
        obtain ⟨other, hother, hname⟩ := hany
        have hne : name first ≠ name plugin := by
          intro h
          rw [h] at hname
          exact absurd hname (hnone other (List.mem_reverse.mpr hother))
        rw [if_neg (by simpa using hne)]
        exact iff_of_false hnot fun h ↦ by cases h
      · rw [List.mem_cons, or_iff_left hnot]
        by_cases hname : name first = name plugin
        · rw [if_pos (by simpa using hname), Option.some.injEq]
          exact eq_comm
        · rw [if_neg (by simpa using hname)]
          refine iff_of_false ?_ fun h ↦ by cases h
          rintro rfl
          exact hname rfl

theorem pluginsForHook_eq (history : List P) (hookType : PluginHookType) :
    (PluginRegistry.after history).pluginsForHook hookType =
      (hookNames hookType history).filterMap (PluginRegistry.after history).plugins := by
  rw [PluginRegistry.pluginsForHook, ← (after_eq history).1 hookType]
  cases (PluginRegistry.after history).hooks hookType with
  | none => rfl
  | some names => rfl

/-- The names under a hook are the names of what is run there. -/
theorem map_pluginsForHook (history : List P) (hookType : PluginHookType) :
    ((PluginRegistry.after history).pluginsForHook hookType).map name =
      hookNames hookType history := by
  have hname : ∀ pluginName ∈ hookNames hookType history,
      ((PluginRegistry.after history).plugins pluginName).map name = some pluginName := by
    intro pluginName hmem
    obtain ⟨plugin, hplugin, hreplicate⟩ := List.mem_flatMap.mp hmem
    obtain ⟨-, rfl⟩ := List.mem_replicate.mp hreplicate
    rw [(after_eq history).2]
    cases hfound : history.reverse.find? fun other ↦ name other = name plugin with
    | none =>
      exact absurd (decide_eq_true rfl)
        (List.find?_eq_none.mp hfound plugin (List.mem_reverse.mpr hplugin))
    | some found =>
      have hfoundName := List.find?_some hfound
      exact congrArg some (of_decide_eq_true hfoundName)
  rw [pluginsForHook_eq, List.map_filterMap, List.filterMap_congr hname, List.filterMap_some]

/-- What is run under a hook is told by the names. -/
theorem pluginsForHook_eq_iff (history : List P) (hookType : PluginHookType) :
    (PluginRegistry.after history).pluginsForHook hookType =
        (registered history).filter (fun plugin ↦ hookType ∈ hookTypes plugin) ↔
      hookNames hookType history =
        ((registered history).filter fun plugin ↦ hookType ∈ hookTypes plugin).map name := by
  constructor
  · intro h
    rw [← map_pluginsForHook, h]
  · intro h
    rw [pluginsForHook_eq, h, List.filterMap_map]
    have hsome : ∀ plugin ∈ (registered history).filter (fun plugin ↦ hookType ∈ hookTypes plugin),
        ((PluginRegistry.after history).plugins ∘ name) plugin = some plugin := by
      intro plugin hplugin
      exact mem_registered_iff.mp (List.mem_of_mem_filter hplugin)
    rw [List.filterMap_congr hsome, List.filterMap_some]

/-! ## When the hooks mirror the plugins -/

/-- For each hook the registered plugins that list it, in their order, and none is run twice. -/
structure Mirrors (history : List P) : Prop where
  forHook : ∀ hookType, (PluginRegistry.after history).pluginsForHook hookType =
    (registered history).filter fun plugin ↦ hookType ∈ hookTypes plugin
  atMostOnce : ∀ outcome hookType,
    ((PluginRegistry.after history).executeHook outcome hookType).2.Nodup

/-- No plugin lists a hook twice, and one that is replaced later lists none. -/
structure HooksListedOnce (history : List P) : Prop where
  nodup : ∀ plugin ∈ history, (hookTypes plugin).Nodup
  replaced : history.Pairwise fun plugin later ↦
    name later = name plugin → hookTypes plugin = []

/-- The names that should be under a hook. -/
def listedNames (hookType : PluginHookType) (history : List P) : List String :=
  ((registered history).filter fun plugin ↦ hookType ∈ hookTypes plugin).map name

/-- How often a plugin should be under a hook. -/
def listedTimes (hookType : PluginHookType) (plugin : P) (later : List P) : Nat :=
  if later.any fun other ↦ name other = name plugin then 0
  else if hookType ∈ hookTypes plugin then 1 else 0

theorem hookNames_cons (hookType : PluginHookType) (plugin : P) (later : List P) :
    hookNames hookType (plugin :: later) =
      List.replicate ((hookTypes plugin).count hookType) (name plugin) ++
        hookNames hookType later := List.flatMap_cons

theorem listedNames_cons (hookType : PluginHookType) (plugin : P) (later : List P) :
    listedNames hookType (plugin :: later) =
      List.replicate (listedTimes hookType plugin later) (name plugin) ++
        listedNames hookType later := by
  rw [listedNames, registered, listedTimes]
  split
  · rfl
  · by_cases h : hookType ∈ hookTypes plugin
    · rw [List.filter_cons_of_pos (by simpa using h), if_pos h]
      rfl
    · rw [List.filter_cons_of_neg (by simpa using h), if_neg h]
      rfl

theorem listedTimes_le (hookType : PluginHookType) (plugin : P) (later : List P) :
    listedTimes hookType plugin later ≤ (hookTypes plugin).count hookType := by
  rw [listedTimes]
  split
  · exact Nat.zero_le _
  · split
    · next h => exact List.count_pos_iff.mpr h
    · exact Nat.zero_le _

/-- What should be under a hook is there, and possibly more. -/
theorem length_listedNames_le (hookType : PluginHookType) (history : List P) :
    (listedNames hookType history).length ≤ (hookNames hookType history).length := by
  induction history with
  | nil => exact Nat.le_refl _
  | cons plugin later ih =>
    have hle := listedTimes_le hookType plugin later
    rw [listedNames_cons, hookNames_cons, List.length_append, List.length_append,
      List.length_replicate, List.length_replicate]
    omega

theorem hookNames_cons_eq_iff (hookType : PluginHookType) (plugin : P) (later : List P) :
    hookNames hookType (plugin :: later) = listedNames hookType (plugin :: later) ↔
      (hookTypes plugin).count hookType = listedTimes hookType plugin later ∧
        hookNames hookType later = listedNames hookType later := by
  rw [hookNames_cons, listedNames_cons]
  constructor
  · intro h
    have hlength := congrArg List.length h
    have hle := listedTimes_le hookType plugin later
    have hrest := length_listedNames_le hookType later
    rw [List.length_append, List.length_append, List.length_replicate, List.length_replicate]
      at hlength
    have hcount : (hookTypes plugin).count hookType = listedTimes hookType plugin later := by omega
    rw [hcount] at h
    exact ⟨hcount, List.append_cancel_left h⟩
  · rintro ⟨hcount, hrest⟩
    rw [hcount, hrest]

theorem count_eq_listedTimes_iff (plugin : P) (later : List P) :
    (∀ hookType, (hookTypes plugin).count hookType = listedTimes hookType plugin later) ↔
      (hookTypes plugin).Nodup ∧
        ∀ other ∈ later, name other = name plugin → hookTypes plugin = [] := by
  by_cases hany : later.any (fun other ↦ name other = name plugin) = true
  · have htimes : ∀ hookType, listedTimes hookType plugin later = 0 := by
      intro hookType
      rw [listedTimes, if_pos hany]
    obtain ⟨other, hother, hname⟩ := List.any_eq_true.mp hany
    constructor
    · intro h
      have hnil : hookTypes plugin = [] := by
        rw [List.eq_nil_iff_forall_not_mem]
        intro hookType hmem
        have hzero := (h hookType).trans (htimes hookType)
        exact absurd (List.count_pos_iff.mpr hmem) (by omega)
      rw [hnil]
      exact ⟨.nil, fun _ _ _ ↦ rfl⟩
    · rintro ⟨-, hreplaced⟩ hookType
      rw [htimes, hreplaced other hother (of_decide_eq_true hname)]
      rfl
  · have htimes : ∀ hookType, listedTimes hookType plugin later =
        if hookType ∈ hookTypes plugin then 1 else 0 := by
      intro hookType
      rw [listedTimes, if_neg hany]
    have hnone : ∀ other ∈ later, name other = name plugin → hookTypes plugin = [] := by
      intro other hother hname
      exact absurd (List.any_eq_true.mpr ⟨other, hother, decide_eq_true hname⟩) hany
    constructor
    · intro h
      refine ⟨List.nodup_iff_count_le_one.mpr fun hookType ↦ ?_, hnone⟩
      rw [h, htimes]
      split <;> omega
    · rintro ⟨hnodup, -⟩ hookType
      rw [htimes, hnodup.count]

theorem hooksListedOnce_cons_iff (plugin : P) (later : List P) :
    HooksListedOnce (plugin :: later) ↔
      ((hookTypes plugin).Nodup ∧
        ∀ other ∈ later, name other = name plugin → hookTypes plugin = []) ∧
        HooksListedOnce later := by
  constructor
  · rintro ⟨hnodup, hreplaced⟩
    rw [List.forall_mem_cons] at hnodup
    rw [List.pairwise_cons] at hreplaced
    exact ⟨⟨hnodup.1, hreplaced.1⟩, hnodup.2, hreplaced.2⟩
  · rintro ⟨⟨hfirst, hlater⟩, hnodup, hreplaced⟩
    exact ⟨List.forall_mem_cons.mpr ⟨hfirst, hnodup⟩, List.pairwise_cons.mpr ⟨hlater, hreplaced⟩⟩

theorem hookNames_eq_iff (history : List P) :
    (∀ hookType, hookNames hookType history = listedNames hookType history) ↔
      HooksListedOnce history := by
  induction history with
  | nil => exact iff_of_true (fun _ ↦ rfl) ⟨fun _ h ↦ absurd h List.not_mem_nil, .nil⟩
  | cons plugin later ih =>
    rw [hooksListedOnce_cons_iff, ← count_eq_listedTimes_iff, ← ih, ← forall_and]
    exact forall_congr' fun hookType ↦ hookNames_cons_eq_iff hookType plugin later

/-- What is run is the beginning of the plugins of the hook. -/
theorem runPlugins_prefix (outcome : Nat → P → Except ApiError PluginResult) (n : Nat)
    (results : List PluginResult) (plugins : List P) :
    (PluginRegistry.runPlugins outcome n results plugins).2 <+: plugins := by
  induction plugins generalizing n results with
  | nil => exact List.prefix_rfl
  | cons plugin rest ih =>
    rw [PluginRegistry.runPlugins]
    split
    · exact List.cons_prefix_cons.mpr ⟨rfl, List.nil_prefix⟩
    · split
      · exact List.cons_prefix_cons.mpr ⟨rfl, List.nil_prefix⟩
      · exact List.cons_prefix_cons.mpr ⟨rfl, ih _ _⟩

/-- The hook tables mirror the registered plugins exactly when no plugin lists a hook twice and
none that lists hooks is replaced. -/
theorem mirrors_iff (history : List P) : Mirrors history ↔ HooksListedOnce history := by
  rw [← hookNames_eq_iff]
  constructor
  · intro h hookType
    exact (pluginsForHook_eq_iff history hookType).mp (h.forHook hookType)
  · intro h
    have hforHook : ∀ hookType, (PluginRegistry.after history).pluginsForHook hookType =
        (registered history).filter fun plugin ↦ hookType ∈ hookTypes plugin :=
      fun hookType ↦ (pluginsForHook_eq_iff history hookType).mpr (h hookType)
    refine ⟨hforHook, fun outcome hookType ↦ ?_⟩
    have hran := runPlugins_prefix outcome 0 []
      ((PluginRegistry.after history).pluginsForHook hookType)
    apply hran.sublist.nodup
    rw [hforHook]
    exact (nodup_registered history).of_map.sublist List.filter_sublist

/-- A plugin that is a name and its hooks. -/
instance : PluginService (String × List PluginHookType) where
  name := Prod.fst
  hookTypes := Prod.snd

/-- A plugin that is registered again runs twice. -/
theorem not_mirrors_replaced :
    ¬ ∀ history : List (String × List PluginHookType), Mirrors history := by
  intro h
  have hforHook := (h [("scanner", [.preBuild]), ("scanner", [.preBuild])]).forHook .preBuild
  exact absurd hforHook (by decide)

end ReinhardtCloud.Core

import ReinhardtCloud.Base.TomlValues

/-!
# Feature detection

Library `Cli`. What `init` and `sync` read of the manifests of a project
(`crates/reinhardt-cloud-cli/src/feature_detector.rs:5–300`), and which features Cargo enables
there. A manifest is its parsed `Cargo.toml`; those of the directories above are listed nearest
first, absent where there is none that can be parsed.
-/

namespace ReinhardtCloud.Cli

open ReinhardtCloud.Base

/-! ## Signals -/

/-- `InfraSignals`, `feature_detector.rs:5–29`. -/
structure InfraSignals where
  database : Option String
  jwt : Bool
  websocket : Bool
  backgroundWorker : Bool
  cache : Option String
  grpc : Bool
  objectStorage : Bool
  sessions : Bool
  pages : Bool
  graphql : Bool
  tracing : Bool
  protocNeeded : Bool
  deriving DecidableEq

/-- `InfraSignals::from_features`, `feature_detector.rs:31–68`. -/
def InfraSignals.fromFeatures (features : List String) : InfraSignals :=
  let has (f : String) : Bool := features.contains f
  { database :=
      if has "db-postgres" then some "postgresql"
      else if has "db-mysql" then some "mysql"
      else if has "db-sqlite" then some "sqlite"
      else if has "database" then some "postgresql"
      else none
    jwt := has "auth-jwt"
    websocket := has "websockets"
    backgroundWorker := has "tasks"
    cache := if has "redis-backend" then some "redis" else none
    grpc := has "grpc"
    objectStorage := has "storage" || has "static-files"
    sessions := has "sessions"
    pages := has "pages"
    graphql := has "graphql"
    tracing := has "telemetry-tracing"
    protocNeeded := false }

/-- Each field that is set is set in the other signals too. -/
structure InfraSignals.Covered (s t : InfraSignals) : Prop where
  database : s.database.isSome → t.database.isSome
  jwt : s.jwt → t.jwt
  websocket : s.websocket → t.websocket
  backgroundWorker : s.backgroundWorker → t.backgroundWorker
  cache : s.cache.isSome → t.cache.isSome
  grpc : s.grpc → t.grpc
  objectStorage : s.objectStorage → t.objectStorage
  sessions : s.sessions → t.sessions
  pages : s.pages → t.pages
  graphql : s.graphql → t.graphql
  tracing : s.tracing → t.tracing
  protocNeeded : s.protocNeeded → t.protocNeeded

/-! ## Dependencies -/

/-- `dep.get("package") == Some("reinhardt-web")`. -/
def isRenamed (dep : Toml) : Bool := (dep.get? "package").bind Toml.asStr? = some "reinhardt-web"

/-- `dep.get("workspace") == Some(true)`. -/
def isInherited (dep : Toml) : Bool := (dep.get? "workspace").bind Toml.asBool? = some true

/-- `extract_features_from_dep`, `feature_detector.rs:284–300`. -/
def extractFeaturesFromDep (dep : Toml) : Option (List String) :=
  match dep with
  | .table _ =>
    some (((dep.get? "features").bind Toml.asArray?).elim [] fun items ↦
      items.filterMap Toml.asStr?)
  | _ => none

/-- `find_reinhardt_dep_in_table`, `feature_detector.rs:262–279`. -/
def findReinhardtDepInTable (deps : Toml) : Option (String × Toml) :=
  match deps.get? "reinhardt-web" with
  | some dep => some ("reinhardt-web", dep)
  | none => deps.asTable?.bind fun entries ↦ entries.find? fun entry ↦ isRenamed entry.2

/-- `find_workspace_root`, `feature_detector.rs:242–258`. -/
def findWorkspaceRoot (above : List (Option Toml)) : Option Toml :=
  above.findSome? fun manifest ↦ manifest.filter fun m ↦ (m.get? "workspace").isSome

/-- `[workspace.dependencies]` of a manifest. -/
def workspaceDependencies (manifest : Toml) : Option Toml :=
  (manifest.get? "workspace").bind (·.get? "dependencies")

/-- `resolve_workspace_features_for_key`, `feature_detector.rs:219–240`. -/
def resolveWorkspaceFeaturesForKey (above : List (Option Toml)) (key : String) :
    Option (List String) :=
  ((findWorkspaceRoot above).bind workspaceDependencies).bind fun deps ↦
    (deps.get? key).bind fun dep ↦
      if key = "reinhardt-web" || isRenamed dep then extractFeaturesFromDep dep else none

/-- `resolve_reinhardt_in_table`, `feature_detector.rs:191–217`. -/
def resolveReinhardtInTable (above : List (Option Toml)) (deps : Toml) : Option (List String) :=
  match findReinhardtDepInTable deps with
  | some (key, dep) =>
    if isInherited dep then resolveWorkspaceFeaturesForKey above key
    else extractFeaturesFromDep dep
  | none =>
    deps.asTable?.bind fun entries ↦ entries.findSome? fun entry ↦
      if isInherited entry.2 then resolveWorkspaceFeaturesForKey above entry.1 else none

/-- The `[target.'<cfg>'.dependencies]` tables. -/
def targetDependencies (manifest : Toml) : List Toml :=
  (((manifest.get? "target").bind Toml.asTable?).getD []).filterMap fun entry ↦
    entry.2.get? "dependencies"

/-- `find_reinhardt_features`, `feature_detector.rs:158–189`. -/
def findReinhardtFeatures (above : List (Option Toml)) (manifest : Toml) : Option (List String) :=
  match (manifest.get? "dependencies").bind (resolveReinhardtInTable above) with
  | some features => some features
  | none =>
    match (targetDependencies manifest).findSome? (resolveReinhardtInTable above) with
    | some features => some features
    | none => (workspaceDependencies manifest).bind (resolveReinhardtInTable above)

/-! ## Projects -/

/-- `ProjectMetadata`. -/
structure ProjectMetadata where
  name : String
  version : String
  features : List String
  signals : InfraSignals
  deriving DecidableEq

/-- `validate_package_name`, `feature_detector.rs:143–156`. -/
def validatePackageName (name : String) : Except String Unit :=
  if name.isEmpty || !name.toList.all fun c ↦ c.isAlphanum || c = '-' || c = '_' then
    .error ("Invalid [package].name `" ++ name ++ "` in Cargo.toml: package names may only " ++
      "contain ASCII letters, digits, hyphens, and underscores")
  else .ok ()

/-- The name of the package. -/
def packageName (manifest : Toml) : Except String String :=
  match ((manifest.get? "package").bind (·.get? "name")).bind Toml.asStr? with
  | none => .error "Missing [package].name in Cargo.toml"
  | some name => (validatePackageName name).map fun _ ↦ name

/-- The version of the package, its own or the workspace's, `feature_detector.rs:98–126`. -/
def packageVersion (above : List (Option Toml)) (manifest : Toml) : Except String String :=
  let declared := (manifest.get? "package").bind (·.get? "version")
  if declared.any isInherited then
    match if (manifest.get? "workspace").isSome then some manifest else findWorkspaceRoot above with
    | none => .error "inherited package version requires a workspace root"
    | some workspace =>
      match (((workspace.get? "workspace").bind (·.get? "package")).bind
          (·.get? "version")).bind Toml.asStr? with
      | none => .error "inherited package version requires workspace.package.version"
      | some version => .ok version
  else .ok ((declared.bind Toml.asStr?).getD "0.0.0")

/-- `detect_project` of a parsed manifest, `feature_detector.rs:80–141`. -/
def detectProject (above : List (Option Toml)) (manifest : Toml) :
    Except String ProjectMetadata := do
  let name ← packageName manifest
  let version ← packageVersion above manifest
  match findReinhardtFeatures above manifest with
  | none => throw "Not a reinhardt-web project: no reinhardt-web dependency found"
  | some features => pure ⟨name, version, features, InfraSignals.fromFeatures features⟩

/-! ## What Cargo enables -/

/-- The manifest whose `[workspace]` the package inherits from: the nearest, its own included. -/
def cargoWorkspace (above : List (Option Toml)) (manifest : Toml) : Option Toml :=
  (some manifest :: above).findSome? fun candidate ↦
    candidate.filter fun m ↦ (m.get? "workspace").isSome

/-- The entry of the workspace that an inherited dependency stands for. -/
def workspaceEntry (above : List (Option Toml)) (manifest : Toml) (key : String) : Option Toml :=
  ((cargoWorkspace above manifest).bind workspaceDependencies).bind (·.get? key)

/-- The dependency tables of the package, in their order. -/
def dependencyTables (manifest : Toml) : List Toml :=
  (manifest.get? "dependencies").toList ++ targetDependencies manifest

/-- The entries of the dependency tables of the package. -/
def dependencyEntries (manifest : Toml) : List (String × Toml) :=
  (dependencyTables manifest).flatMap fun deps ↦ deps.asTable?.getD []

/-- The features that an entry lists. -/
def ownFeatures (dep : Toml) : List String :=
  ((dep.get? "features").bind Toml.asArray?).elim [] fun items ↦ items.filterMap Toml.asStr?

/-- The features that an entry of the package enables of `reinhardt-web`, if it is a table that
stands for it: its own, and the workspace's when it is inherited. -/
def enabledByEntry (above : List (Option Toml)) (manifest : Toml) (entry : String × Toml) :
    Option (List String) :=
  if isInherited entry.2 then
    (workspaceEntry above manifest entry.1).bind fun shared ↦
      if entry.1 = "reinhardt-web" || isRenamed shared then
        some (ownFeatures entry.2 ++ ownFeatures shared)
      else none
  else if (entry.1 = "reinhardt-web" || isRenamed entry.2) && entry.2.asTable?.isSome then
    some (ownFeatures entry.2)
  else none

/-- What each occurrence of `reinhardt-web` enables. -/
def occurrences (above : List (Option Toml)) (manifest : Toml) : List (List String) :=
  (dependencyEntries manifest).filterMap (enabledByEntry above manifest)

/-! ## Which entry comes first -/

/-- The nearest manifest above with a `[workspace]`. -/
def NearestWorkspace (above : List (Option Toml)) (root : Toml) : Prop :=
  ∃ before after, above = before ++ some root :: after ∧ (root.get? "workspace").isSome ∧
    ∀ manifest, some manifest ∈ before → manifest.get? "workspace" = none

/-- The nearest workspace above shares the key as `reinhardt-web`, by that table. -/
def SharedAs (above : List (Option Toml)) (key : String) (dep : Toml) : Prop :=
  ∃ root deps, NearestWorkspace above root ∧ workspaceDependencies root = some deps ∧
    deps.get? key = some dep ∧ (key = "reinhardt-web" ∨ isRenamed dep = true) ∧
    dep.asTable?.isSome

/-- The first entry of a table that may stand for `reinhardt-web`: the one under that key, else the
first renamed one, else the first inherited one that the workspace above shares so. -/
inductive FirstIn (above : List (Option Toml)) : List (String × Toml) → String × Toml → Prop
  | key (before after : List (String × Toml)) (dep : Toml)
      (hbefore : ∀ e ∈ before, e.1 ≠ "reinhardt-web") :
      FirstIn above (before ++ ("reinhardt-web", dep) :: after) ("reinhardt-web", dep)
  | renamed (before after : List (String × Toml)) (entry : String × Toml)
      (hkey : ∀ e ∈ before ++ entry :: after, e.1 ≠ "reinhardt-web")
      (hbefore : ∀ e ∈ before, isRenamed e.2 = false) (hrenamed : isRenamed entry.2 = true) :
      FirstIn above (before ++ entry :: after) entry
  | inherited (before after : List (String × Toml)) (entry : String × Toml)
      (hkey : ∀ e ∈ before ++ entry :: after, e.1 ≠ "reinhardt-web" ∧ isRenamed e.2 = false)
      (hbefore : ∀ e ∈ before, isInherited e.2 = true → ∀ dep, ¬ SharedAs above e.1 dep)
      (hinherited : isInherited entry.2 = true) (hshared : ∃ dep, SharedAs above entry.1 dep) :
      FirstIn above (before ++ entry :: after) entry

/-- The table that an entry stands for: the shared one if it is inherited, else its own. -/
def StandsFor (above : List (Option Toml)) (entry : String × Toml) (dep : Toml) : Prop :=
  if isInherited entry.2 then SharedAs above entry.1 dep else dep = entry.2 ∧ dep.asTable?.isSome

/-- The table of `reinhardt-web` in a table of dependencies. -/
def ListedIn (above : List (Option Toml)) (deps dep : Toml) : Prop :=
  ∃ entries entry, deps = .table entries ∧ FirstIn above entries entry ∧ StandsFor above entry dep

/-- The first table of `reinhardt-web`: of `[dependencies]`, then of the target tables, then of
`[workspace.dependencies]`. -/
def ListedFirst (above : List (Option Toml)) (manifest dep : Toml) : Prop :=
  ∃ before deps after,
    dependencyTables manifest ++ (workspaceDependencies manifest).toList =
      before ++ deps :: after ∧
    ListedIn above deps dep ∧ ∀ earlier ∈ before, ∀ other, ¬ ListedIn above earlier other

/-! ## Which entry the search finds -/

/-- The entry of the workspace above that an inherited key is resolved to. -/
def sharedEntry (above : List (Option Toml)) (key : String) : Option Toml :=
  (((findWorkspaceRoot above).bind workspaceDependencies).bind (·.get? key)).filter fun dep ↦
    (key = "reinhardt-web" || isRenamed dep) && dep.asTable?.isSome

/-- The table that a found entry is resolved to. -/
def directEntry (above : List (Option Toml)) (entry : String × Toml) : Option Toml :=
  if isInherited entry.2 then sharedEntry above entry.1
  else (some entry.2).filter fun dep ↦ dep.asTable?.isSome

/-- The entry that `resolve_reinhardt_in_table` takes the features of. -/
def decidingEntry (above : List (Option Toml)) (deps : Toml) : Option Toml :=
  match findReinhardtDepInTable deps with
  | some entry => directEntry above entry
  | none =>
    deps.asTable?.bind fun entries ↦ entries.findSome? fun entry ↦
      if isInherited entry.2 then sharedEntry above entry.1 else none

theorem extractFeaturesFromDep_eq (dep : Toml) : extractFeaturesFromDep dep =
    ((some dep).filter fun dep ↦ dep.asTable?.isSome).map ownFeatures := by
  cases dep <;> rfl

theorem resolveWorkspaceFeaturesForKey_eq (above : List (Option Toml)) (key : String) :
    resolveWorkspaceFeaturesForKey above key = (sharedEntry above key).map ownFeatures := by
  unfold resolveWorkspaceFeaturesForKey sharedEntry
  rw [← Option.bind_assoc]
  cases ((findWorkspaceRoot above).bind workspaceDependencies).bind (·.get? key) with
  | none => rfl
  | some dep =>
    rw [Option.bind_some, extractFeaturesFromDep_eq]
    by_cases hkey : (key = "reinhardt-web" || isRenamed dep) = true
    · simp only [hkey, if_true, Option.filter_some, Bool.true_and]
    · simp only [hkey, Bool.false_eq_true, if_false, Option.filter_some, Bool.false_and,
        Option.map_none]

theorem resolveReinhardtInTable_eq (above : List (Option Toml)) (deps : Toml) :
    resolveReinhardtInTable above deps = (decidingEntry above deps).map ownFeatures := by
  unfold resolveReinhardtInTable decidingEntry
  rcases findReinhardtDepInTable deps with _ | ⟨key, dep⟩
  · show (deps.asTable?.bind _) = Option.map ownFeatures (deps.asTable?.bind _)
    rcases deps.asTable? with _ | entries
    · rfl
    rw [Option.bind_some, Option.bind_some, List.map_findSome?]
    congr 1
    funext entry
    rw [Function.comp_apply]
    by_cases hinherited : isInherited entry.2
    · rw [if_pos hinherited, if_pos hinherited]
      exact resolveWorkspaceFeaturesForKey_eq above entry.1
    · rw [if_neg hinherited, if_neg hinherited, Option.map_none]
  · show (if isInherited dep then _ else _) = Option.map ownFeatures (directEntry above (key, dep))
    unfold directEntry
    by_cases hinherited : isInherited dep
    · rw [if_pos hinherited, if_pos hinherited]
      exact resolveWorkspaceFeaturesForKey_eq above key
    · rw [if_neg hinherited, if_neg hinherited]
      exact extractFeaturesFromDep_eq dep

theorem findReinhardtFeatures_eq (above : List (Option Toml)) (manifest : Toml) :
    findReinhardtFeatures above manifest =
      ((dependencyTables manifest ++ (workspaceDependencies manifest).toList).findSome?
        (decidingEntry above)).map ownFeatures := by
  have hresolve : resolveReinhardtInTable above = Option.map ownFeatures ∘ decidingEntry above :=
    funext (resolveReinhardtInTable_eq above)
  have hone : ∀ table : Option Toml, table.bind (resolveReinhardtInTable above) =
      table.toList.findSome? (resolveReinhardtInTable above) := by
    intro table
    cases table <;> simp
  rw [List.map_findSome?, ← hresolve, dependencyTables, List.findSome?_append,
    List.findSome?_append, ← hone, ← hone, findReinhardtFeatures]
  rcases (manifest.get? "dependencies").bind (resolveReinhardtInTable above) with _ | features
  · rcases (targetDependencies manifest).findSome? (resolveReinhardtInTable above) with
      _ | features <;> rfl
  · rfl

/-! ## The search finds the first entry -/

theorem findWorkspaceRoot_eq_some_iff {above : List (Option Toml)} {root : Toml} :
    findWorkspaceRoot above = some root ↔ NearestWorkspace above root := by
  rw [findWorkspaceRoot, List.findSome?_eq_some_iff]
  constructor
  · rintro ⟨before, candidate, after, rfl, hfound, hbefore⟩
    obtain ⟨rfl, hworkspace⟩ := Option.filter_eq_some_iff.mp hfound
    refine ⟨before, after, rfl, hworkspace, fun manifest hmem ↦ ?_⟩
    simpa using hbefore _ hmem
  · rintro ⟨before, after, rfl, hworkspace, hbefore⟩
    refine ⟨before, some root, after, rfl, Option.filter_eq_some_iff.mpr ⟨rfl, hworkspace⟩, ?_⟩
    rintro (_ | manifest) hmem
    · rfl
    · simpa using hbefore manifest hmem

theorem sharedEntry_eq_some_iff {above : List (Option Toml)} {key : String} {dep : Toml} :
    sharedEntry above key = some dep ↔ SharedAs above key dep := by
  rw [sharedEntry, Option.filter_eq_some_iff, Option.bind_eq_some_iff, Bool.and_eq_true,
    Bool.or_eq_true, decide_eq_true_eq]
  simp only [Option.bind_eq_some_iff, findWorkspaceRoot_eq_some_iff]
  constructor
  · rintro ⟨⟨deps, ⟨root, hroot, hdeps⟩, hget⟩, hstands, htable⟩
    exact ⟨root, deps, hroot, hdeps, hget, hstands, htable⟩
  · rintro ⟨root, deps, hroot, hdeps, hget, hstands, htable⟩
    exact ⟨⟨deps, ⟨root, hroot, hdeps⟩, hget⟩, hstands, htable⟩

theorem directEntry_eq_some_iff {above : List (Option Toml)} {entry : String × Toml} {dep : Toml} :
    directEntry above entry = some dep ↔ StandsFor above entry dep := by
  rw [directEntry, StandsFor]
  split
  · exact sharedEntry_eq_some_iff
  · rw [Option.filter_eq_some_iff, Option.some.injEq, eq_comm]

theorem inherited_eq_some_iff {above : List (Option Toml)} {entry : String × Toml} {dep : Toml} :
    (if isInherited entry.2 then sharedEntry above entry.1 else none) = some dep ↔
      isInherited entry.2 = true ∧ SharedAs above entry.1 dep := by
  rw [Option.ite_none_right_eq_some, sharedEntry_eq_some_iff]

theorem findReinhardtDepInTable_table (entries : List (String × Toml)) :
    findReinhardtDepInTable (.table entries) =
      match entries.lookup "reinhardt-web" with
      | some dep => some ("reinhardt-web", dep)
      | none => entries.find? fun entry ↦ isRenamed entry.2 := rfl

theorem lookup_eq_none_of_ne {entries : List (String × Toml)}
    (h : ∀ e ∈ entries, e.1 ≠ "reinhardt-web") : entries.lookup "reinhardt-web" = none :=
  List.lookup_eq_none_iff.mpr fun e he ↦ bne_iff_ne.mpr (Ne.symm (h e he))

theorem ne_of_lookup_eq_none {entries : List (String × Toml)}
    (h : entries.lookup "reinhardt-web" = none) : ∀ e ∈ entries, e.1 ≠ "reinhardt-web" :=
  fun e he ↦ Ne.symm (bne_iff_ne.mp (List.lookup_eq_none_iff.mp h e he))

/-- Of a table the search takes the first entry that may stand for `reinhardt-web`. -/
theorem decidingEntry_eq_some_iff {above : List (Option Toml)} {deps dep : Toml} :
    decidingEntry above deps = some dep ↔ ListedIn above deps dep := by
  constructor
  · intro h
    cases deps with
    | table entries =>
      rw [decidingEntry, findReinhardtDepInTable_table] at h
      cases hlookup : entries.lookup "reinhardt-web" with
      | some found =>
        rw [hlookup] at h
        obtain ⟨before, after, rfl, hbefore⟩ := List.lookup_eq_some_iff.mp hlookup
        exact ⟨_, _, rfl, .key before after found fun e he ↦ Ne.symm (bne_iff_ne.mp (hbefore e he)),
          directEntry_eq_some_iff.mp h⟩
      | none =>
        have hkey := ne_of_lookup_eq_none hlookup
        rw [hlookup] at h
        dsimp only at h
        cases hrenamed : entries.find? fun entry ↦ isRenamed entry.2 with
        | some entry =>
          rw [hrenamed] at h
          obtain ⟨hentry, before, after, rfl, hbefore⟩ := List.find?_eq_some_iff_append.mp hrenamed
          exact ⟨_, entry, rfl, .renamed before after entry hkey
            (fun e he ↦ by simpa using hbefore e he) hentry, directEntry_eq_some_iff.mp h⟩
        | none =>
          have hnone := List.find?_eq_none.mp hrenamed
          rw [hrenamed] at h
          obtain ⟨before, entry, after, rfl, hfound, hbefore⟩ := List.findSome?_eq_some_iff.mp h
          obtain ⟨hinherited, hshared⟩ := inherited_eq_some_iff.mp hfound
          refine ⟨_, entry, rfl, .inherited before after entry
            (fun e he ↦ ⟨hkey e he, by simpa using hnone e he⟩) ?_ hinherited ⟨dep, hshared⟩, ?_⟩
          · intro e he hin other hother
            have hnot := hbefore e he
            rw [inherited_eq_some_iff.mpr ⟨hin, hother⟩] at hnot
            cases hnot
          · rw [StandsFor, if_pos hinherited]
            exact hshared
    | _ => cases h
  · rintro ⟨entries, entry, rfl, hfirst, hstands⟩
    rw [decidingEntry, findReinhardtDepInTable_table]
    cases hfirst with
    | key before after found hbefore =>
      have hlookup : (before ++ ("reinhardt-web", found) :: after).lookup "reinhardt-web" =
          some found :=
        List.lookup_eq_some_iff.mpr ⟨before, after, rfl, fun e he ↦
          bne_iff_ne.mpr (Ne.symm (hbefore e he))⟩
      rw [hlookup]
      exact directEntry_eq_some_iff.mpr hstands
    | renamed before after entry hkey hbefore hrenamed =>
      have hfind : ((before ++ entry :: after).find? fun entry ↦ isRenamed entry.2) = some entry :=
        List.find?_eq_some_iff_append.mpr
          ⟨hrenamed, before, after, rfl, fun e he ↦ by simpa using hbefore e he⟩
      rw [lookup_eq_none_of_ne hkey]
      dsimp only
      rw [hfind]
      exact directEntry_eq_some_iff.mpr hstands
    | inherited before after entry hkey hbefore hinherited hshared =>
      have hfind : ((before ++ entry :: after).find? fun entry ↦ isRenamed entry.2) = none :=
        List.find?_eq_none.mpr fun e he ↦ by simpa using (hkey e he).2
      rw [lookup_eq_none_of_ne fun e he ↦ (hkey e he).1]
      dsimp only
      rw [hfind]
      rw [StandsFor, if_pos hinherited] at hstands
      refine List.findSome?_eq_some_iff.mpr ⟨before, entry, after, rfl,
        inherited_eq_some_iff.mpr ⟨hinherited, hstands⟩, fun e he ↦ ?_⟩
      cases hfound : if isInherited e.2 then sharedEntry above e.1 else none with
      | none => rfl
      | some other =>
        obtain ⟨hin, hother⟩ := inherited_eq_some_iff.mp hfound
        exact absurd hother (hbefore e he hin other)

/-- The search returns the features of the first table of `reinhardt-web`. -/
theorem findReinhardtFeatures_eq_some_iff {above : List (Option Toml)} {manifest : Toml}
    {features : List String} :
    findReinhardtFeatures above manifest = some features ↔
      ∃ dep, ListedFirst above manifest dep ∧ features = ownFeatures dep := by
  rw [findReinhardtFeatures_eq, Option.map_eq_some_iff]
  refine exists_congr fun dep ↦ and_congr ?_ eq_comm
  rw [List.findSome?_eq_some_iff, ListedFirst]
  simp only [decidingEntry_eq_some_iff, Option.eq_none_iff_forall_ne_some, ne_eq]

/-! ## What detection misses -/

theorem fromFeatures_covered {fs gs : List String} (h : fs ⊆ gs) :
    (InfraSignals.fromFeatures fs).Covered (InfraSignals.fromFeatures gs) := by
  have hhas : ∀ f, fs.contains f = true → gs.contains f = true := by
    intro f hf
    rw [List.contains_iff_mem] at hf ⊢
    exact h hf
  have hdatabase : ∀ hs : List String, (InfraSignals.fromFeatures hs).database.isSome = true ↔
      hs.contains "db-postgres" = true ∨ hs.contains "db-mysql" = true ∨
        hs.contains "db-sqlite" = true ∨ hs.contains "database" = true := by
    intro hs
    simp only [InfraSignals.fromFeatures]
    repeat' split
    all_goals simp_all
  have hcache : ∀ hs : List String, (InfraSignals.fromFeatures hs).cache.isSome = true ↔
      hs.contains "redis-backend" = true := by
    intro hs
    simp only [InfraSignals.fromFeatures]
    split <;> simp_all
  constructor
  case database =>
    rw [hdatabase, hdatabase]
    exact Or.imp (hhas _) (Or.imp (hhas _) (Or.imp (hhas _) (hhas _)))
  case cache =>
    rw [hcache, hcache]
    exact hhas _
  case objectStorage =>
    simp only [InfraSignals.fromFeatures, Bool.or_eq_true]
    exact Or.imp (hhas _) (hhas _)
  case protocNeeded => exact id
  all_goals exact hhas _

/-- Detection returns the features that each occurrence of `reinhardt-web` enables, and misses no
signal of one. -/
def SeesEveryFeature (above : List (Option Toml)) (manifest : Toml) : Prop :=
  ∀ features ∈ occurrences above manifest, ∃ metadata,
    detectProject above manifest = .ok metadata ∧ features ⊆ metadata.features ∧
      (InfraSignals.fromFeatures features).Covered metadata.signals

theorem detectProject_ok {above : List (Option Toml)} {manifest : Toml} {name version : String}
    (hname : packageName manifest = .ok name)
    (hversion : packageVersion above manifest = .ok version) (metadata : ProjectMetadata) :
    detectProject above manifest = .ok metadata ↔
      ∃ features, findReinhardtFeatures above manifest = some features ∧
        metadata = ⟨name, version, features, InfraSignals.fromFeatures features⟩ := by
  unfold detectProject
  rw [hname, hversion]
  cases findReinhardtFeatures above manifest with
  | none =>
    constructor
    · intro h
      cases h
    · rintro ⟨features, h, -⟩
      cases h
  | some features =>
    constructor
    · intro h
      exact ⟨features, rfl, (Except.ok.inj h).symm⟩
    · rintro ⟨_, h, rfl⟩
      cases h
      rfl

/-- The first table of `reinhardt-web` has to list what every occurrence enables. -/
theorem seesEveryFeature_iff (above : List (Option Toml)) (manifest : Toml) {name version : String}
    (hname : packageName manifest = .ok name)
    (hversion : packageVersion above manifest = .ok version) :
    SeesEveryFeature above manifest ↔ ∀ features ∈ occurrences above manifest,
      ∃ dep, ListedFirst above manifest dep ∧ features ⊆ ownFeatures dep := by
  unfold SeesEveryFeature
  simp only [detectProject_ok hname hversion, findReinhardtFeatures_eq_some_iff]
  apply forall₂_congr
  intro features _
  constructor
  · rintro ⟨metadata, ⟨_, ⟨dep, hdep, rfl⟩, rfl⟩, hsees, -⟩
    exact ⟨dep, hdep, hsees⟩
  · rintro ⟨dep, hdep, hsees⟩
    exact ⟨_, ⟨ownFeatures dep, ⟨dep, hdep, rfl⟩, rfl⟩, hsees, fromFeatures_covered hsees⟩

/-! ## Three manifests -/

/-- The features of an entry as a manifest lists them. -/
def featureArray (features : List String) : Toml := .array (features.map .string)

/-- The `[package]` of a member. -/
def memberPackage : Toml := .table [("name", .string "ws-member"), ("version", .string "0.5.0")]

/-- A manifest with `reinhardt-web` itself, and under another name for one target. -/
def directManifest : Toml :=
  .table [("package", memberPackage),
    ("dependencies", .table [("serde", .string "1"), ("reinhardt-web", .table
      [("version", .string "0.1"), ("features", featureArray ["db-postgres", "websockets"])])]),
    ("target", .table [("cfg(unix)", .table [("dependencies", .table [("web", .table
      [("package", .string "reinhardt-web"), ("features", featureArray ["websockets"])])])])])]

/-- A root manifest that shares `reinhardt-web` under another name. -/
def rootManifest (features : List String) : Toml :=
  .table [("workspace", .table [("members", .array [.string "app"]),
    ("dependencies", .table [("reinhardt", .table [("package", .string "reinhardt-web"),
      ("version", .string "0.1"), ("features", featureArray features)])])])]

/-- A member that inherits it and adds features of its own. -/
def memberManifest (features : List String) : Toml :=
  .table [("package", memberPackage), ("dependencies", .table [("reinhardt", .table
    [("workspace", .boolean true), ("features", featureArray features)])])]

/-- The entry under the key lists what the renamed one lists, too. -/
theorem seesEveryFeature_direct : SeesEveryFeature [] directManifest := by
  have hname : packageName directManifest = .ok "ws-member" := by decide +kernel
  have hversion : packageVersion [] directManifest = .ok "0.5.0" := by decide +kernel
  refine (seesEveryFeature_iff [] directManifest hname hversion).mpr ?_
  have hoccurs : occurrences [] directManifest =
      [["db-postgres", "websockets"], ["websockets"]] := by decide +kernel
  rw [hoccurs]
  intro features hfeatures
  -- The first table has the key.
  refine ⟨_, ⟨[], _, _, rfl, ⟨_, _, rfl, .key [("serde", .string "1")] [] _ ?_, rfl, rfl⟩, ?_⟩, ?_⟩
  · simp
  · exact fun earlier hearlier ↦ absurd hearlier List.not_mem_nil
  · have hall : ∀ features ∈ [["db-postgres", "websockets"], ["websockets"]],
        features ⊆ ["db-postgres", "websockets"] := by decide
    exact hall features hfeatures

/-- The database that a member adds is not seen. -/
theorem not_seesEveryFeature :
    ¬ SeesEveryFeature [some (rootManifest ["websockets"])] (memberManifest ["db-postgres"]) := by
  intro h
  have hoccurs : ["db-postgres", "websockets"] ∈
      occurrences [some (rootManifest ["websockets"])] (memberManifest ["db-postgres"]) := by
    decide +kernel
  obtain ⟨metadata, hok, hfeatures, -⟩ := h _ hoccurs
  have hdetected : detectProject [some (rootManifest ["websockets"])]
      (memberManifest ["db-postgres"]) = .ok ⟨"ws-member", "0.5.0", ["websockets"],
        InfraSignals.fromFeatures ["websockets"]⟩ := by
    decide +kernel
  rw [hdetected] at hok
  cases hok
  exact absurd (hfeatures List.mem_cons_self) (by decide)

end ReinhardtCloud.Cli

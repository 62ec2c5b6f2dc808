import Mathlib.Data.Fintype.Basic
import Mathlib.Data.List.DropRight
import Mathlib.Data.List.FinRange
import Mathlib.Order.Defs.LinearOrder
import ReinhardtCloud.Base.Characters
import ReinhardtCloud.Base.Search
import ReinhardtCloud.Base.TomlValues

/-!
# Lock files

Library `Cli`. The gate on `buildstatic`
(`crates/reinhardt-cloud-cli/src/dockerfile_generator/cargo_lock_reader.rs:90–178`): a search of
the package graph of a lock file from the selected application. Semantic versions are of an
ordered type and read by a function that are both given.
-/

namespace ReinhardtCloud.Cli

open ReinhardtCloud.Base

/-! ## Packages -/

/-- A field of a package that is text. -/
def textField (key : String) (package : Toml) : Option String :=
  (package.get? key).bind Toml.asStr?

/-- What is filtered for the roots: a local package of the name and version. -/
def isApplication (projectName projectVersion : String) (package : Toml) : Bool :=
  textField "name" package = some projectName &&
    textField "version" package = some projectVersion && (package.get? "source").isNone

/-- A package of the framework that has `buildstatic`. -/
def isCommands (package : Toml) : Bool := textField "name" package = some "reinhardt-commands"

/-- The dependencies of a package; where they are no list there are none. -/
def dependencies (package : Toml) : List Toml :=
  ((package.get? "dependencies").bind Toml.asArray?).getD []

/-- `str::split_whitespace`. -/
def splitWhitespace (text : String) : List (List Char) :=
  (text.toList.splitOnP isWhiteSpace).filter (· ≠ [])

/-- What a dependency says of a package. -/
structure Reference where
  name : String
  version : Option String
  source : Option String

/-- The fields of a dependency, `cargo_lock_reader.rs:147–154`. -/
def parseReference (dependency : String) : Except String Reference :=
  let fields := splitWhitespace dependency
  let parenthesised (field : List Char) : Bool := field.head? = some '('
  match fields.head? with
  | none => .error "empty Cargo.lock dependency"
  | some name => .ok
    { name := String.ofList name
      version := (fields[1]?.filter fun field ↦ !parenthesised field).map String.ofList
      source := (fields.find? parenthesised).map fun field ↦
        String.ofList ((field.dropWhile (· = '(')).rdropWhile (· = ')')) }

/-- The candidates of a reference. -/
def Reference.selects (reference : Reference) (candidate : Toml) : Bool :=
  textField "name" candidate = some reference.name &&
    reference.version.all (fun version ↦ textField "version" candidate = some version) &&
    reference.source.all fun source ↦ textField "source" candidate = some source

/-- The indices of the packages with a property. -/
def indicesOf (packages : List Toml) (p : Toml → Bool) : List (Fin packages.length) :=
  (List.finRange packages.length).filter fun i ↦ p packages[i]

/-- The package a dependency stands for, `cargo_lock_reader.rs:146–177`. -/
def resolve (packages : List Toml) (dependency : Toml) :
    Except String (List (Fin packages.length)) :=
  match dependency.asStr? with
  | none => .error "invalid Cargo.lock dependency"
  | some text =>
    match parseReference text with
    | .error e => .error e
    | .ok reference =>
      let found := indicesOf packages reference.selects
      if found.length ≠ 1 then
        .error ("Cargo.lock dependency " ++ text ++
          " is missing or ambiguous; regenerate the application's lockfile")
      else .ok found

/-! ## The gate -/

section Gate

variable {Version : Type} [LinearOrder Version] (parse : String → Option Version)

/-- `reinhardt-commands` is too old, or its version cannot be read. -/
def isOutdated (minimum : Version) (package : Toml) : Bool :=
  isCommands package &&
    ((textField "version" package).bind parse).all fun version ↦ version < minimum

/-- The error of an outdated framework. -/
def outdatedFramework : String :=
  "the selected application requires reinhardt-commands >=0.4.0-alpha.20 for buildstatic; " ++
    "update and lock its framework, or provide a custom Dockerfile"

/-- The error of a framework that is not there. -/
def missingFramework : String :=
  "the selected application's Cargo.lock dependency graph has no reinhardt-commands for " ++
    "buildstatic; update and lock its framework, or provide a custom Dockerfile"

/-- One turn of the loop for a package that is new, `cargo_lock_reader.rs:129–180`. -/
def visitPackage (minimum : Version) (packages : List Toml) (commandsFound : Bool)
    (index : Fin packages.length) : Except String (Bool × List (Fin packages.length)) := do
  let package := packages[index]
  if isOutdated parse minimum package then throw outdatedFramework
  let next ← (dependencies package).mapM (resolve packages)
  return (commandsFound || isCommands package, next.flatten)

/-- The packages of a lock file. -/
def packagesOf (lock : Toml) : Option (List Toml) := (lock.get? "package").bind Toml.asArray?

/-- `require_buildstatic` of the lock file, absent, malformed or parsed; the panic of the minimum
is an error. -/
def requireBuildstatic (content : Option (Except String Toml))
    (projectName projectVersion : String) : Except String Unit :=
  match content with
  | none => .error ("Pages Dockerfile generation requires Cargo.lock with " ++
      "reinhardt-commands >=0.4.0-alpha.20")
  | some (.error error) => .error ("failed to parse Cargo.lock: " ++ error)
  | some (.ok parsed) =>
    match packagesOf parsed with
    | none => .error "Cargo.lock has no package graph"
    | some packages =>
      let roots := indicesOf packages (isApplication projectName projectVersion)
      if roots.length ≠ 1 then
        .error ("Cargo.lock must identify the local application " ++ projectName ++ "@" ++
          projectVersion ++ "; regenerate its lockfile")
      else
        match parse "0.4.0-alpha.20" with
        | none => .error "valid minimum framework version"
        | some minimum =>
          match search (visitPackage parse minimum packages) false ∅ roots with
          | .error error => .error error
          | .ok commandsFound => if commandsFound then .ok () else .error missingFramework

end Gate

/-! ## Reachability -/

/-- A dependency that a package answers to. -/
def refersTo (dependency package : Toml) : Bool :=
  match dependency.asStr?.map parseReference with
  | some (.ok reference) => reference.selects package
  | _ => false

/-- A package of the lock file that another depends on. -/
def DependsOn (packages : List Toml) (p q : Toml) : Prop :=
  q ∈ packages ∧ ∃ dependency ∈ dependencies p, refersTo dependency q

/-- A package that another depends on, directly or not. -/
abbrev Reachable (packages : List Toml) : Toml → Toml → Prop :=
  Relation.ReflTransGen (DependsOn packages)

/-- Every dependency that is reachable resolves to exactly one package. -/
def Resolved (packages : List Toml) (app : Toml) : Prop :=
  ∀ p, Reachable packages app p → ∀ dependency ∈ dependencies p,
    ∃ q, packages.filter (refersTo dependency) = [q]

/-! ## Indices -/

theorem map_indicesOf (packages : List Toml) (p : Toml → Bool) :
    (indicesOf packages p).map (fun i ↦ packages[i]) = packages.filter p := by
  have hall : (List.finRange packages.length).map (fun i ↦ packages[i]) = packages := by
    apply List.ext_getElem
    · simp
    · intro i hi hj
      simp
  conv_rhs => rw [← hall]
  rw [List.filter_map]
  rfl

theorem mem_indicesOf {packages : List Toml} {p : Toml → Bool} {i : Fin packages.length} :
    i ∈ indicesOf packages p ↔ p packages[i] = true := by
  rw [indicesOf, List.mem_filter]
  exact and_iff_right (List.mem_finRange i)

theorem length_indicesOf (packages : List Toml) (p : Toml → Bool) :
    (indicesOf packages p).length = (packages.filter p).length := by
  rw [← map_indicesOf, List.length_map]

/-- What a dependency resolves to answers to it. -/
theorem mem_resolve {packages : List Toml} {dependency : Toml} {next : List (Fin packages.length)}
    (h : resolve packages dependency = .ok next) (i : Fin packages.length) :
    i ∈ next ↔ refersTo dependency packages[i] = true := by
  unfold resolve at h
  unfold refersTo
  cases htext : dependency.asStr? with
  | none =>
    rw [htext] at h
    cases h
  | some text =>
    rw [htext] at h
    cases hreference : parseReference text with
    | error e =>
      simp only [hreference] at h
      cases h
    | ok reference =>
      simp only [hreference] at h
      by_cases hlength : (indicesOf packages reference.selects).length ≠ 1
      · rw [if_pos hlength] at h
        cases h
      · rw [if_neg hlength] at h
        cases h
        simp only [Option.map_some, hreference]
        exact mem_indicesOf

theorem resolve_single {packages : List Toml} {dependency q : Toml}
    (h : packages.filter (refersTo dependency) = [q]) :
    ∃ next, resolve packages dependency = .ok next := by
  have hq : refersTo dependency q = true := by
    have hmem : q ∈ packages.filter (refersTo dependency) := by
      rw [h]
      exact List.mem_cons_self
    exact (List.mem_filter.mp hmem).2
  unfold resolve
  cases htext : dependency.asStr? with
  | none =>
    simp only [refersTo, htext, Option.map_none] at hq
    cases hq
  | some text =>
    cases hreference : parseReference text with
    | error e =>
      simp only [refersTo, htext, Option.map_some, hreference] at hq
      cases hq
    | ok reference =>
      have hselects : refersTo dependency = reference.selects := by
        funext package
        simp only [refersTo, htext, Option.map_some, hreference]
      rw [hselects] at h
      have hone : ¬ (indicesOf packages reference.selects).length ≠ 1 := by
        rw [length_indicesOf, h, List.length_singleton]
        exact not_not_intro rfl
      refine ⟨indicesOf packages reference.selects, ?_⟩
      simp only [hreference, if_neg hone]

/-! ## The search -/

section Search

variable {Version : Type} [LinearOrder Version] {parse : String → Option Version}
  {minimum : Version} {packages : List Toml}

/-- The packages that a visit leads to. -/
def nextPackages (parse : String → Option Version) (minimum : Version) (packages : List Toml)
    (index : Fin packages.length) : Except String (List (Fin packages.length)) := do
  if isOutdated parse minimum packages[index] then throw outdatedFramework
  let next ← (dependencies packages[index]).mapM (resolve packages)
  return next.flatten

theorem visitPackage_eq (found : Bool) (i : Fin packages.length) :
    visitPackage parse minimum packages found i =
      (nextPackages parse minimum packages i).map
        fun next ↦ (found || isCommands packages[i], next) := by
  unfold visitPackage nextPackages
  by_cases hold : isOutdated parse minimum packages[i] = true
  · simp only [hold, if_true]
    rfl
  · simp only [hold, Bool.false_eq_true, if_false]
    cases (dependencies packages[i]).mapM (resolve packages) <;> rfl

theorem mem_nextPackages {i : Fin packages.length} {next : List (Fin packages.length)}
    (h : nextPackages parse minimum packages i = .ok next) (j : Fin packages.length) :
    j ∈ next ↔ ∃ dependency ∈ dependencies packages[i],
      refersTo dependency packages[j] = true := by
  unfold nextPackages at h
  by_cases hold : isOutdated parse minimum packages[i] = true
  · simp only [hold, if_true] at h
    cases h
  · simp only [hold, Bool.false_eq_true, if_false] at h
    cases hmap : (dependencies packages[i]).mapM (resolve packages) with
    | error e =>
      rw [hmap] at h
      cases h
    | ok results =>
      rw [hmap] at h
      cases h
      rw [mem_flatten_of_mapM_ok hmap]
      constructor
      · rintro ⟨dependency, hdependency, found, hfound, hj⟩
        exact ⟨dependency, hdependency, (mem_resolve hfound j).mp hj⟩
      · rintro ⟨dependency, hdependency, hrefers⟩
        obtain ⟨found, hfound⟩ := ok_of_mapM_ok hmap dependency hdependency
        exact ⟨dependency, hdependency, found, hfound, (mem_resolve hfound j).mpr hrefers⟩

theorem nextPackages_ok {i : Fin packages.length}
    (hnew : isOutdated parse minimum packages[i] = false)
    (hresolves : ∀ dependency ∈ dependencies packages[i],
      ∃ q, packages.filter (refersTo dependency) = [q]) :
    ∃ next, nextPackages parse minimum packages i = .ok next := by
  have hall : ∀ dependency ∈ dependencies packages[i],
      ∃ found, resolve packages dependency = .ok found := by
    intro dependency hdependency
    obtain ⟨q, hq⟩ := hresolves dependency hdependency
    exact resolve_single hq
  obtain ⟨results, hresults⟩ := mapM_ok hall
  refine ⟨results.flatten, ?_⟩
  unfold nextPackages
  simp only [hnew, Bool.false_eq_true, if_false, hresults]
  rfl

theorem nextPackages_outdated {i : Fin packages.length}
    (hold : isOutdated parse minimum packages[i] = true) :
    nextPackages parse minimum packages i = .error outdatedFramework := by
  unfold nextPackages
  simp only [hold, if_true]
  rfl

/-- The indices reached stand for reachable packages. -/
theorem reachable_of_reaches {i j : Fin packages.length}
    (h : Reaches (nextPackages parse minimum packages) i j) :
    Reachable packages packages[i] packages[j] := by
  induction h with
  | refl => exact Relation.ReflTransGen.refl
  | tail _ hlead ih =>
    obtain ⟨next, hnext, hmem⟩ := hlead
    exact ih.tail ⟨List.getElem_mem _, (mem_nextPackages hnext _).mp hmem⟩

/-- Where no visit fails the indices reached stand for all reachable packages. -/
theorem exists_reaches {i : Fin packages.length} {q : Toml}
    (hok : ∀ j, Reaches (nextPackages parse minimum packages) i j →
      ∃ next, nextPackages parse minimum packages j = .ok next)
    (h : Reachable packages packages[i] q) :
    ∃ j, Reaches (nextPackages parse minimum packages) i j ∧ packages[j] = q := by
  induction h with
  | refl => exact ⟨i, Relation.ReflTransGen.refl, rfl⟩
  | tail _ hdepends ih =>
    obtain ⟨j, hj, rfl⟩ := ih
    obtain ⟨hq, hrefers⟩ := hdepends
    obtain ⟨next, hnext⟩ := hok j hj
    obtain ⟨k, hk, rfl⟩ := List.getElem_of_mem hq
    exact ⟨⟨k, hk⟩, hj.tail ⟨next, hnext, (mem_nextPackages hnext ⟨k, hk⟩).mpr hrefers⟩, rfl⟩

/-- A search from a package whose dependencies resolve ends, and stops early only at an outdated
framework. -/
theorem search_packages (parse : String → Option Version) (minimum : Version)
    (root : Fin packages.length) (hresolved : Resolved packages packages[root]) :
    (search (visitPackage parse minimum packages) false ∅ [root] = .error outdatedFramework ∧
      ∃ q, Reachable packages packages[root] q ∧ isOutdated parse minimum q = true) ∨
    ∃ found, search (visitPackage parse minimum packages) false ∅ [root] = .ok found ∧
      (∀ q, Reachable packages packages[root] q → isOutdated parse minimum q = false) ∧
      (found = true ↔ ∃ q, Reachable packages packages[root] q ∧ isCommands q = true) := by
  -- a visit fails only at an outdated framework
  have hfail : ∀ i, Reaches (nextPackages parse minimum packages) root i →
      ∀ e, nextPackages parse minimum packages i = .error e →
        e = outdatedFramework ∧ isOutdated parse minimum packages[i] = true := by
    intro i hi e he
    cases hold : isOutdated parse minimum packages[i] with
    | true =>
      rw [nextPackages_outdated hold] at he
      cases he
      exact ⟨rfl, rfl⟩
    | false =>
      obtain ⟨next, hnext⟩ := nextPackages_ok hold (hresolved _ (reachable_of_reaches hi))
      rw [hnext] at he
      cases he
  have hvisit : ∀ (found : Bool) (i : Fin packages.length),
      visitPackage parse minimum packages found i =
        (nextPackages parse minimum packages i).map
          fun next ↦ ((fun (found : Bool) i ↦ found || isCommands packages[i]) found i, next) :=
    visitPackage_eq
  rcases search_single hvisit false root with
    ⟨order, hsearch, hvisited, hok⟩ | ⟨i, e, hi, he, hsearch⟩
  · right
    have hexists : ∀ q, Reachable packages packages[root] q → ∃ i ∈ order, packages[i] = q := by
      intro q hq
      obtain ⟨i, hi, rfl⟩ := exists_reaches (fun j hj ↦ hok j ((hvisited j).mpr hj)) hq
      exact ⟨i, (hvisited i).mpr hi, rfl⟩
    refine ⟨_, hsearch, ?_, ?_⟩
    · intro q hq
      obtain ⟨i, hi, rfl⟩ := hexists q hq
      rw [Bool.eq_false_iff]
      intro hold
      obtain ⟨next, hnext⟩ := hok i hi
      rw [nextPackages_outdated hold] at hnext
      cases hnext
    · have hfold : ∀ found : Bool,
          order.foldl (fun found i ↦ found || isCommands packages[i]) found = true ↔
            found = true ∨ ∃ i ∈ order, isCommands packages[i] = true := by
        clear hsearch hvisited hok hexists
        induction order with
        | nil => simp
        | cons i rest ih =>
          intro found
          rw [List.foldl_cons, ih, Bool.or_eq_true, List.exists_mem_cons_iff]
          exact or_assoc
      rw [hfold]
      constructor
      · intro h
        obtain ⟨i, hi, hcommands⟩ := h.resolve_left Bool.false_ne_true
        exact ⟨_, reachable_of_reaches ((hvisited i).mp hi), hcommands⟩
      · rintro ⟨q, hq, hcommands⟩
        obtain ⟨i, hi, rfl⟩ := hexists q hq
        exact Or.inr ⟨i, hi, hcommands⟩
  · left
    obtain ⟨rfl, hold⟩ := hfail i hi e he
    exact ⟨hsearch, _, reachable_of_reaches hi, hold⟩

end Search

/-! ## What the gate decides -/

section Gate

variable {Version : Type} [LinearOrder Version] {parse : String → Option Version}
  {minimum : Version} {lock : Toml} {packages : List Toml} {projectName projectVersion : String}

/-- A package of the framework with a version that is new enough. -/
def IsCapable (parse : String → Option Version) (minimum : Version) (package : Toml) : Prop :=
  ∃ version, (textField "version" package).bind parse = some version ∧ minimum ≤ version

theorem isOutdated_eq_false {q : Toml} : isOutdated parse minimum q = false ↔
    (isCommands q = true → IsCapable parse minimum q) := by
  unfold isOutdated IsCapable
  cases isCommands q with
  | false => simp
  | true =>
    cases (textField "version" q).bind parse with
    | none => simp
    | some version => simp

/-- The gate on a lock file with one application whose dependencies resolve. -/
theorem requireBuildstatic_cases (hminimum : parse "0.4.0-alpha.20" = some minimum)
    (hlock : packagesOf lock = some packages) {app : Toml}
    (happ : packages.filter (isApplication projectName projectVersion) = [app])
    (hresolved : Resolved packages app) :
    (requireBuildstatic parse (some (.ok lock)) projectName projectVersion =
        .error outdatedFramework ∧
      ∃ q, Reachable packages app q ∧ isOutdated parse minimum q = true) ∨
    ((∀ q, Reachable packages app q → isOutdated parse minimum q = false) ∧
      (requireBuildstatic parse (some (.ok lock)) projectName projectVersion = .ok () ∧
          (∃ q, Reachable packages app q ∧ isCommands q = true) ∨
        requireBuildstatic parse (some (.ok lock)) projectName projectVersion =
            .error missingFramework ∧
          ¬ ∃ q, Reachable packages app q ∧ isCommands q = true)) := by
  obtain ⟨root, hroot, rfl⟩ : ∃ root : Fin packages.length, indicesOf packages
      (isApplication projectName projectVersion) = [root] ∧ packages[root] = app := by
    rw [← map_indicesOf] at happ
    obtain ⟨root, hroot, rfl⟩ := List.map_eq_singleton_iff.mp happ
    exact ⟨root, hroot, rfl⟩
  have hgate : requireBuildstatic parse (some (.ok lock)) projectName projectVersion =
      match search (visitPackage parse minimum packages) false ∅ [root] with
      | .error error => .error error
      | .ok found => if found then .ok () else .error missingFramework := by
    unfold requireBuildstatic
    simp only [hlock, hminimum, hroot, List.length_singleton, ne_eq, not_true_eq_false, if_false]
  rw [hgate]
  rcases search_packages parse minimum root hresolved with
    ⟨hsearch, hold⟩ | ⟨found, hsearch, hnew, hfound⟩
  · left
    rw [hsearch]
    exact ⟨rfl, hold⟩
  · right
    rw [hsearch]
    refine ⟨hnew, ?_⟩
    cases found with
    | true => exact Or.inl ⟨rfl, hfound.mp rfl⟩
    | false => exact Or.inr ⟨rfl, fun h ↦ Bool.false_ne_true (hfound.mpr h)⟩

theorem requireBuildstatic_roots
    (hlock : packagesOf lock = some packages)
    (hok : requireBuildstatic parse (some (.ok lock)) projectName projectVersion = .ok ()) :
    ∃ app, packages.filter (isApplication projectName projectVersion) = [app] := by
  unfold requireBuildstatic at hok
  simp only [hlock] at hok
  by_cases hlength :
      (indicesOf packages (isApplication projectName projectVersion)).length ≠ 1
  · rw [if_pos hlength] at hok
    cases hok
  · rw [not_ne_iff, length_indicesOf] at hlength
    exact List.length_eq_one_iff.mp hlength

/-! ### Packages that are not reachable -/

/-- A list that keeps what is selected keeps it as the only one. -/
theorem filter_subperm {others : List Toml} (hsub : others.Subperm packages) {p : Toml → Bool}
    {q : Toml} (hq : packages.filter p = [q]) (hmem : q ∈ others) : others.filter p = [q] := by
  have hp : q ∈ packages.filter p := by
    rw [hq]
    exact List.mem_cons_self
  have hkept : q ∈ others.filter p := List.mem_filter.mpr ⟨hmem, (List.mem_filter.mp hp).2⟩
  have hfilter : (others.filter p).Subperm [q] := hq ▸ hsub.filter p
  have hlength : (others.filter p).length = 1 :=
    le_antisymm hfilter.length_le (List.length_pos_of_mem hkept)
  obtain ⟨r, hr⟩ := List.length_eq_one_iff.mp hlength
  rw [hr, List.mem_singleton] at hkept
  rw [hr, hkept]

theorem reachable_subperm {others : List Toml} (hsub : others.Subperm packages) {app : Toml}
    (hkeep : ∀ q, Reachable packages app q → q ∈ others) (q : Toml) :
    Reachable others app q ↔ Reachable packages app q := by
  constructor
  · have hmono : DependsOn others ≤ DependsOn packages := by
      intro p q hdepends
      exact ⟨hsub.subset hdepends.1, hdepends.2⟩
    exact Relation.ReflTransGen.mono hmono app q
  · intro h
    induction h with
    | refl => exact Relation.ReflTransGen.refl
    | tail hreach hdepends ih =>
      exact ih.tail ⟨hkeep _ (hreach.tail hdepends), hdepends.2⟩

theorem resolved_subperm {others : List Toml} (hsub : others.Subperm packages) {app : Toml}
    (hkeep : ∀ q, Reachable packages app q → q ∈ others) (hresolved : Resolved packages app) :
    Resolved others app := by
  intro p hp dependency hdependency
  rw [reachable_subperm hsub hkeep] at hp
  obtain ⟨q, hq⟩ := hresolved p hp dependency hdependency
  refine ⟨q, filter_subperm hsub hq (hkeep q ?_)⟩
  have hmem : q ∈ packages.filter (refersTo dependency) := by
    rw [hq]
    exact List.mem_cons_self
  obtain ⟨hpackages, hrefers⟩ := List.mem_filter.mp hmem
  exact hp.tail ⟨hpackages, dependency, hdependency, hrefers⟩

/-- The gate passes the one application that reaches the framework, and only in versions that are
new enough. What is not reachable may be there or not, in any order. -/
theorem requireBuildstatic_decides (hminimum : parse "0.4.0-alpha.20" = some minimum)
    (hlock : packagesOf lock = some packages)
    (hresolved : ∀ app ∈ packages, isApplication projectName projectVersion app = true →
      Resolved packages app) :
    (requireBuildstatic parse (some (.ok lock)) projectName projectVersion = .ok () ↔
      ∃ app, packages.filter (isApplication projectName projectVersion) = [app] ∧
        (∃ q, Reachable packages app q ∧ isCommands q = true) ∧
        ∀ q, Reachable packages app q → isCommands q = true → IsCapable parse minimum q) ∧
    ∀ app, packages.filter (isApplication projectName projectVersion) = [app] →
      ∀ lock' others, packagesOf lock' = some others → others.Subperm packages →
        (∀ q, Reachable packages app q → q ∈ others) →
        requireBuildstatic parse (some (.ok lock')) projectName projectVersion =
          requireBuildstatic parse (some (.ok lock)) projectName projectVersion := by
  have hselected : ∀ app, packages.filter (isApplication projectName projectVersion) = [app] →
      Resolved packages app := by
    intro app happ
    have hmem : app ∈ packages.filter (isApplication projectName projectVersion) := by
      rw [happ]
      exact List.mem_cons_self
    exact hresolved app (List.mem_filter.mp hmem).1 (List.mem_filter.mp hmem).2
  constructor
  · constructor
    · intro hok
      obtain ⟨app, happ⟩ := requireBuildstatic_roots hlock hok
      refine ⟨app, happ, ?_⟩
      rcases requireBuildstatic_cases hminimum hlock happ (hselected app happ) with
        ⟨herror, -⟩ | ⟨hnew, ⟨-, hcommands⟩ | ⟨herror, -⟩⟩
      · rw [herror] at hok
        cases hok
      · exact ⟨hcommands, fun q hq ↦ isOutdated_eq_false.mp (hnew q hq)⟩
      · rw [herror] at hok
        cases hok
    · rintro ⟨app, happ, hcommands, hcapable⟩
      rcases requireBuildstatic_cases hminimum hlock happ (hselected app happ) with
        ⟨-, q, hq, hold⟩ | ⟨-, ⟨hok, -⟩ | ⟨-, hnone⟩⟩
      · rw [isOutdated_eq_false.mpr (hcapable q hq)] at hold
        cases hold
      · exact hok
      · exact absurd hcommands hnone
  · intro app happ lock' others hlock' hsub hkeep
    have happ' := filter_subperm hsub happ (hkeep app Relation.ReflTransGen.refl)
    have hreach := reachable_subperm hsub hkeep
    have hcases := requireBuildstatic_cases hminimum hlock happ (hselected app happ)
    have hcases' := requireBuildstatic_cases hminimum hlock' happ'
      (resolved_subperm hsub hkeep (hselected app happ))
    simp only [hreach] at hcases'
    rcases hcases with ⟨h, q, hq, hold⟩ | ⟨hnew, h⟩
    · rcases hcases' with ⟨h', -⟩ | ⟨hnew, -⟩
      · rw [h, h']
      · rw [hnew q hq] at hold
        cases hold
    · rcases hcases' with ⟨-, q, hq, hold⟩ | ⟨-, h'⟩
      · rw [hnew q hq] at hold
        cases hold
      · rcases h with ⟨h, hsome⟩ | ⟨h, hnone⟩
        · rcases h' with ⟨h', -⟩ | ⟨-, hnone⟩
          · rw [h, h']
          · exact absurd hsome hnone
        · rcases h' with ⟨-, hsome⟩ | ⟨h', -⟩
          · exact absurd hsome hnone
          · rw [h, h']

/-! ### A lock file with two frameworks -/

/-- What dependencies keep holds of what is reachable. -/
theorem reachable_closed {app q : Toml} {p : Toml → Bool} (happ : app ∈ packages)
    (hp : p app = true)
    (hstep : ∀ a ∈ packages, p a = true → ∀ dependency ∈ dependencies a, ∀ b ∈ packages,
      refersTo dependency b = true → p b = true)
    (h : Reachable packages app q) : q ∈ packages ∧ p q = true := by
  induction h with
  | refl => exact ⟨happ, hp⟩
  | tail _ hdepends ih =>
    obtain ⟨hq, dependency, hdependency, hrefers⟩ := hdepends
    exact ⟨hq, hstep _ ih.1 ih.2 dependency hdependency _ hq hrefers⟩

end Gate

/-- An entry of a lock file. -/
def lockEntry (name version : String) (dependencies : List String) : Toml :=
  .table [("name", .string name), ("version", .string version),
    ("dependencies", .array (dependencies.map .string))]

/-- A selected application and another one, with a framework each. -/
def twoApplications : List Toml :=
  [lockEntry "selected-app" "0.1.0" ["framework 0.4.0-alpha.20"],
    lockEntry "framework" "0.4.0-alpha.20" ["reinhardt-commands 0.4.0-alpha.20"],
    lockEntry "unrelated-app" "0.1.0" ["reinhardt-commands 0.4.0-alpha.19"],
    lockEntry "reinhardt-commands" "0.4.0-alpha.20" ["framework"],
    lockEntry "reinhardt-commands" "0.4.0-alpha.19" []]

/-- The versions of the framework there, by their alpha releases. -/
def alphaRelease (version : String) : Option Nat :=
  if version = "0.4.0-alpha.19" then some 19
  else if version = "0.4.0-alpha.20" then some 20
  else none

/-- What belongs to the selected application. -/
def ofSelected (package : Toml) : Bool :=
  textField "name" package ≠ some "unrelated-app" &&
    textField "version" package ≠ some "0.4.0-alpha.19"

theorem requireBuildstatic_selected :
    requireBuildstatic alphaRelease (some (.ok (.table [("package", .array twoApplications)])))
      "selected-app" "0.1.0" = .ok () := by
  have happs : twoApplications.filter (isApplication "selected-app" "0.1.0") =
      [lockEntry "selected-app" "0.1.0" ["framework 0.4.0-alpha.20"]] := by rfl
  have hone : ∀ p ∈ twoApplications, ∀ dependency ∈ dependencies p,
      (twoApplications.filter (refersTo dependency)).length = 1 := by decide +kernel
  have hresolved : ∀ app ∈ twoApplications, isApplication "selected-app" "0.1.0" app = true →
      Resolved twoApplications app := by
    intro app happ _ p hp dependency hdependency
    have hmem := (@reachable_closed twoApplications app p (fun _ ↦ true) happ rfl
      (fun _ _ _ _ _ _ _ _ ↦ rfl) hp).1
    exact List.length_eq_one_iff.mp (hone p hmem dependency hdependency)
  have hminimum : alphaRelease "0.4.0-alpha.20" = some 20 := by decide
  refine (requireBuildstatic_decides hminimum rfl hresolved).1.mpr ⟨_, happs, ?_, ?_⟩
  · refine ⟨lockEntry "reinhardt-commands" "0.4.0-alpha.20" ["framework"], ?_, by decide +kernel⟩
    have hframework : DependsOn twoApplications
        (lockEntry "selected-app" "0.1.0" ["framework 0.4.0-alpha.20"])
        (lockEntry "framework" "0.4.0-alpha.20" ["reinhardt-commands 0.4.0-alpha.20"]) :=
      ⟨List.mem_cons_of_mem _ List.mem_cons_self, by decide +kernel⟩
    have hcommands : DependsOn twoApplications
        (lockEntry "framework" "0.4.0-alpha.20" ["reinhardt-commands 0.4.0-alpha.20"])
        (lockEntry "reinhardt-commands" "0.4.0-alpha.20" ["framework"]) :=
      ⟨List.mem_of_mem_drop (i := 3) List.mem_cons_self, by decide +kernel⟩
    exact (Relation.ReflTransGen.single hframework).tail hcommands
  · intro q hq hcommands
    have hmem := @reachable_closed twoApplications _ q ofSelected List.mem_cons_self
      (by decide +kernel) (by decide +kernel) hq
    have hversion : ∀ q ∈ twoApplications, ofSelected q = true → isCommands q = true →
        textField "version" q = some "0.4.0-alpha.20" := by
      decide +kernel
    refine ⟨20, ?_, le_rfl⟩
    rw [hversion q hmem.1 hmem.2 hcommands, Option.bind_some]
    exact hminimum

end ReinhardtCloud.Cli

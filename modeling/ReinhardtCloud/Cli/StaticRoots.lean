import Mathlib.Data.List.Sort
import Mathlib.Data.String.Basic
import ReinhardtCloud.Base.Affixes
import ReinhardtCloud.Base.Paths
import ReinhardtCloud.Base.SortedMap
import ReinhardtCloud.Base.TomlValues

/-!
# The static root

Library `Cli`. The directory to which a project publishes its static files, read from the settings
of its production profile
(`crates/reinhardt-cloud-cli/src/dockerfile_generator/static_root_reader.rs`). The settings files
are parsed documents, and whether a directory holds a crate is asked of the workspace.
-/

namespace ReinhardtCloud.Cli

open ReinhardtCloud.Base

/-! ## Settings -/

mutual

/-- `merge_profile`, `static_root_reader.rs:306–320`. -/
def mergeProfile (target : Toml) : Toml → Toml
  | .table overlay =>
    match target with
    | .table entries => .table (mergeEntries entries overlay)
    | _ => .table overlay
  | overlay => overlay

/-- Its loop over the entries of the overlay. -/
def mergeEntries (entries : List (String × Toml)) : List (String × Toml) → List (String × Toml)
  | [] => entries
  | (key, value) :: rest =>
    match entries.lookup key with
    | some existing => mergeEntries (SortedMap.insertEntry key (mergeProfile existing value)
        entries) rest
    | none => mergeEntries (SortedMap.insertEntry key value entries) rest

end

/-- The error of a variable that a build may not set. -/
def unsupportedVariable : String :=
  "required setting uses an unsupported build environment variable; provide a custom Dockerfile"

/-- A name in upper case. -/
def isUpperName (name : String) : Bool :=
  name.toList.all fun c ↦ c.isUpper || c.isDigit || c = '_'

/-- `insert_build_variable`, `static_root_reader.rs:367–384`. -/
def insertBuildVariable (name : String) (names : List String) : Except String (List String) :=
  if !(name.toList.head?.any fun c ↦ c.isUpper || c = '_') || !isUpperName name ||
      ["PATH", "HOME", "SHELL", "ENV", "BASH_ENV", "REINHARDT_ENV"].contains name ||
      ["LD_", "DYLD_", "CARGO_", "RUST"].any fun start ↦ startsWith name start then
    .error unsupportedVariable
  else if names.contains name then .ok names
  else .ok (names.orderedInsert (· ≤ ·) name)

/-- The expressions of the interpolations of a text, up to one that is not closed. -/
def interpolations : Option (List Char) → List Char → List String
  | none, '$' :: '\x7b' :: rest => interpolations (some []) rest
  | none, _ :: rest => interpolations none rest
  | some expression, '\x7d' :: rest => String.ofList expression :: interpolations none rest
  | some expression, c :: rest => interpolations (some (expression ++ [c])) rest
  | _, [] => []

/-- The variable that an expression requires; one with a default requires none. -/
def requiredVariable (expression : String) (names : List String) : Except String (List String) :=
  match splitOnce ':' expression with
  | none => insertBuildVariable expression names
  | some (name, modifier) =>
    if startsWith modifier "-" then .ok names
    else if startsWith modifier "?" then insertBuildVariable name names
    else .error "unsupported required setting interpolation; provide a custom Dockerfile"

mutual

/-- `collect_required_variables`, `static_root_reader.rs:324–365`. -/
def collectRequiredVariables (names : List String) : Toml → Except String (List String)
  | .string text => (interpolations none text.toList).foldlM
      (fun names expression ↦ requiredVariable expression names) names
  | .table entries =>
    match entries.lookup "env" with
    | some (.string name) =>
      (insertBuildVariable name names).bind fun names ↦ collectFromEntries names entries
    | _ => collectFromEntries names entries
  | .array items => collectFromItems names items
  | _ => .ok names

def collectFromEntries (names : List String) :
    List (String × Toml) → Except String (List String)
  | [] => .ok names
  | (key, value) :: rest =>
    if key = "env" then collectFromEntries names rest
    else (collectRequiredVariables names value).bind fun names ↦ collectFromEntries names rest

def collectFromItems (names : List String) : List Toml → Except String (List String)
  | [] => .ok names
  | value :: rest =>
    (collectRequiredVariables names value).bind fun names ↦ collectFromItems names rest

end

/-! ## Texts of the settings -/

/-- `str::split_once` of a text that is not empty. -/
def splitOnceAt (pattern : List Char) : List Char → Option (List Char × List Char)
  | [] => none
  | c :: rest =>
    match pattern.isPrefixOf? (c :: rest) with
    | some after => some ([], after)
    | none => (splitOnceAt pattern rest).map fun parts ↦ (c :: parts.1, parts.2)

/-- A text that is one interpolation: its variable and its default. -/
def interpolation (raw : String) : Option (String × Option String) :=
  ("$\x7b".toList.isPrefixOf? raw.toList).bind fun rest ↦
    (['\x7d'].isSuffixOf? rest).map fun expression ↦
      match splitOnceAt ":-".toList expression with
      | none => (String.ofList expression, none)
      | some (name, fallback) => (String.ofList name, some (String.ofList fallback))

/-- The value of a variable: the build argument, or the default. -/
def variableValue (buildArgs : List (String × String)) (name : String)
    (fallback : Option String) : Option String :=
  (buildArgs.lookup name).or fallback

/-- The first of the settings that is there. -/
def firstSetting (settings : Toml) (places : List (List String)) : Option Toml :=
  places.findSome? fun place ↦ place.foldl (fun value key ↦ value.bind (·.get? key)) (some settings)

/-- `is_ascii_alphanumeric` or one of `/`, `.`, `-` and `_`. -/
def isPathChar (c : Char) : Bool := c.isAlphanum || ['/', '.', '-', '_'].contains c

/-- `Component::Normal`. -/
def isNormal (component : List Char) : Bool :=
  component ≠ ['/'] && component ≠ ['.'] && component ≠ ['.', '.']

/-- The static URL and its variable, `static_root_reader.rs:89–118`. -/
def declaredUrl (settings : Toml) (buildArgs : List (String × String)) :
    Except String (String × Option (String × String)) :=
  match firstSetting settings [["static_files", "url"], ["static", "url"], ["static_url"]] with
  | none => .ok ("/static/", none)
  | some value =>
    match value.asStr? with
    | none => .error "static URL must be a string"
    | some url =>
      match interpolation url with
      | none => .ok (url, none)
      | some (name, fallback) =>
        (insertBuildVariable name []).bind fun _ ↦
          if !"_URL".toList.isSuffixOf name.toList then
            .error ("static URL interpolation must reference a variable ending in _URL; " ++
              "provide a custom Dockerfile for other settings")
          else
            match variableValue buildArgs name fallback with
            | none => .error ("static URL variable requires a source.build.build_args value or " ++
                "a literal default")
            | some value => .ok (value, some (name, value))

/-- The checks of the static URL, `static_root_reader.rs:119–146`. -/
def checkUrl (url : String) : Except String Unit :=
  let components := pathComponents url.toList
  if url.toList.head? ≠ some '/' || url.toList.getLast? ≠ some '/' ||
      !url.toList.all isPathChar || components.contains ['.', '.'] then
    .error ("generated Pages require a Dockerfile-safe static URL starting and ending with '/'; " ++
      "provide a custom Dockerfile for other settings")
  else if !components.any isNormal then
    .error ("generated Pages require a static URL below '/' (for example '/static/') so it " ++
      "cannot collide with application routes; provide a custom Dockerfile for other settings")
  else if ((url.toList.drop 1).dropLast.splitOn '/').any fun segment ↦
      segment.isEmpty || segment = ['.'] then
    .error ("generated Pages require a normalized static URL path such as '/assets/' without " ++
      "empty or '.' segments (a leading '//' is a protocol-relative URL to another host); " ++
      "provide a custom Dockerfile for other settings")
  else .ok ()

/-- The check of the base directory, `static_root_reader.rs:147–152`. -/
def checkBaseDir (settings : Toml) : Except String Unit :=
  match firstSetting settings [["core", "base_dir"], ["base_dir"]] with
  | none => .ok ()
  | some base =>
    if base.asStr? = some "." then .ok ()
    else .error ("Pages Dockerfile generation cannot resolve a custom base_dir; " ++
      "provide a custom Dockerfile")

/-- The static root and its variable, `static_root_reader.rs:153–184`. -/
def declaredRoot (settings : Toml) (buildArgs : List (String × String)) :
    Except String (String × Option (String × String)) :=
  match firstSetting settings [["static_files", "root"], ["static", "root"], ["static_root"]] with
  | none => .error ("Pages Dockerfile generation requires an explicit static root in " ++
      "settings/base.toml or settings/production.toml; " ++
      "use a custom Dockerfile for dynamic settings")
  | some value =>
    match value.asStr? with
    | none => .error "static root must be a string"
    | some raw =>
      match interpolation raw with
      | none => .ok (raw, none)
      | some (name, fallback) =>
        if !"_ROOT".toList.isSuffixOf name.toList || !isUpperName name then
          .error ("static root interpolation must reference a path variable ending in _ROOT; " ++
            "otherwise provide a custom Dockerfile")
        else
          match variableValue buildArgs name fallback with
          | none => .error ("static root variable requires a source.build.build_args value or " ++
              "a literal default")
          | some value => .ok (value, some (name, value))

/-! ## The static root -/

/-- A path of a project below its workspace: the components are those of a real directory. -/
structure MemberPath where
  text : List Char
  normal : ∀ part ∈ text.splitOn '/', part ≠ [] ∧ part ≠ ['.'] ∧ part ≠ ['.', '.']

/-- What a project's directory and its workspace have. The texts of errors are whole. -/
structure ProjectTree where
  profile : String → Option (Except String Toml)
  member : Option MemberPath
  containsCrateManifest : List Char → Except String Bool

/-- `StaticRoot`. -/
structure StaticRoot where
  path : String
  url : String
  urlEnvBinding : Option (String × String)
  envBinding : Option (String × String)
  buildEnv : List String
  buildArgs : List String
  deriving DecidableEq

/-- A path is below `/app/`. -/
def isAbsoluteRoot (path : String) : Bool := startsWith path "/app/"

/-- `path.strip_prefix("/app/").unwrap_or(&path)`. -/
def relativeRoot (path : String) : List Char :=
  ("/app/".toList.isPrefixOf? path.toList).getD path.toList

/-- The text of the path of a project below its workspace, empty for the workspace itself. -/
def memberText (member : Option MemberPath) : List Char := member.elim [] MemberPath.text

/-- The directories that are not for publications. -/
def reservedDirectories : List (List Char) :=
  ["settings", "src", "target", "migrations", ".git", ".agents", ".codex"].map String.toList

/-- The components below the project, `static_root_reader.rs:201–209`. -/
def publicationComponents (member : Option MemberPath) (path : String) : List (List Char) :=
  let relative := pathComponents (relativeRoot path)
  if isAbsoluteRoot path then
    match member with
    | some member => ((pathComponents member.text).isPrefixOf? relative).getD relative
    | none => relative
  else relative

/-- The path below the workspace, `static_root_reader.rs:229–233`. -/
def buildRelative (member : Option MemberPath) (path : String) : List Char :=
  if isAbsoluteRoot path then relativeRoot path
  else match member with
    | some member => member.text ++ '/' :: relativeRoot path
    | none => relativeRoot path

/-- The checks of the static root, `static_root_reader.rs:185–241`. -/
def checkRoot (tree : ProjectTree) (path : String) : Except String Unit :=
  let components := pathComponents (relativeRoot path)
  let publication := publicationComponents tree.member path
  let build := buildRelative tree.member path
  if path.toList.head? = some '/' && !isAbsoluteRoot path then
    .error ("generated Pages images require an absolute static root under /app; " ++
      "provide a custom Dockerfile for other locations")
  else if components.isEmpty || !components.all isNormal ||
      !(relativeRoot path).all isPathChar then
    .error ("static root must be a nonempty Dockerfile-safe directory without traversal or " ++
      "interpolation")
  else if publication.isEmpty || publication.head?.any reservedDirectories.contains then
    .error ("static root overlaps application sources, settings, or build metadata; " ++
      "use a dedicated publication directory")
  else
    let overlaps : Except String Unit :=
      .error ("static root contains a workspace member or crate sources; " ++
        "use a dedicated publication directory")
    if pathStartsWith (memberText tree.member) build then overlaps
    else (tree.containsCrateManifest build).bind fun holds ↦ if holds then overlaps else .ok ()

/-- The settings of the production profile, `static_root_reader.rs:58–72`. -/
def readSettings (tree : ProjectTree) : Except String Toml :=
  ["base", "production"].foldlM (fun settings profile ↦
    match tree.profile profile with
    | none => .ok settings
    | some overlay => overlay.map (mergeProfile settings)) (.table [])

/-- `read_static_root`, `static_root_reader.rs:54–267`. -/
def readStaticRoot (tree : ProjectTree) (buildArgs : List (String × String)) :
    Except String StaticRoot := do
  let settings ← readSettings tree
  let required ← collectRequiredVariables [] settings
  let (url, urlEnvBinding) ← declaredUrl settings buildArgs
  checkUrl url
  checkBaseDir settings
  let (path, envBinding) ← declaredRoot settings buildArgs
  checkRoot tree path
  let bound := (envBinding.toList ++ urlEnvBinding.toList).map Prod.fst
  let required := required.filter fun name ↦ !bound.contains name
  let isDeclared (name : String) : Bool := (buildArgs.lookup name).isSome
  return {
    path := path
    url := url
    urlEnvBinding := urlEnvBinding
    envBinding := envBinding
    buildEnv := required.filter fun name ↦ !isDeclared name
    buildArgs := required.filter isDeclared }

/-- `StaticRoot::build_path`. -/
def StaticRoot.buildPath (root : StaticRoot) (member : Option MemberPath) : List Char :=
  if root.path.toList.head? = some '/' then root.path.toList
  else match member with
    | none => "/app/".toList ++ root.path.toList
    | some member => "/app/".toList ++ (member.text ++ '/' :: root.path.toList)

/-- `StaticRoot::runtime_path`. -/
def StaticRoot.runtimePath (root : StaticRoot) : String :=
  if root.path.toList.head? = some '/' then root.path
  else "/app/" ++ root.path

/-! ## What a static root is -/

section Root

variable {tree : ProjectTree} {buildArgs : List (String × String)} {root : StaticRoot}
  {member : Option MemberPath} {path : String}

/-- The segments of a root below `/app`, slashes at its end ignored. -/
def rootSegments (path : String) : List (List Char) :=
  ((relativeRoot path).rdropWhile (· = '/')).splitOn '/'

theorem except_bind_ok {α β : Type} {x : Except String α} {f : α → Except String β} {b : β}
    (h : x.bind f = .ok b) : ∃ a, x = .ok a ∧ f a = .ok b := by
  cases x with
  | error e => cases h
  | ok a => exact ⟨a, rfl, h⟩

/-- The root is the one the settings declare, and has passed its checks. -/
theorem readStaticRoot_ok (h : readStaticRoot tree buildArgs = .ok root) :
    ∃ settings binding, readSettings tree = .ok settings ∧
      declaredRoot settings buildArgs = .ok (root.path, binding) ∧ checkRoot tree root.path =
        .ok () := by
  obtain ⟨settings, hsettings, h⟩ := except_bind_ok h
  obtain ⟨required, -, h⟩ := except_bind_ok h
  obtain ⟨⟨url, urlEnvBinding⟩, -, h⟩ := except_bind_ok h
  obtain ⟨_, -, h⟩ := except_bind_ok h
  obtain ⟨_, -, h⟩ := except_bind_ok h
  obtain ⟨⟨path, envBinding⟩, hpath, h⟩ := except_bind_ok h
  obtain ⟨_, hcheck, h⟩ := except_bind_ok h
  cases h
  exact ⟨settings, envBinding, hsettings, hpath, hcheck⟩

/-- The URL has passed its checks. -/
theorem checkUrl_of_readStaticRoot (h : readStaticRoot tree buildArgs = .ok root) :
    checkUrl root.url = .ok () := by
  obtain ⟨settings, -, h⟩ := except_bind_ok h
  obtain ⟨required, -, h⟩ := except_bind_ok h
  obtain ⟨⟨url, urlEnvBinding⟩, -, h⟩ := except_bind_ok h
  obtain ⟨_, hurl, h⟩ := except_bind_ok h
  obtain ⟨_, -, h⟩ := except_bind_ok h
  obtain ⟨⟨path, envBinding⟩, -, h⟩ := except_bind_ok h
  obtain ⟨_, -, h⟩ := except_bind_ok h
  cases h
  exact hurl

/-- What the checks of a root leave. -/
structure CheckedRoot (member : Option MemberPath) (path : String) : Prop where
  below : path.toList.head? = some '/' → isAbsoluteRoot path = true
  nonempty : pathComponents (relativeRoot path) ≠ []
  normal : ∀ c ∈ pathComponents (relativeRoot path), isNormal c = true
  chars : ∀ c ∈ relativeRoot path, isPathChar c = true
  publication : publicationComponents member path ≠ []
  unreserved : ∀ c ∈ (publicationComponents member path).head?, c ∉ reservedDirectories
  notAbove : ¬ pathComponents (buildRelative member path) <+: pathComponents (memberText member)

theorem checkedRoot_of_ok (h : checkRoot tree path = .ok ()) : CheckedRoot tree.member path := by
  unfold checkRoot at h
  dsimp only at h
  split at h
  · cases h
  next hbelow =>
  split at h
  · cases h
  next hsafe =>
  split at h
  · cases h
  next hpublication =>
  split at h
  · cases h
  next habove =>
  rw [Bool.or_eq_true, Bool.or_eq_true, not_or, not_or] at hsafe
  rw [Bool.or_eq_true, not_or] at hpublication
  obtain ⟨⟨hnonempty, hnormal⟩, hchars⟩ := hsafe
  rw [Bool.not_eq_true', Bool.not_eq_false, List.all_eq_true] at hnormal hchars
  rw [List.isEmpty_iff] at hnonempty
  rw [List.isEmpty_iff] at hpublication
  constructor
  case below =>
    intro hhead
    by_contra habsolute
    rw [Bool.not_eq_true] at habsolute
    exact hbelow (by rw [habsolute, decide_eq_true hhead]; rfl)
  case nonempty => exact hnonempty
  case normal => exact hnormal
  case chars => exact hchars
  case publication => exact hpublication.1
  case unreserved =>
    intro c hc hreserved
    refine hpublication.2 ((Option.any_eq_true _ _).mpr ⟨c, hc, ?_⟩)
    exact List.contains_iff_mem.mpr hreserved
  case notAbove => exact fun hbegins ↦ habove (pathStartsWith_iff.mpr hbegins)

/-! ### Components of a root -/

theorem mem_pathNames {l part : List Char} : part ∈ pathNames l ↔
    part ∈ l.splitOn '/' ∧ part ≠ [] ∧ part ≠ ['.'] := by
  rw [pathNames, List.mem_filter, Bool.and_eq_true, decide_eq_true_eq, decide_eq_true_eq]

/-- A relative path of normal components starts with one and has no other before its names. -/
theorem splitOn_of_normal {l : List Char} (hne : pathComponents l ≠ [])
    (hnormal : ∀ c ∈ pathComponents l, isNormal c = true) :
    ∃ first rest, l.splitOn '/' = first :: rest ∧ first ≠ [] ∧ first ≠ ['.'] ∧
      pathComponents l = first :: rest.filter fun part ↦ part ≠ [] && part ≠ ['.'] := by
  obtain ⟨first, rest, hsplit⟩ := List.exists_cons_of_ne_nil (List.splitOn_ne_nil '/' l)
  have hfirst : first ≠ [] := by
    rintro rfl
    cases rest with
    | nil =>
      rw [pathComponents, hsplit] at hne
      exact hne rfl
    | cons second rest =>
      rw [pathComponents, hsplit] at hnormal
      exact absurd (hnormal ['/'] List.mem_cons_self) (by decide)
  have hcomponents : pathComponents l =
      first :: rest.filter fun part ↦ part ≠ [] && part ≠ ['.'] := by
    rw [pathComponents, hsplit]
    cases rest with
    | nil => simp only [hfirst, if_false, List.filter_nil]
    | cons second rest => simp only [hfirst, if_false]
  refine ⟨first, rest, hsplit, hfirst, ?_, hcomponents⟩
  rintro rfl
  rw [hcomponents] at hnormal
  exact absurd (hnormal ['.'] List.mem_cons_self) (by decide)

theorem pathNames_of_normal {l : List Char} (hne : pathComponents l ≠ [])
    (hnormal : ∀ c ∈ pathComponents l, isNormal c = true) : pathNames l = pathComponents l := by
  obtain ⟨first, rest, hsplit, hfirst, hdot, hcomponents⟩ := splitOn_of_normal hne hnormal
  rw [hcomponents, pathNames, hsplit, List.filter_cons_of_pos]
  rw [Bool.and_eq_true, decide_eq_true_eq, decide_eq_true_eq]
  exact ⟨hfirst, hdot⟩

/-- Without the slashes at its end a path has the same segments before them. -/
theorem splitOn_rdropWhile (l : List Char) :
    (l.rdropWhile (· = '/')).splitOn '/' <+: l.splitOn '/' := by
  induction l using List.reverseRecOn with
  | nil => exact List.prefix_rfl
  | append_singleton l c ih =>
    by_cases hc : c = '/'
    · subst hc
      rw [List.rdropWhile_concat_pos _ _ _ (by simp), List.splitOn_append_cons_self]
      exact ih.trans (List.prefix_append _ _)
    · have hkept := List.rdropWhile_concat_neg (fun c : Char ↦ decide (c = '/')) l c
        (by simpa using hc)
      exact ⟨[], by rw [List.append_nil, hkept]⟩

theorem rootSegments_eq (h : CheckedRoot member path) :
    ∃ first rest more, rootSegments path = first :: rest ∧
      (relativeRoot path).splitOn '/' = first :: (rest ++ more) ∧ first ≠ [] ∧ first ≠ ['.'] ∧
        (pathComponents (relativeRoot path)).head? = some first := by
  obtain ⟨first, others, hsplit, hfirst, hdot, hcomponents⟩ := splitOn_of_normal h.nonempty h.normal
  obtain ⟨more, hmore⟩ := splitOn_rdropWhile (relativeRoot path)
  obtain ⟨first', rest, hsegments⟩ := List.exists_cons_of_ne_nil
    (List.splitOn_ne_nil '/' ((relativeRoot path).rdropWhile (· = '/')))
  rw [hsegments, hsplit, List.cons_append] at hmore
  obtain ⟨rfl, hrest⟩ := List.cons.inj hmore
  refine ⟨first', rest, more, hsegments, ?_, hfirst, hdot, ?_⟩
  · rw [hsplit, hrest]
  · rw [hcomponents, List.head?_cons]

/-! ### Where a root is -/

theorem rdropWhile_append {p : Char → Bool} (l : List Char) {m : List Char}
    (hne : m.rdropWhile p ≠ []) : (l ++ m).rdropWhile p = l ++ m.rdropWhile p := by
  unfold List.rdropWhile at hne ⊢
  rw [ne_eq, List.reverse_eq_nil_iff] at hne
  rw [List.reverse_append, List.dropWhile_append, if_neg (by simpa using hne), List.reverse_append,
    List.reverse_reverse]

/-- A path below `/app`. -/
theorem pathComponents_app (l : List Char) :
    pathComponents ("/app/".toList ++ l) = ['/'] :: "app".toList :: pathNames l := by
  have happ : "/app/".toList ++ l = '/' :: ("app".toList ++ '/' :: l) := rfl
  rw [happ, pathComponents_root, pathNames, List.splitOn_append_cons_self, List.filter_append]
  rfl

theorem pathNames_append (l m : List Char) :
    pathNames (l ++ '/' :: m) = pathNames l ++ pathNames m := by
  rw [pathNames, List.splitOn_append_cons_self, List.filter_append]
  rfl

theorem MemberPath.pathNames_text (member : MemberPath) :
    pathNames member.text = pathComponents member.text := by
  obtain ⟨first, rest, hsplit⟩ := List.exists_cons_of_ne_nil (List.splitOn_ne_nil '/' member.text)
  obtain ⟨hfirst, hdot, -⟩ := member.normal first (hsplit ▸ List.mem_cons_self)
  have hkeep : (first ≠ [] && first ≠ ['.'] : Bool) = true := by simp [hfirst, hdot]
  rw [pathNames, pathComponents, hsplit, List.filter_cons, if_pos hkeep]
  cases rest with
  | nil => simp only [hfirst, if_false, List.filter_nil]
  | cons second rest => simp only [hfirst, if_false]

theorem relativeRoot_absolute (h : isAbsoluteRoot path = true) :
    path.toList = "/app/".toList ++ relativeRoot path := by
  obtain ⟨rest, hrest⟩ := List.isPrefixOf_iff_prefix.mp h
  have hrelative : relativeRoot path = rest := by
    rw [relativeRoot, ← hrest, List.isPrefixOf?_eq_some_iff_append_eq.mpr rfl, Option.getD_some]
  rw [hrelative, hrest]

theorem relativeRoot_relative (h : isAbsoluteRoot path = false) :
    relativeRoot path = path.toList := by
  have hnone : "/app/".toList.isPrefixOf? path.toList = none := by
    rw [Option.eq_none_iff_forall_ne_some]
    intro rest hrest
    rw [List.isPrefixOf?_eq_some_iff_append_eq] at hrest
    rw [isAbsoluteRoot, startsWith, Bool.eq_false_iff] at h
    exact h (List.isPrefixOf_iff_prefix.mpr ⟨rest, hrest⟩)
  rw [relativeRoot, hnone, Option.getD_none]

theorem isAbsoluteRoot_of_slash (h : CheckedRoot member path) :
    path.toList.head? = some '/' ↔ isAbsoluteRoot path = true := by
  constructor
  · exact h.below
  · intro habsolute
    rw [relativeRoot_absolute habsolute]
    rfl

theorem runtimePath_eq (h : CheckedRoot member root.path) :
    root.runtimePath.toList = "/app/".toList ++ relativeRoot root.path := by
  unfold StaticRoot.runtimePath
  cases habsolute : isAbsoluteRoot root.path with
  | true =>
    rw [if_pos ((isAbsoluteRoot_of_slash h).mpr habsolute), relativeRoot_absolute habsolute]
  | false =>
    have hslash : root.path.toList.head? ≠ some '/' := by
      intro hslash
      rw [(isAbsoluteRoot_of_slash h).mp hslash] at habsolute
      cases habsolute
    rw [if_neg hslash, relativeRoot_relative habsolute, String.toList_append]

theorem pathComponents_runtimePath (h : CheckedRoot member root.path) :
    pathComponents root.runtimePath.toList =
      ['/'] :: "app".toList :: pathComponents (relativeRoot root.path) := by
  rw [runtimePath_eq h, pathComponents_app, pathNames_of_normal h.nonempty h.normal]

theorem MemberPath.text_ne_nil (member : MemberPath) : member.text ≠ [] := by
  intro hnil
  have hpart := member.normal [] (by rw [hnil, List.splitOn_nil]; exact List.mem_cons_self)
  exact hpart.1 rfl

theorem pathNames_relativeRoot (h : CheckedRoot member path) :
    pathNames (relativeRoot path) = pathComponents (relativeRoot path) :=
  pathNames_of_normal h.nonempty h.normal

/-- The names of the path of a root below the workspace. -/
theorem pathNames_buildRelative (h : CheckedRoot member path) :
    pathNames (buildRelative member path) =
      (if isAbsoluteRoot path then [] else pathComponents (memberText member)) ++
        pathComponents (relativeRoot path) := by
  have hnames := pathNames_relativeRoot h
  unfold buildRelative
  by_cases habsolute : isAbsoluteRoot path = true
  · rw [if_pos habsolute, if_pos habsolute, List.nil_append, hnames]
  · rw [if_neg habsolute, if_neg habsolute]
    cases member with
    | none => exact hnames
    | some member =>
      show pathNames (member.text ++ '/' :: relativeRoot path) = pathComponents member.text ++ _
      rw [pathNames_append, member.pathNames_text, hnames]

theorem pathComponents_buildRelative (h : CheckedRoot member path) :
    pathComponents (buildRelative member path) = pathNames (buildRelative member path) := by
  rw [pathNames_buildRelative h]
  have hnames := pathNames_relativeRoot h
  unfold buildRelative
  by_cases habsolute : isAbsoluteRoot path = true
  · rw [if_pos habsolute, if_pos habsolute, List.nil_append]
  · rw [if_neg habsolute, if_neg habsolute]
    cases member with
    | none => rfl
    | some member =>
      show pathComponents (member.text ++ '/' :: relativeRoot path) =
        pathComponents member.text ++ _
      rw [pathComponents_append member.text_ne_nil, hnames]

theorem pathComponents_buildPath (h : CheckedRoot member root.path) :
    pathComponents (root.buildPath member) =
      ['/'] :: "app".toList :: pathNames (buildRelative member root.path) := by
  unfold StaticRoot.buildPath buildRelative
  by_cases habsolute : isAbsoluteRoot root.path = true
  · rw [if_pos ((isAbsoluteRoot_of_slash h).mpr habsolute), if_pos habsolute,
      relativeRoot_absolute habsolute, pathComponents_app]
  · have hslash : root.path.toList.head? ≠ some '/' := by
      rwa [ne_eq, isAbsoluteRoot_of_slash h]
    rw [if_neg hslash, if_neg habsolute, relativeRoot_relative (Bool.not_eq_true _ ▸ habsolute)]
    cases member with
    | none => exact pathComponents_app _
    | some member => exact pathComponents_app _

/-- What a root holds inside its project, the publication holds. -/
theorem prefix_publication (h : CheckedRoot member path) {l : List (List Char)}
    (hl : pathComponents (memberText member) ++ l <+: pathNames (buildRelative member path)) :
    l <+: publicationComponents member path := by
  rw [pathNames_buildRelative h] at hl
  unfold publicationComponents
  by_cases habsolute : isAbsoluteRoot path = true
  · rw [if_pos habsolute, List.nil_append] at hl
    dsimp only
    rw [if_pos habsolute]
    cases member with
    | none => exact hl
    | some member =>
      obtain ⟨rest, hrest⟩ := hl
      rw [List.append_assoc] at hrest
      have hstrip : (pathComponents member.text).isPrefixOf? (pathComponents (relativeRoot path)) =
          some (l ++ rest) := List.isPrefixOf?_eq_some_iff_append_eq.mpr hrest
      show l <+: ((pathComponents member.text).isPrefixOf? _).getD _
      rw [hstrip, Option.getD_some]
      exact List.prefix_append _ _
  · rw [if_neg habsolute, List.prefix_append_right_inj] at hl
    dsimp only
    rw [if_neg habsolute]
    exact hl

end Root

end ReinhardtCloud.Cli

import ReinhardtCloud.Cli.FeatureDetection
import ReinhardtCloud.Cli.StaticRoots
import ReinhardtCloud.Operator.Workloads

/-!
# Images with pages

Library `Cli`. The runtime stage of the generated Dockerfile
(`crates/reinhardt-cloud-cli/src/dockerfile_generator/stages.rs:51–427`) with the published
directory in it, the pages section that goes with it (`dockerfile_generator.rs:205–242`), and
whether the two fit the other files of the image and the operator's checks.
-/

namespace ReinhardtCloud.Cli

open ReinhardtCloud.Base

/-! ## The runtime stage -/

/-- `Instruction`: those of the runtime stage. -/
inductive Instruction where
  | workdir (path : String)
  | run (command : String)
  | runMulti (commands : List String)
  | copy (source : Option String) (src dst : String)
  | env (pairs : List (String × String))
  | expose (port : UInt16)
  | entrypoint (arguments : List String)
  | user (name : String)
  | comment (text : String)
  deriving DecidableEq

/-- `Stage`. -/
structure Stage where
  baseImage : String
  name : Option String
  platform : Option String
  instructions : List Instruction
  deriving DecidableEq

/-- `DockerfileSignals`: what the runtime stage is built from. -/
structure DockerfileSignals where
  projectName : String
  pages : Bool
  staticRoot : Option StaticRoot
  database : Option String
  cache : Option String
  sessionBackend : Option String
  baseImageOverride : Option String
  tracing : Bool
  hasSettingsDir : Bool
  hasMigrationsDir : Bool
  projectRelativePath : Option MemberPath

/-- `runtime_packages`, `stages.rs:56–73`. -/
def runtimePackages (signals : DockerfileSignals) : List String :=
  ["ca-certificates", "tini"] ++
    (match signals.database with
      | some "postgresql" | some "cockroachdb" => ["libpq5"]
      | some "mysql" => ["default-mysql-client-core"]
      | _ => []) ++
    if signals.cache = some "redis" then ["redis-tools"] else []

/-- The copies into the image: both binaries, the publication and the migrations,
`stages.rs:305–350`. A missing root is a panic, here nothing. -/
def runtimeCopies (signals : DockerfileSignals) : List Instruction :=
  [.copy (some "builder") ("/app/target/release/" ++ signals.projectName) "/app/",
    .copy (some "builder") "/app/target/release/manage" "/app/"] ++
  (if signals.hasSettingsDir then
    [.comment "settings/ detected; provide runtime configuration at deployment time"] else []) ++
  (if signals.pages then
    signals.staticRoot.toList.map fun root ↦
      .copy (some "assets") (String.ofList (root.buildPath signals.projectRelativePath))
        root.runtimePath
  else []) ++
  if signals.hasMigrationsDir then
    [.copy (some "builder")
      (match signals.projectRelativePath with
        | some member => "/app/" ++ String.ofList member.text ++ "/migrations"
        | none => "/app/migrations") "/app/migrations"]
  else []

/-- `build_runtime_stage`, `stages.rs:279–427`. -/
def buildRuntimeStage (signals : DockerfileSignals) : Stage :=
  let isCustomImage := signals.baseImageOverride.isSome
  { baseImage := signals.baseImageOverride.getD "debian:bookworm-slim"
    name := some "runtime"
    platform := none
    instructions :=
      (if isCustomImage then []
      else
        [.runMulti ["apt-get update",
          "apt-get install -y --no-install-recommends " ++
            String.intercalate " " (runtimePackages signals),
          "rm -rf /var/lib/apt/lists/*"],
        .run "useradd --create-home appuser"]) ++
      .workdir "/app" :: runtimeCopies signals ++
      (if isCustomImage then [.comment "Run as non-root", .user "65534"]
      else [.run "chown -R appuser:appuser /app", .comment "Run as non-root", .user "appuser"]) ++
      .env ([("RUST_LOG", "info"), ("PATH", "/app:$PATH"), ("REINHARDT_ENV", "production")] ++
        (if signals.pages then (signals.staticRoot.bind StaticRoot.envBinding).toList else []) ++
        (signals.staticRoot.bind StaticRoot.urlEnvBinding).toList ++
        signals.sessionBackend.toList.map fun backend ↦
          ("REINHARDT_SESSION_BACKEND", backend)) ::
      (if signals.tracing then
        [.env [("OTEL_PROPAGATORS", "tracecontext")], .env [("OTEL_SERVICE_NAME", "app")]]
      else []) ++
      [.expose 8000,
        .entrypoint (if isCustomImage then ["/app/" ++ signals.projectName]
          else ["tini", "--", "/app/" ++ signals.projectName])] }

/-! ## Files of the image -/

/-- What a `COPY` of a file or directory writes: into a directory with a slash at its end under
the source's own name. -/
def copyDestination (src dst : String) : List Char :=
  if dst.toList.getLast? = some '/' then
    dst.toList ++ (src.toList.splitOn '/').getLast?.getD []
  else dst.toList

/-- The destination of a copy from another stage than that of the assets. -/
def otherDestination : Instruction → Option (List Char)
  | .copy source src dst =>
    if source = some "assets" then none else some (copyDestination src dst)
  | _ => none

def otherDestinations (stage : Stage) : List (List Char) :=
  stage.instructions.filterMap otherDestination

/-- One of two paths is in the other, or both are the same. -/
def PathsMeet (p q : List Char) : Prop :=
  pathComponents p <+: pathComponents q ∨ pathComponents q <+: pathComponents p

/-- The directory of a project in the build. -/
def memberDirectory (member : Option MemberPath) : List Char :=
  match member with
  | some member => "/app/".toList ++ member.text
  | none => "/app".toList

/-- The pages section that `configure_pages` records, `dockerfile_generator.rs:232–236`, of which
the image of the server may be there already. -/
def configuredPages (root : StaticRoot) (serverImage : Option String) : Operator.PagesSpec :=
  ⟨some root.runtimePath, some root.url, serverImage, some true⟩

/-- The published directory meets no other file of the image, neither holds the project nor is
among its sources, and passes the operator's checks. -/
structure SafePublication (signals : DockerfileSignals) (root : StaticRoot) : Prop where
  image : ∀ destination ∈ otherDestinations (buildRuntimeStage signals),
    ¬ PathsMeet root.runtimePath.toList destination
  above : ¬ pathComponents (root.buildPath signals.projectRelativePath) <+:
    pathComponents (memberDirectory signals.projectRelativePath)
  sources : ∀ directory ∈ ["settings", "src", "target", "migrations"],
    ¬ pathComponents (memberDirectory signals.projectRelativePath ++ '/' :: directory.toList) <+:
      pathComponents (root.buildPath signals.projectRelativePath)
  operator : ∀ (app : Operator.Project) (serverImage : Option String),
    app.spec.pages = some (configuredPages root serverImage) → app.spec.env = [] →
      ∃ config, Operator.resolvePagesConfig app = some config ∧
        Operator.checkPages config app.spec.env = .ok ()

/-! ## Where the published directory fits -/

section Fits

variable {signals : DockerfileSignals} {root : StaticRoot} {member : Option MemberPath}

/-- The root has no empty segments or `.` below `/app`, and the first is neither a directory of
the application nor one of its binaries. -/
structure Unobtrusive (projectName path : String) : Prop where
  plain : ∀ segment ∈ rootSegments path, segment ≠ [] ∧ segment ≠ ['.']
  unreserved : ∀ first ∈ (rootSegments path).head?, first ∉ reservedDirectories
  free : ∀ first ∈ (rootSegments path).head?,
    first ≠ projectName.toList ∧ first ≠ "manage".toList

theorem isControl_of_isPathChar {c : Char} (h : isPathChar c = true) :
    ¬ isControl c = true := by
  rw [isPathChar, Bool.or_eq_true, List.contains_iff_mem, Operator.isAlphanum_iff,
    Operator.isDns1123Alphanumeric_iff] at h
  have hrange : 0x20 ≤ c.toNat ∧ c.toNat < 0x7F := by
    rcases h with h | h
    · omega
    · have hpunctuation : ['/', '.', '-', '_'].all
          (fun c ↦ decide (0x20 ≤ c.toNat ∧ c.toNat < 0x7F)) = true := by decide
      exact of_decide_eq_true (List.all_eq_true.mp hpunctuation c h)
  rw [isControl, Bool.or_eq_true, Bool.and_eq_true, decide_eq_true_eq, decide_eq_true_eq,
    decide_eq_true_eq]
  omega

theorem pathComponents_single {name : List Char} (hslash : '/' ∉ name) (hne : name ≠ [])
    (hdot : name ≠ ['.']) :
    pathComponents ("/app/".toList ++ name) = ['/'] :: "app".toList :: [name] := by
  have hkeep : (name ≠ [] && name ≠ ['.'] : Bool) = true := by simp [hne, hdot]
  rw [pathComponents_app, pathNames, List.splitOn_eq_singleton hslash, List.filter_cons,
    if_pos hkeep, List.filter_nil]

/-- A root meets a file below `/app` exactly when its first directory has the name. -/
theorem pathsMeet_iff (h : CheckedRoot member root.path) {name : List Char} (hslash : '/' ∉ name)
    (hne : name ≠ []) (hdot : name ≠ ['.']) :
    PathsMeet root.runtimePath.toList ("/app/".toList ++ name) ↔
      (rootSegments root.path).head? = some name := by
  obtain ⟨first, rest, more, hsegments, -, -, -, hhead⟩ := rootSegments_eq h
  obtain ⟨others, hothers⟩ : ∃ others, pathComponents (relativeRoot root.path) = first ::
    others := by
    obtain ⟨c, others, hc⟩ := List.exists_cons_of_ne_nil h.nonempty
    rw [hc, List.head?_cons, Option.some_inj] at hhead
    rw [hhead] at hc
    exact ⟨others, hc⟩
  rw [PathsMeet, pathComponents_runtimePath h, pathComponents_single hslash hne hdot, hothers,
    hsegments, List.head?_cons, Option.some_inj]
  simp only [List.prefix_cons_inj, List.cons_prefix_cons]
  constructor
  · rintro (⟨heq, -⟩ | ⟨heq, -⟩)
    · exact heq
    · exact heq.symm
  · intro heq
    exact Or.inr ⟨heq.symm, List.nil_prefix⟩

theorem copyDestination_app {src name : List Char} (hslash : '/' ∉ name) :
    copyDestination (String.ofList (src ++ '/' :: name)) "/app/" = "/app/".toList ++ name := by
  have hlast : (src ++ '/' :: name).splitOn '/' = src.splitOn '/' ++ [name] := by
    rw [List.splitOn_append_cons_self, List.splitOn_eq_singleton hslash]
  have htext : (String.ofList (src ++ '/' :: name)).toList = src ++ '/' :: name :=
    String.toList_ofList
  rw [copyDestination, if_pos (by decide), htext, hlast, List.getLast?_concat, Option.getD_some]

/-- The copies of files that are not of assets. -/
theorem filterMap_runtimeCopies : (runtimeCopies signals).filterMap otherDestination =
    [copyDestination ("/app/target/release/" ++ signals.projectName) "/app/",
      copyDestination "/app/target/release/manage" "/app/"] ++
    if signals.hasMigrationsDir then ["/app/migrations".toList] else [] := by
  have hpages : (if signals.pages then
      signals.staticRoot.toList.map fun root ↦
        Instruction.copy (some "assets")
          (String.ofList (root.buildPath signals.projectRelativePath)) root.runtimePath
      else []).filterMap otherDestination = [] := by
    split
    · cases signals.staticRoot <;> rfl
    · rfl
  have hsettings : (if signals.hasSettingsDir then
      [Instruction.comment "settings/ detected; provide runtime configuration at deployment time"]
      else []).filterMap otherDestination = [] := by
    split <;> rfl
  unfold runtimeCopies
  rw [List.filterMap_append, List.filterMap_append, List.filterMap_append, hpages, hsettings,
    List.append_nil, List.append_nil]
  cases signals.hasMigrationsDir <;> rfl

theorem otherDestinations_eq : otherDestinations (buildRuntimeStage signals) =
    (runtimeCopies signals).filterMap otherDestination := by
  unfold otherDestinations buildRuntimeStage
  simp only [List.filterMap_append, List.filterMap_cons]
  cases signals.baseImageOverride.isSome <;> cases signals.tracing <;>
    simp [otherDestination, List.filterMap_cons]

/-- The other files of the image. -/
theorem mem_otherDestinations (hname : '/' ∉ signals.projectName.toList) {destination : List Char} :
    destination ∈ otherDestinations (buildRuntimeStage signals) ↔
      destination = "/app/".toList ++ signals.projectName.toList ∨
        destination = "/app/".toList ++ "manage".toList ∨
        signals.hasMigrationsDir = true ∧ destination = "/app/".toList ++ "migrations".toList := by
  have hproject : copyDestination ("/app/target/release/" ++ signals.projectName) "/app/" =
      "/app/".toList ++ signals.projectName.toList := by
    have htext : "/app/target/release/" ++ signals.projectName =
        String.ofList ("/app/target/release".toList ++ '/' :: signals.projectName.toList) := by
      have hlist : (String.ofList
          ("/app/target/release".toList ++ '/' :: signals.projectName.toList)).toList =
            "/app/target/release".toList ++ '/' :: signals.projectName.toList :=
        String.toList_ofList
      apply String.toList_injective
      rw [String.toList_append, hlist]
      rfl
    rw [htext, copyDestination_app hname]
  have hmanage : copyDestination "/app/target/release/manage" "/app/" =
      "/app/".toList ++ "manage".toList := by decide
  rw [otherDestinations_eq, filterMap_runtimeCopies, hproject, hmanage, List.mem_append,
    List.mem_cons,
    List.mem_singleton, or_assoc]
  cases signals.hasMigrationsDir <;> simp

/-- The root without the slashes at its end, as the operator sees it. -/
theorem trimEndSlashes_runtimePath (h : CheckedRoot member root.path) :
    Operator.trimEndSlashes root.runtimePath =
      "/app/".toList ++ (relativeRoot root.path).rdropWhile (· = '/') := by
  have hne : (relativeRoot root.path).rdropWhile (· = '/') ≠ [] := by
    intro hnil
    obtain ⟨first, rest, more, hsegments, -, hfirst, -⟩ := rootSegments_eq h
    rw [rootSegments, hnil, List.splitOn_nil] at hsegments
    exact hfirst (List.cons.inj hsegments).1.symm
  rw [Operator.trimEndSlashes, runtimePath_eq h]
  exact rdropWhile_append _ hne

theorem pathParts_runtimePath (h : CheckedRoot member root.path) :
    Operator.pathParts (Operator.trimEndSlashes root.runtimePath) =
      [] :: "app".toList :: rootSegments root.path := by
  have hsplit : ("/app".toList ++ '/' :: (relativeRoot root.path).rdropWhile (· = '/')).splitOn
    '/' =
      "/app".toList.splitOn '/' ++ rootSegments root.path := by
    rw [List.splitOn_append_cons_self, rootSegments]
  rw [trimEndSlashes_runtimePath h, Operator.pathParts]
  exact hsplit

/-- The first check of the operator rejects a root only for a segment `.`. -/
theorem checkPages_first (h : CheckedRoot member root.path) :
    (((Operator.trimEndSlashes root.runtimePath).head? ≠ some '/' ||
        (Operator.trimEndSlashes root.runtimePath).isEmpty ||
        ((Operator.pathParts (Operator.trimEndSlashes root.runtimePath)).any
          fun part ↦ part = ['.'] || part = ['.', '.']) ||
        (Operator.trimEndSlashes root.runtimePath).any isControl : Bool) = true) ↔
      ['.'] ∈ rootSegments root.path := by
  have hparent : ['.', '.'] ∉ rootSegments root.path := by
    intro hparent
    have hsplit := (splitOn_rdropWhile (relativeRoot root.path)).subset hparent
    have hname : ['.', '.'] ∈ pathNames (relativeRoot root.path) :=
      mem_pathNames.mpr ⟨hsplit, by decide, by decide⟩
    rw [pathNames_relativeRoot h] at hname
    exact absurd (h.normal _ hname) (by decide)
  have hcontrol : (Operator.trimEndSlashes root.runtimePath).any isControl = false := by
    rw [List.any_eq_false]
    intro c hc
    have hchar : isPathChar c = true := by
      rw [trimEndSlashes_runtimePath h] at hc
      rcases List.mem_append.mp hc with hc | hc
      · exact List.all_eq_true.mp (by decide : "/app/".toList.all isPathChar = true) c hc
      · exact h.chars c ((List.rdropWhile_prefix _ _).subset hc)
    exact isControl_of_isPathChar hchar
  have hhead : (Operator.trimEndSlashes root.runtimePath).head? = some '/' := by
    rw [trimEndSlashes_runtimePath h]
    rfl
  have hempty : (Operator.trimEndSlashes root.runtimePath).isEmpty = false := by
    rw [trimEndSlashes_runtimePath h]
    rfl
  rw [hcontrol, hempty, hhead, pathParts_runtimePath h]
  simp only [ne_eq, not_true_eq_false, decide_false, Bool.false_or, Bool.or_false,
    List.any_cons, List.any_eq_true, Bool.or_eq_true, decide_eq_true_eq]
  constructor
  · rintro (hfalse | hfalse | ⟨segment, hsegment, rfl | rfl⟩)
    · exact absurd hfalse (by decide)
    · exact absurd hfalse (by decide)
    · exact hsegment
    · exact absurd hsegment hparent
  · intro hdot
    exact Or.inr (Or.inr ⟨_, hdot, Or.inl rfl⟩)

/-- The operator reserves the same directories. -/
theorem mem_reservedDirectories {name : List Char} :
    String.ofList name ∈
        ["settings", "migrations", "src", "target", ".git", ".agents", ".codex"] ↔
      name ∈ reservedDirectories := by
  have hperm : ["settings", "migrations", "src", "target", ".git", ".agents", ".codex"].Perm
      ["settings", "src", "target", "migrations", ".git", ".agents", ".codex"] := by
    decide
  rw [hperm.mem_iff, reservedDirectories, List.mem_map]
  constructor
  · intro h
    exact ⟨_, h, String.toList_ofList⟩
  · rintro ⟨text, h, rfl⟩
    rwa [String.ofList_toList]

theorem checkPages_configured (h : CheckedRoot member root.path)
    {config : Operator.ResolvedPagesConfig} (hroot : config.staticRoot = root.runtimePath)
    (hprebuilt : config.prebuilt = true) :
    Operator.checkPages config [] = .ok () ↔
      (∀ segment ∈ rootSegments root.path, segment ≠ [] ∧ segment ≠ ['.']) ∧
        ∀ first ∈ (rootSegments root.path).head?, first ∉ reservedDirectories := by
  have hfirst := checkPages_first h
  obtain ⟨first, rest, more, hsegments, -⟩ := rootSegments_eq h
  unfold Operator.checkPages
  dsimp only
  rw [hroot]
  by_cases hdot : ['.'] ∈ rootSegments root.path
  · rw [if_pos (hfirst.mpr hdot)]
    refine iff_of_false (fun herror ↦ by cases herror) ?_
    rintro ⟨hplain, -⟩
    exact (hplain _ hdot).2 rfl
  · rw [if_neg fun hcheck ↦ hdot (hfirst.mp hcheck), if_pos hprebuilt, pathParts_runtimePath h]
    have hconflicts : (Operator.conflictingPublicationEnv root.runtimePath config.staticUrl
        []).isEmpty = true := rfl
    have hlist : (([] :: "app".toList :: rootSegments root.path).drop 1).map String.ofList =
        "app" :: (first :: rest).map String.ofList := by
      rw [hsegments]
      rfl
    rw [if_pos hconflicts, hlist, hsegments]
    have hsome : ∀ segment : List Char, String.ofList segment ≠ "" ↔ segment ≠ [] := by
      intro segment
      rw [ne_eq, ne_eq, ← String.toList_inj, String.toList_ofList]
      rfl
    have hall : (("app" :: (first :: rest).map String.ofList).all fun part ↦ part ≠ "") = true ↔
        ∀ segment ∈ first :: rest, segment ≠ [] := by
      rw [List.all_cons, Bool.and_eq_true, List.all_map, List.all_eq_true]
      simp only [Function.comp_apply, decide_eq_true_eq, hsome]
      exact and_iff_right (by decide)
    have hallowed : ∀ b c : Bool, (if (!(decide (2 ≤
        ("app" :: (first :: rest).map String.ofList).length) &&
          decide (("app" :: (first :: rest).map String.ofList).head? = some "app") && b && !c)) =
            true
        then Except.error (Operator.Error.invalidStaticRoot root.runtimePath)
        else (Except.ok () : Except Operator.Error Unit)) = .ok () ↔ b = true ∧ c = false := by
      intro b c
      have hlength : 2 ≤ ("app" :: (first :: rest).map String.ofList).length := by
        rw [List.length_cons, List.map_cons, List.length_cons]
        omega
      rw [decide_eq_true hlength, List.head?_cons]
      cases b <;> cases c <;> simp
    have hhead : (("app" :: (first :: rest).map String.ofList).drop 1).headD "" =
        String.ofList first := rfl
    rw [hallowed, hall, Bool.eq_false_iff, ne_eq, List.contains_iff_mem, hhead,
      mem_reservedDirectories, List.head?_cons]
    rw [hsegments] at hdot
    constructor
    · rintro ⟨hplain, hunreserved⟩
      refine ⟨fun segment hsegment ↦ ⟨hplain segment hsegment, ?_⟩, ?_⟩
      · rintro rfl
        exact hdot hsegment
      · rintro _ ⟨⟩
        exact hunreserved
    · rintro ⟨hplain, hunreserved⟩
      exact ⟨fun segment hsegment ↦ (hplain segment hsegment).1, hunreserved first rfl⟩

theorem pathComponents_memberDirectory_self (member : Option MemberPath) :
    pathComponents (memberDirectory member) =
      ['/'] :: "app".toList :: pathComponents (memberText member) := by
  cases member with
  | none => decide
  | some member =>
    show pathComponents ("/app/".toList ++ member.text) = _
    rw [pathComponents_app, member.pathNames_text]
    rfl

theorem pathComponents_memberDirectory_in (member : Option MemberPath) {name : List Char}
    (hslash : '/' ∉ name) (hne : name ≠ []) (hdot : name ≠ ['.']) :
    pathComponents (memberDirectory member ++ '/' :: name) =
      ['/'] :: "app".toList :: (pathComponents (memberText member) ++ [name]) := by
  have hname : pathNames name = [name] := by
    have hkeep : (name ≠ [] && name ≠ ['.'] : Bool) = true := by simp [hne, hdot]
    rw [pathNames, List.splitOn_eq_singleton hslash, List.filter_cons, if_pos hkeep,
      List.filter_nil]
  rw [pathComponents_append, pathComponents_memberDirectory_self, hname]
  · rfl
  · cases member with
    | none => decide
    | some member => exact List.cons_ne_nil _ _

/-- The directories of the project are not published. -/
theorem not_prefix_sources (h : CheckedRoot member root.path) {name : List Char}
    (hreserved : name ∈ reservedDirectories) (hslash : '/' ∉ name) (hne : name ≠ [])
    (hdot : name ≠ ['.']) :
    ¬ pathComponents (memberDirectory member ++ '/' :: name) <+:
      pathComponents (root.buildPath member) := by
  rw [pathComponents_memberDirectory_in member hslash hne hdot, pathComponents_buildPath h,
    List.prefix_cons_inj, List.prefix_cons_inj]
  intro hbegins
  obtain ⟨others, hothers⟩ := prefix_publication h hbegins
  refine h.unreserved name ?_ hreserved
  rw [← hothers]
  rfl

theorem not_above (h : CheckedRoot member root.path) :
    ¬ pathComponents (root.buildPath member) <+: pathComponents (memberDirectory member) := by
  rw [pathComponents_memberDirectory_self, pathComponents_buildPath h, List.prefix_cons_inj,
    List.prefix_cons_inj, ← pathComponents_buildRelative h]
  exact h.notAbove

/-- A project whose pages are those the CLI has recorded. -/
def projectWithPages (root : StaticRoot) : Operator.Project :=
  ⟨"shop", some "team", some 7, none, ⟨none, none, none, none⟩,
    { image := "registry.example/shop:1", pages := some (configuredPages root none) }, none, none⟩

theorem validatePackageName_chars {name : String} (h : validatePackageName name = .ok ()) :
    name.toList ≠ [] ∧ '/' ∉ name.toList ∧ name.toList ≠ ['.'] := by
  unfold validatePackageName at h
  split at h
  · cases h
  next hvalid =>
  rw [Bool.or_eq_true, not_or, Bool.not_eq_true', Bool.not_eq_false, List.all_eq_true] at hvalid
  obtain ⟨hempty, hchars⟩ := hvalid
  refine ⟨?_, ?_, ?_⟩
  · intro hnil
    rw [String.toList_eq_nil_iff] at hnil
    exact hempty (String.isEmpty_iff.mpr hnil)
  · intro hslash
    exact absurd (hchars '/' hslash) (by decide)
  · intro hdot
    exact absurd (hchars '.' (hdot ▸ List.mem_cons_self)) (by decide)

/-- The published directory is safe exactly when the declared root is unobtrusive. -/
theorem safePublication_iff {tree : ProjectTree} {buildArgs : List (String × String)}
    {settings : Toml} {path : String} {binding : Option (String × String)}
    (hsettings : readSettings tree = .ok settings)
    (hpath : declaredRoot settings buildArgs = .ok (path, binding))
    (hroot : readStaticRoot tree buildArgs = .ok root)
    (hname : validatePackageName signals.projectName = .ok ())
    (hmember : signals.projectRelativePath = tree.member) :
    SafePublication signals root ↔ Unobtrusive signals.projectName path := by
  obtain ⟨settings', binding', hsettings', hpath', hcheck⟩ := readStaticRoot_ok hroot
  obtain rfl : settings = settings' := Except.ok.inj (hsettings.symm.trans hsettings')
  obtain ⟨rfl, -⟩ : path = root.path ∧ binding = binding' :=
    Prod.mk.inj (Except.ok.inj (hpath.symm.trans hpath'))
  have h : CheckedRoot signals.projectRelativePath root.path := hmember ▸ checkedRoot_of_ok hcheck
  obtain ⟨hnonempty, hslash, hdot⟩ := validatePackageName_chars hname
  have hproject := pathsMeet_iff h hslash hnonempty hdot
  have hmanage : PathsMeet root.runtimePath.toList ("/app/".toList ++ "manage".toList) ↔ _ :=
    pathsMeet_iff h (by decide) (by decide) (by decide)
  have hmigrations : PathsMeet root.runtimePath.toList ("/app/".toList ++ "migrations".toList) ↔
    _ :=
    pathsMeet_iff h (by decide) (by decide) (by decide)
  constructor
  · intro hsafe
    obtain ⟨config, hconfig, hok⟩ := hsafe.operator (projectWithPages root) none rfl rfl
    cases hconfig
    obtain ⟨hplain, hunreserved⟩ := (checkPages_configured h rfl rfl).mp hok
    refine ⟨hplain, hunreserved, ?_⟩
    intro first hfirst
    constructor
    · rintro rfl
      exact hsafe.image _ ((mem_otherDestinations hslash).mpr (Or.inl rfl)) (hproject.mpr hfirst)
    · rintro rfl
      exact hsafe.image _ ((mem_otherDestinations hslash).mpr (Or.inr (Or.inl rfl)))
        (hmanage.mpr hfirst)
  · intro hunobtrusive
    constructor
    · intro destination hdestination hmeet
      rcases (mem_otherDestinations hslash).mp hdestination with rfl | rfl | ⟨-, rfl⟩
      · exact (hunobtrusive.free _ (hproject.mp hmeet)).1 rfl
      · exact (hunobtrusive.free _ (hmanage.mp hmeet)).2 rfl
      · exact hunobtrusive.unreserved _ (hmigrations.mp hmeet) (by decide)
    · exact not_above h
    · intro directory hdirectory
      have hall : ∀ directory ∈ ["settings", "src", "target", "migrations"],
          directory.toList ∈ reservedDirectories ∧ '/' ∉ directory.toList ∧
            directory.toList ≠ [] ∧ directory.toList ≠ ['.'] := by
        decide
      obtain ⟨hreserved, hslash, hne, hdot⟩ := hall directory hdirectory
      exact not_prefix_sources h hreserved hslash hne hdot
    · intro app serverImage hpages henv
      have hconfig : Operator.resolvePagesConfig app = some
          { staticRoot := root.runtimePath
            staticUrl := root.url
            serverImage := serverImage.getD ({} : Operator.ResolvedPagesConfig).serverImage
            prebuilt := true } := by
        rw [Operator.resolvePagesConfig, Operator.shouldEnablePages, hpages]
        rfl
      refine ⟨_, hconfig, ?_⟩
      rw [henv]
      exact (checkPages_configured h rfl rfl).mpr ⟨hunobtrusive.plain, hunobtrusive.unreserved⟩

end Fits

/-! ## Two roots -/

/-- A project with a static root in its base settings. -/
def treeWithRoot (root : String) : ProjectTree where
  profile := fun name ↦
    if name = "base" then some (.ok (.table [("static_files", .table [("root", .string root)])]))
    else none
  member := none
  containsCrateManifest := fun _ ↦ .ok false

/-- The static root of such a project. -/
def rootAt (path : String) : StaticRoot := ⟨path, "/static/", none, none, [], []⟩

/-- An image with pages of it. -/
def shopSignals (root : StaticRoot) : DockerfileSignals :=
  ⟨"shop", true, some root, none, none, none, none, false, true, true, none⟩

theorem safePublication_assets :
    readStaticRoot (treeWithRoot "public/assets") [] = .ok (rootAt "public/assets") ∧
      SafePublication (shopSignals (rootAt "public/assets")) (rootAt "public/assets") := by
  have hroot : readStaticRoot (treeWithRoot "public/assets") [] = .ok (rootAt "public/assets") := by
    rfl
  have hsettings : readSettings (treeWithRoot "public/assets") =
      .ok (.table [("static_files", .table [("root", .string "public/assets")])]) := by rfl
  have hpath : declaredRoot (.table [("static_files", .table [("root", .string "public/assets")])])
      [] = .ok ("public/assets", none) := by rfl
  have hname : validatePackageName "shop" = .ok () := by decide
  refine ⟨hroot, (safePublication_iff hsettings hpath hroot hname rfl).mpr ⟨?_, ?_, ?_⟩⟩
  · decide +kernel
  · decide +kernel
  · decide +kernel

/-- The `manage` binary is overwritten. -/
theorem not_safePublication_manage :
    readStaticRoot (treeWithRoot "manage") [] = .ok (rootAt "manage") ∧
      ¬ SafePublication (shopSignals (rootAt "manage")) (rootAt "manage") := by
  refine ⟨by rfl, ?_⟩
  intro h
  have hdestination : "/app/manage".toList ∈
      otherDestinations (buildRuntimeStage (shopSignals (rootAt "manage"))) := by
    decide +kernel
  exact h.image _ hdestination (Or.inl List.prefix_rfl)

end ReinhardtCloud.Cli

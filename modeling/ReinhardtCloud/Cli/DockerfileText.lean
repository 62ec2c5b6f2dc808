import ReinhardtCloud.Base.Dockerfiles
import ReinhardtCloud.Cli.CargoLock
import ReinhardtCloud.Cli.Sync

/-!
# The generated Dockerfile

Library `Cli`. `collect_signals` and `generate`
(`crates/reinhardt-cloud-cli/src/dockerfile_generator.rs:276–445`) with all stages
(`dockerfile_generator/stages.rs:75–277`) and their text (`dockerfile_generator/dockerfile.rs`):
what a build reads in the text, whatever the project says.
-/

namespace ReinhardtCloud.Cli

open ReinhardtCloud.Base ReinhardtCloud.Base.Dockerfiles

/-! ## Signals -/

/-- `is_ascii_alphanumeric` or one of `.`, `-` and `_`. -/
def isTokenChar (c : Char) : Bool := c.isAlphanum || ['.', '-', '_'].contains c

/-- `validate_channel`, `rust_toolchain_reader.rs:76–88`. -/
def validateChannel (channel : String) : Except String String :=
  if channel.isEmpty || !channel.toList.all isTokenChar then
    .error ("Invalid [toolchain].channel in rust-toolchain.toml: expected a Dockerfile-safe token")
  else .ok channel

/-- `parse_channel` of a parsed file, `rust_toolchain_reader.rs:62–74`. -/
def parseChannel (toolchain : Toml) : Except String String :=
  match ((toolchain.get? "toolchain").bind (·.get? "channel")).bind Toml.asStr? with
  | none => .error "Missing [toolchain].channel in rust-toolchain.toml"
  | some channel => validateChannel channel

/-- A version in a Dockerfile may have a plus too. -/
def isVersionToken (version : String) : Bool :=
  !version.isEmpty && version.toList.all fun c ↦ isTokenChar c || c = '+'

/-- `extract_wasm_bindgen_version`, `cargo_lock_reader.rs:10–48`; a blank file has no package. -/
def extractWasmBindgenVersion (content : Except String Toml) : Except String (Option String) :=
  match content with
  | .error e => .error ("failed to parse Cargo.lock: " ++ e)
  | .ok parsed =>
    match (packagesOf parsed).bind fun packages ↦ packages.findSome? fun package ↦
        if textField "name" package = some "wasm-bindgen" then textField "version" package
        else none with
    | none => .ok none
    | some version =>
      if isVersionToken version then .ok (some version)
      else .error ("invalid wasm-bindgen version in Cargo.lock: expected a Dockerfile-safe token")

/-- `detect_protoc_requirement`, `cargo_lock_reader.rs:64–88`. -/
def detectProtocRequirement (content : Except String Toml) : Bool :=
  match content with
  | .error _ => false
  | .ok parsed => ((packagesOf parsed).getD []).any fun package ↦
      ["prost", "prost-build", "tonic", "tonic-build"].contains
        ((textField "name" package).getD "")

/-- `validate_docker_token`, `dockerfile_generator.rs:413–424`. -/
def validateDockerToken (value label : String) : Except String Unit :=
  if isVersionToken value then .ok ()
  else .error ("invalid " ++ label ++ ": expected a Dockerfile-safe token containing only ASCII " ++
    "letters, digits, '.', '-', '_', or '+'")

/-- `DockerfileSignals`, with what the build stages are built from. -/
structure BuildSignals extends DockerfileSignals where
  rustVersion : String
  grpc : Bool
  graphql : Bool
  wasmBindgenVersion : Option String
  protocNeeded : Bool

/-- What `collect_signals` reads of a project: its toolchain file, its lock file, which cannot be
read or is absent, malformed or parsed, and its directory. -/
structure BuildInputs where
  toolchain : Except String Toml
  lock : Except String (Option (Except String Toml))
  hasSettingsDir : Bool
  hasMigrationsDir : Bool
  tree : ProjectTree

/-- The arguments that a configuration gives to builds. -/
def ReinhardtCloudToml.buildArguments (config : ReinhardtCloudToml) : List (String × String) :=
  config.build.elim [] fun build ↦ build.buildArgs.entries

/-- The version of wasm-bindgen, `dockerfile_generator.rs:304–331`. -/
def wasmVersion (config : ReinhardtCloudToml) (lock : Option (Except String Toml)) :
    Except String String :=
  (lock.elim (.ok none) extractWasmBindgenVersion).bind fun fromLock ↦
    match fromLock.or (config.buildArguments.lookup "WASM_BINDGEN_VERSION") with
    | none => .error ("pages feature detected but wasm-bindgen version not found in Cargo.lock " ++
        "or reinhardt-cloud.toml")
    | some version => (validateDockerToken version "wasm-bindgen version").map fun _ ↦ version

section Collect

variable {Version : Type} [LinearOrder Version] (parse : String → Option Version)

/-- The publication of pages, `dockerfile_generator.rs:333–349`. -/
def publication (metadata : ProjectMetadata) (config : ReinhardtCloudToml)
    (lock : Option (Except String Toml)) (tree : ProjectTree) : Except String StaticRoot := do
  validatePagesRuntimeImage config
  requireBuildstatic parse lock metadata.name metadata.version
  readStaticRoot tree config.buildArguments

/-- `collect_signals`, `dockerfile_generator.rs:276–393`. -/
def collectSignals (inputs : BuildInputs) (metadata : ProjectMetadata)
    (config : ReinhardtCloudToml) : Except String BuildSignals := do
  validateBuildContext config
  let rustVersion ← inputs.toolchain.bind parseChannel
  let lock ← inputs.lock
  let pages := metadata.signals.pages
  let wasmBindgenVersion ← if pages then (wasmVersion config lock).map some else .ok none
  let staticRoot ←
    if pages then (publication parse metadata config lock inputs.tree).map some else .ok none
  return {
    projectName := metadata.name
    rustVersion := rustVersion
    pages := pages
    grpc := metadata.signals.grpc
    graphql := metadata.signals.graphql
    wasmBindgenVersion := wasmBindgenVersion
    staticRoot := staticRoot
    database := metadata.signals.database
    cache := metadata.signals.cache
    sessionBackend := none
    baseImageOverride := config.build.bind BuildSection.baseImage
    tracing := metadata.signals.tracing
    protocNeeded := lock.any detectProtocRequirement
    hasSettingsDir := inputs.hasSettingsDir
    hasMigrationsDir := inputs.hasMigrationsDir
    projectRelativePath := inputs.tree.member }

end Collect

/-! ## Stages -/

/-- `Instruction`, `dockerfile.rs:21–41`; the variants that only tests build are left out. -/
inductive BuildInstruction where
  | arg (name : String) (default : Option String)
  | plain (instruction : Instruction)
  deriving DecidableEq

/-- `Stage`, `dockerfile.rs:10–15`. -/
structure BuildStage where
  baseImage : String
  name : Option String
  platform : Option String
  instructions : List BuildInstruction
  deriving DecidableEq

/-- `Dockerfile`, `dockerfile.rs:4–7`. -/
structure Dockerfile where
  headerComment : String
  stages : List BuildStage

/-- A stage of plain instructions. -/
def Stage.toBuild (stage : Stage) : BuildStage :=
  ⟨stage.baseImage, stage.name, stage.platform, stage.instructions.map .plain⟩

/-- The installation of the protobuf compiler. -/
def installProtoc (signals : BuildSignals) : List Instruction :=
  if signals.grpc || signals.protocNeeded then
    [.runMulti ["apt-get update",
      "apt-get install -y --no-install-recommends protobuf-compiler libprotobuf-dev",
      "rm -rf /var/lib/apt/lists/*"]]
  else []

/-- The image of the build stages. -/
def rustImage (signals : BuildSignals) : String := "rust:" ++ signals.rustVersion ++ "-bookworm"

/-- `build_chef_stage`, `stages.rs:75–115`. -/
def buildChefStage (signals : BuildSignals) : Stage where
  baseImage := rustImage signals
  name := some "chef"
  platform := none
  instructions := installProtoc signals ++
    [.run "cargo install cargo-chef", .workdir "/app", .copy none "." ".",
      .run "cargo chef prepare --recipe-path recipe.json"]

/-- `build_builder_stage`, `stages.rs:117–179`. -/
def buildBuilderStage (signals : BuildSignals) : Stage where
  baseImage := rustImage signals
  name := some "builder"
  platform := none
  instructions :=
    let featureArgs := if signals.graphql then " --features graphql" else ""
    installProtoc signals ++
    [.run "cargo install cargo-chef", .workdir "/app",
      .copy (some "chef") "/app/recipe.json" "recipe.json",
      .run ("cargo chef cook --release" ++ featureArgs ++ " --recipe-path recipe.json"),
      .copy none "." ".",
      .run ("cargo build --release -p " ++ signals.projectName ++ featureArgs)]

/-- `project_name.replace('-', "_")`. -/
def underscored (name : String) : String :=
  String.ofList (name.toList.map fun c ↦ if c = '-' then '_' else c)

/-- `build_wasm_stage`, `stages.rs:181–226`, for the version that is there. -/
def buildWasmStage (signals : BuildSignals) (version : String) : Stage where
  baseImage := rustImage signals
  name := some "wasm"
  platform := none
  instructions :=
    [.run "rustup target add wasm32-unknown-unknown",
      .run ("cargo install wasm-bindgen-cli@" ++ version), .workdir "/app", .copy none "." ".",
      .run ("cargo build --release --target wasm32-unknown-unknown --lib -p " ++
        signals.projectName),
      .run ("wasm-bindgen --out-dir /wasm-dist --target web " ++
        "target/wasm32-unknown-unknown/release/" ++ underscored signals.projectName ++ ".wasm")]

/-- The random value of a variable that only the publication needs. -/
def ephemeralVariable (name : String) : String :=
  name ++ "=\"$(od -An -N32 -tx1 /dev/urandom | tr -d ' \\n')\" "

/-- `build_assets_stage`, `stages.rs:228–290`, for the root that is there. -/
def buildAssetsStage (signals : BuildSignals) (root : StaticRoot) : BuildStage where
  baseImage := "builder"
  name := some "assets"
  platform := none
  instructions :=
    (root.buildArgs.map fun name ↦ .arg name none) ++
    (((root.envBinding.toList ++ root.urlEnvBinding.toList).map fun binding ↦
      Instruction.env [binding]) ++
    [Instruction.copy (some "wasm") "/wasm-dist" "/build/wasm-dist",
      .workdir (match signals.projectRelativePath with
        | some member => "/app/" ++ String.ofList member.text
        | none => "/app"),
      .env [("REINHARDT_ENV", "production")],
      .run (String.join (root.buildEnv.map ephemeralVariable) ++
        "/app/target/release/manage buildstatic --pages-dir /build/wasm-dist --pages-entry " ++
        underscored signals.projectName ++ ".js --pages-document index.html")]).map .plain

/-- The stages that only pages need; a missing version or root is a panic. -/
def pagesStages (signals : BuildSignals) : Option (List BuildStage) :=
  if signals.pages then
    signals.wasmBindgenVersion.bind fun version ↦ signals.staticRoot.map fun root ↦
      [(buildWasmStage signals version).toBuild, buildAssetsStage signals root]
  else some []

/-- `generate`, `dockerfile_generator.rs:427–445`. -/
def generate (signals : BuildSignals) : Option Dockerfile :=
  (pagesStages signals).map fun pages ↦ {
    headerComment := "Generated by reinhardt-cloud. Do not edit manually."
    stages := [(buildChefStage signals).toBuild, (buildBuilderStage signals).toBuild] ++ pages ++
      [(buildRuntimeStage signals.toDockerfileSignals).toBuild] }

/-! ## Text -/

/-- A value of `ENV`, in quotes when it has a blank. -/
def displayPair (pair : String × String) : String :=
  if pair.2.toList.contains ' ' then pair.1 ++ "=\"" ++ pair.2 ++ "\""
  else pair.1 ++ "=" ++ pair.2

/-- The list of `ENTRYPOINT`. -/
def displayArguments (arguments : List String) : String :=
  "[" ++ ", ".intercalate (arguments.map fun a ↦ "\"" ++ a ++ "\"") ++ "]"

/-- `Instruction::fmt`, `dockerfile.rs:43–96`. -/
def BuildInstruction.display : BuildInstruction → String
  | .arg name (some value) => "ARG " ++ name ++ "=" ++ value
  | .arg name none => "ARG " ++ name
  | .plain (.workdir path) => "WORKDIR " ++ path
  | .plain (.run command) => "RUN " ++ command
  | .plain (.runMulti [command]) => "RUN " ++ command
  | .plain (.runMulti commands) => "RUN " ++ " && \\\n    ".intercalate commands
  | .plain (.copy (some source) src dst) => "COPY --from=" ++ source ++ " " ++ src ++ " " ++ dst
  | .plain (.copy none src dst) => "COPY " ++ src ++ " " ++ dst
  | .plain (.env pairs) => "ENV " ++ " \\\n    ".intercalate (pairs.map displayPair)
  | .plain (.expose port) => "EXPOSE " ++ toString port.toNat
  | .plain (.entrypoint arguments) => "ENTRYPOINT " ++ displayArguments arguments
  | .plain (.user name) => "USER " ++ name
  | .plain (.comment text) => "# " ++ text

/-- The line that begins a stage. -/
def BuildStage.displayFrom (stage : BuildStage) : String :=
  "FROM " ++ stage.platform.elim "" (fun platform ↦ "--platform=" ++ platform ++ " ") ++
    stage.baseImage ++ stage.name.elim "" fun name ↦ " AS " ++ name

/-- `Stage::fmt`, `dockerfile.rs:98–114`. -/
def BuildStage.display (stage : BuildStage) : String :=
  stage.displayFrom ++ "\n" ++ String.join (stage.instructions.map fun i ↦ i.display ++ "\n")

/-- `Dockerfile::fmt`, `dockerfile.rs:116–127`. -/
def Dockerfile.display (dockerfile : Dockerfile) : String :=
  "# " ++ dockerfile.headerComment ++ "\n" ++
    String.join (dockerfile.stages.mapIdx fun i stage ↦
      (if 0 < i then "\n" else "") ++ stage.display)

end ReinhardtCloud.Cli

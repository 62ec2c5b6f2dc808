import ReinhardtCloud.Base.FileSystem

/-!
# Writing the project files

Library `Cli`. How `init` and `sync` replace `reinhardt-cloud.toml` and the Dockerfile
(`crates/reinhardt-cloud-cli/src/dockerfile_generator.rs:100–204`). Each call of the code is one of
the calls that can fail; temporary paths are dropped where they go out of scope.
-/

namespace ReinhardtCloud.Cli

open ReinhardtCloud.Base FileSystem

/-- A path, `parent_dir` of it and its last component. -/
structure FilePath where
  parent : String
  name : String
  deriving DecidableEq

/-- A temporary path in the same directory. -/
def FilePath.beside (path : FilePath) (start random : String) : FilePath :=
  ⟨path.parent, start ++ random⟩

/-- The calls on a staged file. -/
inductive StagedCall where
  | create
  | write
  | metadata
  | setPermissions
  | persist
  | drop
  deriving DecidableEq

/-- The calls of `write_project_files`. -/
inductive ProjectCall where
  | config (call : StagedCall)
  | dockerfile (call : StagedCall)
  | symlinkMetadata
  | moveAside
  | moveBack
  | removeFile
  | dropBackup
  deriving DecidableEq

/-- The random parts that `tempfile` tries for the temporary paths. -/
structure TemporaryNames where
  config : List String
  dockerfile : List String
  backup : List String

/-- The paths that are tried for a staged file. -/
def stagedPaths (names : List String) (target : FilePath) : List FilePath :=
  names.map (target.beside ".reinhardt-cloud-")

/-- The paths that are tried for a backup. -/
def backupPaths (names : List String) (target : FilePath) : List FilePath :=
  names.map (target.beside ".reinhardt-cloud-backup-")

/-! ## Staging -/

/-- The permissions of the target, or those of an ordinary file, `dockerfile_generator.rs:191–200`.
The kernel follows 40 links. -/
def stagedMode (target : FilePath) (files : FileSystem FilePath) : Except FileError Nat :=
  match follow 40 target files with
  | .ok ⟨.text _, mode⟩ => .ok mode
  | .ok _ => .ok 0o644
  | .error .notFound => .ok 0o644
  | .error error => .error error

/-- `stage_file`, `dockerfile_generator.rs:183–204`. -/
def stageFile (fails : StagedCall → Bool) (names : List String) (target : FilePath)
    (contents : String) (files : FileSystem FilePath) :
    Except FileError FilePath × FileSystem FilePath :=
  match firstUnused (fun path ↦ attempt (fails .create) (createNew path 0o600)) files
      (stagedPaths names target) with
  | .error error => (.error error, files)
  | .ok (staged, files) =>
    match attempt (fails .write) (alter staged fun e ↦ { e with contents := .text contents })
        files with
    | .error error => (.error error, drop (fails .drop) staged files)
    | .ok files =>
      match if fails .metadata then .error .other else stagedMode target files with
      | .error error => (.error error, drop (fails .drop) staged files)
      | .ok mode =>
        match attempt (fails .setPermissions) (alter staged fun e ↦ { e with mode := mode })
            files with
        | .error error => (.error error, drop (fails .drop) staged files)
        | .ok files => (.ok staged, files)

/-- The first path without an entry that is not taken otherwise. -/
def freePath (files : FileSystem FilePath) (taken paths : List FilePath) : Option FilePath :=
  paths.find? fun path ↦ (files path).isNone && !taken.contains path

/-- Nothing prevents the staging but a lack of unused paths. -/
structure CanStage (fails : StagedCall → Bool) (target : FilePath)
    (files : FileSystem FilePath) : Prop where
  calls : ∀ call ∈ [StagedCall.create, .write, .metadata, .setPermissions], fails call = false
  links : follow 40 target files ≠ .error .filesystemLoop

section

variable {fails : StagedCall → Bool} {names : List String} {target staged : FilePath}
  {contents : String} {files : FileSystem FilePath}

theorem stagedMode_cases (target : FilePath) (files : FileSystem FilePath) :
    (∃ mode, stagedMode target files = .ok mode) ∧
        follow 40 target files ≠ .error .filesystemLoop ∨
      stagedMode target files = .error .filesystemLoop ∧
        follow 40 target files = .error .filesystemLoop := by
  rcases follow_cases 40 target files with ⟨⟨contents, mode⟩, h⟩ | h | h
  · left
    rw [h, stagedMode, h]
    refine ⟨?_, fun hloop ↦ by cases hloop⟩
    cases contents <;> exact ⟨_, rfl⟩
  · left
    rw [h, stagedMode, h]
    exact ⟨⟨_, rfl⟩, fun hloop ↦ by cases hloop⟩
  · right
    rw [h, stagedMode, h]
    exact ⟨rfl, rfl⟩

/-- A call on paths without an entry takes the first of them, or fails. -/
theorem firstUnused_cases
    {call : FilePath → FileSystem FilePath → Except FileError (FileSystem FilePath)}
    {after : FilePath → FileSystem FilePath} {fails : Bool} (paths : List FilePath)
    (hfails : fails = true → ∀ path after, call path files ≠ .ok after)
    (hused : fails = false → ∀ path, files path ≠ none → call path files = .error .alreadyExists)
    (hfree : fails = false → ∀ path, files path = none → call path files = .ok (after path)) :
    (∃ error, firstUnused call files paths = .error error ∧
        (fails = true ∨ freePath files [] paths = none)) ∨
      ∃ path, fails = false ∧ freePath files [] paths = some path ∧
        firstUnused call files paths = .ok (path, after path) := by
  cases fails with
  | true =>
    obtain ⟨error, hrun⟩ := firstUnused_of_fails (hfails rfl)
    exact .inl ⟨error, hrun, .inl rfl⟩
  | false =>
    have hpath : freePath files [] paths = paths.find? fun path ↦ (files path).isNone := by
      rw [freePath]
      congr 1
      funext path
      rw [List.contains_nil, Bool.not_false, Bool.and_true]
    rw [firstUnused_eq_find? (hused rfl) (hfree rfl), hpath]
    cases paths.find? fun path ↦ (files path).isNone with
    | none => exact .inl ⟨_, rfl, .inr rfl⟩
    | some path => exact .inr ⟨path, rfl, rfl, rfl⟩

/-- An empty file is created at the first unused path. -/
theorem create_cases (fails : Bool) (files : FileSystem FilePath) (paths : List FilePath) :
    (∃ error, firstUnused (fun path ↦ attempt fails (createNew path 0o600)) files paths =
        .error error ∧ (fails = true ∨ freePath files [] paths = none)) ∨
      ∃ staged, fails = false ∧ freePath files [] paths = some staged ∧
        firstUnused (fun path ↦ attempt fails (createNew path 0o600)) files paths =
          .ok (staged, Function.update files staged (some ⟨.text "", 0o600⟩)) := by
  apply @firstUnused_cases _ _ (fun path ↦ Function.update files path (some ⟨.text "", 0o600⟩))
  · rintro rfl path after h
    cases h
  · rintro rfl path hpath
    obtain ⟨entry, hentry⟩ := Option.ne_none_iff_exists'.mp hpath
    rw [attempt_false, createNew, hentry]
  · rintro rfl path hpath
    rw [attempt_false, createNew, hpath]

/-- A path that gets an entry is taken. -/
theorem freePath_update (entry : FileEntry FilePath) (taken paths : List FilePath) :
    freePath (Function.update files staged (some entry)) taken paths =
      freePath files (staged :: taken) paths := by
  rw [freePath, freePath]
  congr 1
  funext path
  rw [List.contains_cons]
  by_cases h : path = staged
  · rw [h, Function.update_self, beq_self_eq_true, Bool.true_or, Bool.not_true, Bool.and_false]
    rfl
  · rw [Function.update_of_ne h, beq_false_of_ne h, Bool.false_or]

theorem freePath_mem {taken paths : List FilePath} (h : freePath files taken paths = some staged) :
    staged ∈ paths ∧ files staged = none ∧ staged ∉ taken := by
  have hfound := List.find?_some h
  rw [Bool.and_eq_true, Option.isNone_iff_eq_none, Bool.not_eq_true', List.contains_eq_mem,
    decide_eq_false_iff_not] at hfound
  exact ⟨List.mem_of_find?_eq_some h, hfound.1, hfound.2⟩

/-- What dropping a staged file leaves. -/
theorem drop_update_apply (fails : Bool) (entry : FileEntry FilePath) {path : FilePath}
    (h : path ≠ staged) :
    drop fails staged (Function.update files staged (some entry)) path = files path := by
  rw [drop_apply_of_ne fails h, Function.update_of_ne h]

/-- A staging leaves the staged file, or a temporary file at most. -/
theorem stageFile_cases (fails : StagedCall → Bool) (names : List String) (target : FilePath)
    (contents : String) (files : FileSystem FilePath) :
    (∃ error after, stageFile fails names target contents files = (.error error, after) ∧
      (¬ CanStage fails target files ∨ freePath files [] (stagedPaths names target) = none) ∧
      ∀ path ∉ stagedPaths names target, after path = files path) ∨
    ∃ staged mode, CanStage fails target files ∧
      freePath files [] (stagedPaths names target) = some staged ∧
      stageFile fails names target contents files =
        (.ok staged, Function.update files staged (some ⟨.text contents, mode⟩)) := by
  rcases create_cases (fails .create) files (stagedPaths names target) with
    ⟨error, hcreate, hreason⟩ | ⟨staged, hcall, hfree, hcreate⟩
  · left
    refine ⟨error, files, ?_, ?_, fun _ _ ↦ rfl⟩
    · rw [stageFile, hcreate]
    · apply hreason.imp_left
      intro hcall hstage
      rw [hstage.calls .create (by decide)] at hcall
      exact Bool.false_ne_true hcall
  obtain ⟨hmem, habsent, -⟩ := freePath_mem hfree
  -- A call that fails after the creation leaves what dropping the staged file leaves.
  have hdropped (entry : FileEntry FilePath) :
      ∀ path ∉ stagedPaths names target,
        drop (fails .drop) staged (Function.update files staged (some entry)) path = files path :=
    fun path hpath ↦ drop_update_apply _ _ fun h ↦ hpath (h ▸ hmem)
  have hnot (call : StagedCall) (hcall : fails call = true)
      (hmem : call ∈ [StagedCall.create, .write, .metadata, .setPermissions]) :
      ¬ CanStage fails target files := by
    intro hstage
    rw [hstage.calls call hmem] at hcall
    exact Bool.false_ne_true hcall
  have halter (change : FileEntry FilePath → FileEntry FilePath) (entry : FileEntry FilePath) :
      alter staged change (Function.update files staged (some entry)) =
        .ok (Function.update files staged (some (change entry))) := by
    rw [alter, Function.update_self]
    dsimp only
    rw [Function.update_idem]
  rw [stageFile, hcreate]
  dsimp only
  cases hwrite : fails .write with
  | true =>
    exact .inl ⟨_, _, rfl, .inl (hnot _ hwrite (by decide)), hdropped _⟩
  | false =>
    rw [attempt_false, halter]
    dsimp only
    cases hmetadata : fails .metadata with
    | true =>
      exact .inl ⟨_, _, rfl, .inl (hnot _ hmetadata (by decide)), hdropped _⟩
    | false =>
      rw [if_neg Bool.false_ne_true]
      rcases stagedMode_cases target (Function.update files staged (some ⟨.text contents, 0o600⟩))
        with ⟨⟨mode, hmode⟩, hlinks⟩ | ⟨hmode, hlinks⟩
      · rw [hmode]
        rw [Ne, follow_update_eq_loop_iff habsent rfl] at hlinks
        dsimp only
        cases hset : fails .setPermissions with
        | true =>
          exact .inl ⟨_, _, rfl, .inl (hnot _ hset (by decide)), hdropped _⟩
        | false =>
          rw [attempt_false, halter]
          refine .inr ⟨staged, mode, ⟨?_, hlinks⟩, hfree, rfl⟩
          simp only [List.forall_mem_cons, List.not_mem_nil, false_imp_iff, implies_true, and_true]
          exact ⟨hcall, hwrite, hmetadata, hset⟩
      · rw [hmode]
        rw [follow_update_eq_loop_iff habsent rfl] at hlinks
        exact .inl ⟨_, _, rfl, .inl fun hstage ↦ hstage.links hlinks, hdropped _⟩

end

/-! ## Replacing -/

/-- `move_to_unused_path`, `dockerfile_generator.rs:174–181`. -/
def moveToUnusedPath (fails : Bool) (source destination : FilePath)
    (files : FileSystem FilePath) : Except FileError (FileSystem FilePath) :=
  if (files destination).isSome then .error .alreadyExists
  else attempt fails (rename source destination) files

/-- `Path::is_file`. -/
def isFile (path : FilePath) (files : FileSystem FilePath) : Bool :=
  match follow 40 path files with
  | .ok ⟨.text _, _⟩ => true
  | _ => false

/-- The targets and the files staged for them. -/
structure Replacement where
  configPath : FilePath
  dockerfilePath : FilePath
  stagedConfig : FilePath
  stagedDockerfile : FilePath

namespace Replacement

variable (fails : ProjectCall → Bool) (r : Replacement)

/-- Both staged files go out of scope. -/
def dropStaged (files : FileSystem FilePath) : FileSystem FilePath :=
  drop (fails (.config .drop)) r.stagedConfig
    (drop (fails (.dockerfile .drop)) r.stagedDockerfile files)

/-- `replaced`, `dockerfile_generator.rs:147–155`. The Dockerfile goes first. -/
def replaced (files : FileSystem FilePath) : Except FileError Unit × FileSystem FilePath :=
  match attempt (fails (.dockerfile .persist)) (rename r.stagedDockerfile r.dockerfilePath)
      files with
  | .error error => (.error error, r.dropStaged fails files)
  | .ok files =>
    match attempt (fails (.config .persist)) (rename r.stagedConfig r.configPath) files with
    | .error error => (.error error, drop (fails (.config .drop)) r.stagedConfig files)
    | .ok files => (.ok (), files)

/-- The undoing, `dockerfile_generator.rs:157–161`. -/
def restore (backup : Option FilePath) (files : FileSystem FilePath) :
    Except FileError (FileSystem FilePath) :=
  match backup with
  | some backup => attempt (fails .moveBack) (rename backup r.dockerfilePath) files
  | none =>
    if isFile r.dockerfilePath files then attempt (fails .removeFile) (remove r.dockerfilePath)
      files
    else .ok files

/-- The backup goes out of scope. -/
def dropBackup (backup : Option FilePath) (files : FileSystem FilePath) : FileSystem FilePath :=
  match backup with
  | some backup => drop (fails .dropBackup) backup files
  | none => files

/-- What follows the move of the old Dockerfile, `dockerfile_generator.rs:147–165`. -/
def finish (backup : Option FilePath) (files : FileSystem FilePath) :
    Except FileError Unit × FileSystem FilePath :=
  match r.replaced fails files with
  | (.ok _, files) => (.ok (), dropBackup fails backup files)
  | (.error error, files) =>
    match r.restore fails backup files with
    | .ok files => (.error error, dropBackup fails backup files)
    | .error error => (.error error, dropBackup fails backup files)

/-- What follows the staging, `dockerfile_generator.rs:118–165`. -/
def run (names : List String) (files : FileSystem FilePath) :
    Except FileError Unit × FileSystem FilePath :=
  if fails .symlinkMetadata then (.error .other, r.dropStaged fails files)
  else
    match files r.dockerfilePath with
    | none => r.finish fails none files
    | some existing =>
      if existing.contents = .directory then
        (.error (.invalidInput (r.dockerfilePath.parent ++ "/" ++ r.dockerfilePath.name ++
          " is a directory, not a Dockerfile")), r.dropStaged fails files)
      else
        match firstUnused (moveToUnusedPath (fails .moveAside) r.dockerfilePath) files
            (backupPaths names r.dockerfilePath) with
        | .error error => (.error error, r.dropStaged fails files)
        | .ok (backup, files) => r.finish fails (some backup) files

end Replacement

/-- `write_project_files`, `dockerfile_generator.rs:105–166`. -/
def writeProjectFiles (fails : ProjectCall → Bool) (names : TemporaryNames)
    (configPath : FilePath) (config : String) (dockerfile : Option (FilePath × String))
    (files : FileSystem FilePath) : Except FileError Unit × FileSystem FilePath :=
  match stageFile (fun call ↦ fails (.config call)) names.config configPath config files with
  | (.error error, files) => (.error error, files)
  | (.ok stagedConfig, files) =>
    match dockerfile with
    | none =>
      match attempt (fails (.config .persist)) (rename stagedConfig configPath) files with
      | .error error => (.error error, drop (fails (.config .drop)) stagedConfig files)
      | .ok files => (.ok (), files)
    | some (dockerfilePath, contents) =>
      match stageFile (fun call ↦ fails (.dockerfile call)) names.dockerfile dockerfilePath contents
          files with
      | (.error error, files) => (.error error, drop (fails (.config .drop)) stagedConfig files)
      | (.ok stagedDockerfile, files) =>
        Replacement.run fails ⟨configPath, dockerfilePath, stagedConfig, stagedDockerfile⟩
          names.backup files

/-- Temporary names begin with a dot. -/
theorem not_mem_beside {path target : FilePath} {start : String}
    (hstart : start.toList.head? = some '.') (hname : path.name.toList.head? ≠ some '.')
    (names : List String) : path ∉ names.map (target.beside start) := by
  intro hmem
  obtain ⟨random, -, rfl⟩ := List.mem_map.mp hmem
  apply hname
  rw [FilePath.beside, String.toList_append, List.head?_append, hstart]
  rfl

end ReinhardtCloud.Cli

import Mathlib.Logic.Function.Basic
import ReinhardtCloud.Base.HostNames
import ReinhardtCloud.Base.Pool

/-!
# Saved credentials

Library `Cli`. The bearer token between commands: `main`
(`crates/reinhardt-cloud-cli/src/main.rs:85–110`), `login` (`commands/login.rs:26–70`), the client
(`client.rs:67–151`) and the credentials file (`config.rs:60–80` and `107–223`). Any number of
commands run at once on one machine and may be killed; each use of the file system and each request
is a step. `parse` is `Url::parse` with `as_str`; a file that was written whole is read back.
-/

namespace ReinhardtCloud.Cli

open ReinhardtCloud.Base

/-! ## Files and clients -/

/-- `Credentials`, `config.rs:50–58`. -/
structure SavedCredentials where
  token : String
  username : String
  apiUrl : Option String
  deriving DecidableEq

/-- A file of the credentials directory: its permissions, and what it reads as once it was written
whole. -/
structure CredentialsFile where
  mode : Nat
  contents : Option SavedCredentials
  deriving DecidableEq

/-- A token, and whether it was read from the credentials file. -/
structure BearerToken where
  text : String
  saved : Bool
  deriving DecidableEq

/-- `ReinhardtCloudClient`, `client.rs:68–73`, with the text of `base_url()`. -/
structure CloudClient where
  baseUrl : String
  token : Option BearerToken
  deriving DecidableEq

/-- A request with a bearer token. -/
structure BearerRequest where
  baseUrl : String
  path : String
  token : BearerToken
  deriving DecidableEq

/-- The commands, as far as they use the client. -/
inductive CloudCommand where
  | login (token : Option String)
  | deploy
  | other
  deriving DecidableEq

/-- What a command is started with: its options, `config.toml`, the environment and what is typed
at the prompt. -/
structure Invocation where
  command : CloudCommand
  server : Option String
  configUrl : Option String
  envUrl : Option String
  envToken : Option String
  typed : String
  deriving DecidableEq

/-- `CREDENTIALS_DIR_MODE`. -/
def credentialsDirMode : Nat := 0o700

/-- `CREDENTIALS_FILE_MODE`. -/
def credentialsFileMode : Nat := 0o600

/-- The directory and the file of credentials, and the temporary files. `accepted` and `requests`
are the tokens that a control plane accepted and all requests: history only, no step reads them. -/
structure CredentialsDisk where
  dir : Option Nat
  file : Option CredentialsFile
  temps : Nat → Option CredentialsFile
  nextTemp : Nat
  accepted : List (String × String)
  requests : List BearerRequest

/-- Write or drop a temporary file. -/
def CredentialsDisk.setTemp (disk : CredentialsDisk) (temp : Nat) (file : Option CredentialsFile) :
    CredentialsDisk :=
  { disk with temps := Function.update disk.temps temp file }

theorem CredentialsDisk.temps_setTemp (disk : CredentialsDisk) (temp other : Nat)
    (file : Option CredentialsFile) :
    (disk.setTemp temp file).temps other = if other = temp then file else disk.temps other :=
  Function.update_apply ..

section Parse

variable (parse : String → Option String)

/-- `canonical_api_url`, `config.rs:76–80`. -/
def canonicalApiUrl (apiUrl : String) : Option String := (parse apiUrl).map (trimEndMatches '/')

/-- `Credentials::is_scoped_to`, `config.rs:60–69`. -/
def SavedCredentials.isScopedTo (creds : SavedCredentials) (selected : String) : Bool :=
  creds.apiUrl.any fun stored ↦ canonicalApiUrl parse stored = canonicalApiUrl parse selected

/-- The saved token, where it is scoped to the URL. -/
def scopedToken (disk : CredentialsDisk) (selected : String) : Option BearerToken :=
  ((disk.file.bind (·.contents)).filter (·.isScopedTo parse selected)).map fun creds ↦
    ⟨creds.token, true⟩

/-- `resolve_token`, `config.rs:203–223`. -/
def resolveToken (disk : CredentialsDisk) (flag env : Option String) (selected : String) :
    Option BearerToken :=
  match flag.filter (· ≠ ""), env.filter (· ≠ "") with
  | some token, _ => some ⟨token, false⟩
  | none, some token => some ⟨token, false⟩
  | none, none => scopedToken parse disk selected

/-- `resolve_login_token`, `login.rs:52–70`: `typed` is trimmed already. -/
def resolveLoginToken (disk : CredentialsDisk) (flag env : Option String)
    (typed selected : String) :
    BearerToken :=
  ((resolveToken parse disk flag env selected).filter (·.text ≠ "")).getD ⟨typed, false⟩

/-- The URL of the control plane, `main.rs:85–86` with `CliConfig::api_url`, `config.rs:40–46`. -/
def Invocation.url (invocation : Invocation) : String :=
  invocation.server.getD ((invocation.configUrl <|> invocation.envUrl).getD "http://localhost:8000")

/-- The client of `main.rs:87–107`: absent for a URL that is none. -/
def mainClient (disk : CredentialsDisk) (invocation : Invocation) : Option CloudClient :=
  (parse invocation.url).map fun url ↦
    ⟨trimEndMatches '/' url, scopedToken parse disk (trimEndMatches '/' url)⟩

end Parse

/-! ## Commands -/

/-- The steps of `save_token`, `config.rs:131–185`, each with what it works on. -/
inductive SaveStep where
  | createDir
  | restrictDir
  | createTemp
  | restrictTemp (temp : Nat)
  | writeTemp (temp : Nat)
  | persist (temp : Nat)
  | restrictFile
  deriving DecidableEq

/-- Where a command is. -/
inductive CommandPhase where
  | started
  | loaded (client : CloudClient)
  | ready (client : CloudClient)
  | sent (client : CloudClient) (token : BearerToken)
  | saving (creds : SavedCredentials) (next : SaveStep)
  | ended
  deriving DecidableEq

/-- A command that runs. -/
structure CloudProcess where
  invocation : Invocation
  phase : CommandPhase
  deriving DecidableEq

/-- What a step depends on beside the disk: the answer to a request, or whether the step works and
which permissions the system gives a new file. -/
inductive StepOutcome where
  | answered (username : Option String)
  | works (mode : Nat)
  | fails
  deriving DecidableEq

/-- One step of `save_token`: the disk after it and the step to take next. A failure drops the
temporary file. -/
def saveStep (disk : CredentialsDisk) (creds : SavedCredentials) :
    SaveStep → StepOutcome → Option (CredentialsDisk × Option SaveStep)
  | .createDir, .works mode => some ({ disk with dir := disk.dir.or (some mode) },
      some .restrictDir)
  | .restrictDir, .works _ => some ({ disk with dir := some credentialsDirMode }, some .createTemp)
  | .createTemp, .works mode =>
    some ({ disk.setTemp disk.nextTemp (some ⟨mode, none⟩) with nextTemp := disk.nextTemp + 1 },
      some (.restrictTemp disk.nextTemp))
  | .restrictTemp temp, .works _ =>
    some (disk.setTemp temp ((disk.temps temp).map ({ · with mode := credentialsFileMode })),
      some (.writeTemp temp))
  | .writeTemp temp, .works _ =>
    some (disk.setTemp temp ((disk.temps temp).map ({ · with contents := some creds })),
      some (.persist temp))
  | .persist temp, .works _ =>
    some ({ disk.setTemp temp none with file := disk.temps temp }, some .restrictFile)
  | .restrictFile, .works _ =>
    some ({ disk with file := disk.file.map ({ · with mode := credentialsFileMode }) }, none)
  | .restrictTemp temp, .fails | .writeTemp temp, .fails | .persist temp, .fails =>
    some (disk.setTemp temp none, none)
  | _, .fails => some (disk, none)
  | _, .answered _ => none

/-- One step of a command. -/
def commandStep (parse : String → Option String) (disk : CredentialsDisk) (process : CloudProcess)
    (outcome : StepOutcome) : Option (CredentialsDisk × CloudProcess) :=
  match process.phase with
  | .started => some (disk, { process with
      phase := (mainClient parse disk process.invocation).elim .ended .loaded })
  | .loaded client =>
    match process.invocation.command with
    | .login flag => some (disk, { process with
        phase := .ready { client with
          token := some (resolveLoginToken parse disk flag process.invocation.envToken
            process.invocation.typed client.baseUrl) } })
    | .deploy => some (disk, { process with phase := .ready client })
    | .other => some (disk, { process with phase := .ended })
  | .ready client =>
    match client.token with
    | none => some (disk, { process with phase := .ended })
    | some token => some ({ disk with
        requests := disk.requests ++ [⟨client.baseUrl,
          if process.invocation.command = .deploy then "/api/deployments/cli/" else "/api/auth/me/",
          token⟩] }, { process with phase := .sent client token })
  | .sent client token =>
    match process.invocation.command, outcome with
    | .login _, .answered (some username) => some ({ disk with
        accepted := disk.accepted ++ [(client.baseUrl, token.text)] }, { process with
        phase := .saving ⟨token.text, username, some client.baseUrl⟩ .createDir })
    | _, _ => some (disk, { process with phase := .ended })
  | .saving creds next =>
    (saveStep disk creds next outcome).map fun r ↦
      (r.1, { process with phase := r.2.elim .ended (.saving creds) })
  | .ended => none

/-- The user removes the credentials file. -/
def removeCredentials (disk : CredentialsDisk) (_ : Unit) : Option CredentialsDisk :=
  some { disk with file := none }

/-- The commands of a machine. -/
abbrev Machine := Pool CredentialsDisk CloudProcess

/-- One step of the machine; a command is killed by `cancel`. -/
def machineStep (parse : String → Option String) (s : Machine) :
    PoolAction Invocation StepOutcome Unit → Option Machine :=
  Pool.step (fun invocation ↦ ⟨invocation, .started⟩) (commandStep parse) removeCredentials s

/-- The disk before the first command: the directory may be there, and a file of an earlier
version. -/
def CredentialsDisk.before (dir : Option Nat) (legacy : Option CredentialsFile) : CredentialsDisk :=
  ⟨dir, legacy, fun _ ↦ none, 0, [], []⟩

/-! ## What each step keeps -/

/-- A file with a token that is scoped to a URL: the control plane there has accepted the token, and
only its user can read the file. -/
def CredentialsFile.Safe (disk : CredentialsDisk) (file : CredentialsFile) : Prop :=
  ∀ creds base, file.contents = some creds → creds.apiUrl = some base →
    (base, creds.token) ∈ disk.accepted ∧ file.mode = credentialsFileMode ∧
      disk.dir = some credentialsDirMode

/-- What holds of the disk. -/
structure DiskSound (legacy : Option CredentialsFile) (disk : CredentialsDisk) : Prop where
  file : ∀ file, disk.file = some file → file.Safe disk
  whole : ∀ file, disk.file = some file → file.contents = none →
    ∃ old, legacy = some old ∧ old.contents = none
  temps : ∀ temp file, disk.temps temp = some file → file.Safe disk

/-- The token that a client took from the file was accepted at its URL. -/
structure ClientSound (parse : String → Option String) (disk : CredentialsDisk)
    (client : CloudClient) : Prop where
  parses : (canonicalApiUrl parse client.baseUrl).isSome
  accepted : ∀ token, client.token = some token → token.saved = true →
    ∃ base, (base, token.text) ∈ disk.accepted ∧
      canonicalApiUrl parse base = canonicalApiUrl parse client.baseUrl

/-- The temporary file of a save. -/
def SaveStep.temp : SaveStep → Option Nat
  | .restrictTemp temp | .writeTemp temp | .persist temp => some temp
  | .createDir | .restrictDir | .createTemp | .restrictFile => none

/-- The temporary file of a command. -/
def CloudProcess.temp (process : CloudProcess) : Option Nat :=
  match process.phase with
  | .saving _ next => next.temp
  | _ => none

/-- What the steps of a save that are done have left. -/
def SaveStep.Sound (disk : CredentialsDisk) : SaveStep → Prop
  | .createDir | .restrictDir | .restrictFile => True
  | .createTemp => disk.dir = some credentialsDirMode
  | .restrictTemp temp => disk.dir = some credentialsDirMode ∧
      ∃ mode, disk.temps temp = some ⟨mode, none⟩
  | .writeTemp temp => disk.dir = some credentialsDirMode ∧
      disk.temps temp = some ⟨credentialsFileMode, none⟩
  | .persist temp => ∃ file, disk.temps temp = some file ∧ file.contents ≠ none

/-- What holds of a command beside the disk. -/
def ProcessSound (parse : String → Option String) (disk : CredentialsDisk)
    (process : CloudProcess) : Prop :=
  match process.phase with
  | .loaded client | .ready client => ClientSound parse disk client
  | .saving creds next => (∀ base, creds.apiUrl = some base → (base, creds.token) ∈ disk.accepted) ∧
      next.Sound disk ∧ ∀ temp, next.temp = some temp → temp < disk.nextTemp
  | .started | .sent _ _ | .ended => True

/-- What a step of a command leaves to the others. -/
structure Leaves (own : Option Nat) (disk disk' : CredentialsDisk) : Prop where
  accepted : disk.accepted ⊆ disk'.accepted
  dir : disk.dir = some credentialsDirMode → disk'.dir = some credentialsDirMode
  next : disk.nextTemp ≤ disk'.nextTemp
  temps : ∀ temp, temp < disk.nextTemp → own ≠ some temp → disk'.temps temp = disk.temps temp

theorem Leaves.refl (own : Option Nat) (disk : CredentialsDisk) : Leaves own disk disk :=
  ⟨fun _ h ↦ h, id, Nat.le_refl _, fun _ _ _ ↦ rfl⟩

section Keep

variable {parse : String → Option String} {legacy : Option CredentialsFile}
  {disk disk' : CredentialsDisk} {own : Option Nat}

theorem CredentialsFile.Safe.mono {file : CredentialsFile} (h : file.Safe disk)
    (hleaves : Leaves own disk disk') : file.Safe disk' := by
  intro creds base hcontents hbase
  obtain ⟨haccepted, hmode, hdir⟩ := h creds base hcontents hbase
  exact ⟨hleaves.accepted haccepted, hmode, hleaves.dir hdir⟩

theorem ClientSound.mono {client : CloudClient} (h : ClientSound parse disk client)
    (hleaves : Leaves own disk disk') : ClientSound parse disk' client where
  parses := h.parses
  accepted token htoken hsaved := by
    obtain ⟨base, haccepted, hsame⟩ := h.accepted token htoken hsaved
    exact ⟨base, hleaves.accepted haccepted, hsame⟩

/-- Another command keeps what holds of this one. -/
theorem ProcessSound.mono {process : CloudProcess} (h : ProcessSound parse disk process)
    (hleaves : Leaves own disk disk') (hown : ∀ temp, process.temp = some temp → own ≠ some temp) :
    ProcessSound parse disk' process := by
  obtain ⟨invocation, phase⟩ := process
  cases phase with
  | started => trivial
  | sent client token => trivial
  | ended => trivial
  | loaded client => exact ClientSound.mono h hleaves
  | ready client => exact ClientSound.mono h hleaves
  | saving creds next =>
    obtain ⟨haccepted, hnext, hbound⟩ := h
    refine ⟨fun base hbase ↦ hleaves.accepted (haccepted base hbase), ?_,
      fun temp htemp ↦ Nat.lt_of_lt_of_le (hbound temp htemp) hleaves.next⟩
    have hsame (temp : Nat) (htemp : next.temp = some temp) :
        disk'.temps temp = disk.temps temp :=
      hleaves.temps temp (hbound temp htemp) (hown temp htemp)
    cases next with
    | createDir => trivial
    | restrictDir => trivial
    | restrictFile => trivial
    | createTemp => exact hleaves.dir hnext
    | restrictTemp temp =>
      obtain ⟨hdir, mode, hfile⟩ := hnext
      exact ⟨hleaves.dir hdir, mode, by rw [hsame temp rfl, hfile]⟩
    | writeTemp temp => exact ⟨hleaves.dir hnext.1, by rw [hsame temp rfl, hnext.2]⟩
    | persist temp =>
      obtain ⟨file, hfile, hwhole⟩ := hnext
      exact ⟨file, by rw [hsame temp rfl, hfile], hwhole⟩

/-- The token of the file, as scoped to a URL that parses, was accepted there. -/
theorem accepted_of_scopedToken (hdisk : DiskSound legacy disk) {selected : String}
    {token : BearerToken} (h : scopedToken parse disk selected = some token) :
    ∃ base, (base, token.text) ∈ disk.accepted ∧
      canonicalApiUrl parse base = canonicalApiUrl parse selected := by
  obtain ⟨creds, hcreds, rfl⟩ := Option.map_eq_some_iff.mp h
  obtain ⟨hread, hscoped⟩ := Option.filter_eq_some_iff.mp hcreds
  obtain ⟨file, hfile, hcontents⟩ := Option.bind_eq_some_iff.mp hread
  rw [SavedCredentials.isScopedTo] at hscoped
  cases hurl : creds.apiUrl with
  | none =>
    rw [hurl] at hscoped
    cases hscoped
  | some base =>
    rw [hurl] at hscoped
    exact ⟨base, (hdisk.file file hfile creds base hcontents hurl).1, of_decide_eq_true hscoped⟩

theorem clientSound_mainClient (hdisk : DiskSound legacy disk)
    (hparse : ∀ apiUrl url, parse apiUrl = some url → (parse (trimEndMatches '/' url)).isSome)
    {invocation : Invocation} {client : CloudClient}
    (h : mainClient parse disk invocation = some client) : ClientSound parse disk client := by
  obtain ⟨url, hurl, rfl⟩ := Option.map_eq_some_iff.mp h
  refine ⟨?_, fun token htoken _ ↦ accepted_of_scopedToken hdisk htoken⟩
  rw [canonicalApiUrl, Option.isSome_map]
  exact hparse _ _ hurl

theorem clientSound_login (hdisk : DiskSound legacy disk) {client : CloudClient}
    (h : ClientSound parse disk client) (flag env : Option String) (typed : String) :
    ClientSound parse disk { client with
      token := some (resolveLoginToken parse disk flag env typed client.baseUrl) } := by
  refine ⟨h.parses, ?_⟩
  intro token htoken hsaved
  obtain rfl := Option.some.inj htoken
  rw [resolveLoginToken] at hsaved ⊢
  cases hresolved : (resolveToken parse disk flag env client.baseUrl).filter (·.text ≠ "") with
  | none =>
    rw [hresolved] at hsaved
    cases hsaved
  | some token =>
    rw [hresolved] at hsaved
    have hfound := (Option.filter_eq_some_iff.mp hresolved).1
    rw [resolveToken] at hfound
    split at hfound
    · obtain rfl := Option.some.inj hfound
      cases hsaved
    · obtain rfl := Option.some.inj hfound
      cases hsaved
    · exact accepted_of_scopedToken hdisk hfound

/-! ## The steps of a save -/

theorem leaves_setTemp {temp : Nat} {file : Option CredentialsFile} :
    Leaves (some temp) disk (disk.setTemp temp file) where
  accepted _ h := h
  dir := id
  next := Nat.le_refl _
  temps _ _ hother := Function.update_of_ne (fun h ↦ hother (congrArg some h.symm)) _ _

/-- A temporary file that is written anew. -/
theorem DiskSound.setTemp (hdisk : DiskSound legacy disk) (temp : Nat)
    {entry : Option CredentialsFile} (hentry : ∀ file, entry = some file → file.Safe disk) :
    DiskSound legacy (disk.setTemp temp entry) where
  file := hdisk.file
  whole := hdisk.whole
  temps other file hfile := by
    rw [CredentialsDisk.temps_setTemp] at hfile
    split at hfile
    · exact hentry file hfile
    · exact hdisk.temps other file hfile

/-- What a step of a save has done. -/
structure SaveDone (legacy : Option CredentialsFile) (disk disk' : CredentialsDisk)
    (own : Option Nat) (next : Option SaveStep) : Prop where
  sound : DiskSound legacy disk'
  leaves : Leaves own disk disk'
  requests : disk'.requests = disk.requests
  next : ∀ step, next = some step → step.Sound disk' ∧
    ∀ temp, step.temp = some temp → temp < disk'.nextTemp ∧
      (own = some temp ∨ temp = disk.nextTemp)

theorem saveDone_of_fails {creds : SavedCredentials} {step : SaveStep} {next : Option SaveStep}
    (hdisk : DiskSound legacy disk) (h : saveStep disk creds step .fails = some (disk', next)) :
    SaveDone legacy disk disk' step.temp next := by
  have hkeep : SaveDone legacy disk disk step.temp none :=
    ⟨hdisk, .refl _ _, rfl, fun _ hstep ↦ by cases hstep⟩
  have hdrop (temp : Nat) : SaveDone legacy disk (disk.setTemp temp none) (some temp) none :=
    ⟨hdisk.setTemp temp (fun _ hfile ↦ by cases hfile), leaves_setTemp, rfl,
      fun _ hstep ↦ by cases hstep⟩
  cases step with
  | restrictTemp temp =>
    cases h
    exact hdrop temp
  | writeTemp temp =>
    cases h
    exact hdrop temp
  | persist temp =>
    cases h
    exact hdrop temp
  | _ =>
    cases h
    exact hkeep

theorem saveDone_of_works {creds : SavedCredentials} {step : SaveStep} {mode : Nat}
    {next : Option SaveStep} (hdisk : DiskSound legacy disk)
    (haccepted : ∀ base, creds.apiUrl = some base → (base, creds.token) ∈ disk.accepted)
    (hsound : step.Sound disk) (hbound : ∀ temp, step.temp = some temp → temp < disk.nextTemp)
    (h : saveStep disk creds step (.works mode) = some (disk', next)) :
    SaveDone legacy disk disk' step.temp next := by
  cases step with
  | createDir =>
    cases h
    have hleaves : Leaves none disk { disk with dir := disk.dir.or (some mode) } := by
      refine ⟨fun _ hmem ↦ hmem, ?_, Nat.le_refl _, fun _ _ _ ↦ rfl⟩
      intro hdir
      show disk.dir.or _ = _
      rw [hdir, Option.some_or]
    refine ⟨⟨fun file hfile ↦ (hdisk.file file hfile).mono hleaves, hdisk.whole,
      fun temp file hfile ↦ (hdisk.temps temp file hfile).mono hleaves⟩, hleaves, rfl, ?_⟩
    intro step hstep
    cases hstep
    exact ⟨trivial, fun temp htemp ↦ by cases htemp⟩
  | restrictDir =>
    cases h
    have hleaves : Leaves none disk { disk with dir := some credentialsDirMode } :=
      ⟨fun _ hmem ↦ hmem, fun _ ↦ rfl, Nat.le_refl _, fun _ _ _ ↦ rfl⟩
    refine ⟨⟨fun file hfile ↦ (hdisk.file file hfile).mono hleaves, hdisk.whole,
      fun temp file hfile ↦ (hdisk.temps temp file hfile).mono hleaves⟩, hleaves, rfl, ?_⟩
    intro step hstep
    cases hstep
    exact ⟨rfl, fun temp htemp ↦ by cases htemp⟩
  | createTemp =>
    cases h
    have hempty : ∀ file, some (CredentialsFile.mk mode none) = some file → file.Safe disk := by
      intro file hfile creds base hcontents
      obtain rfl := Option.some.inj hfile
      cases hcontents
    have hset := hdisk.setTemp disk.nextTemp hempty
    refine ⟨⟨hset.file, hset.whole, hset.temps⟩, ⟨fun _ hmem ↦ hmem, id, Nat.le_succ _, ?_⟩, rfl,
      ?_⟩
    · intro temp htemp _
      exact Function.update_of_ne (Nat.ne_of_lt htemp) _ _
    · intro step hstep
      cases hstep
      refine ⟨⟨hsound, mode, Function.update_self _ _ _⟩, ?_⟩
      intro temp htemp
      cases htemp
      exact ⟨Nat.lt_succ_self _, .inr rfl⟩
  | restrictTemp temp =>
    cases h
    obtain ⟨hdir, mode', hfile⟩ := hsound
    rw [hfile]
    refine ⟨hdisk.setTemp temp ?_, leaves_setTemp, rfl, ?_⟩
    · intro file hsome creds base hcontents
      obtain rfl := Option.some.inj hsome
      cases hcontents
    · intro step hstep
      cases hstep
      refine ⟨⟨hdir, Function.update_self _ _ _⟩, ?_⟩
      intro other hother
      cases hother
      exact ⟨hbound temp rfl, .inl rfl⟩
  | writeTemp temp =>
    cases h
    obtain ⟨hdir, hfile⟩ := hsound
    rw [hfile]
    refine ⟨hdisk.setTemp temp ?_, leaves_setTemp, rfl, ?_⟩
    · intro file hsome creds' base hcontents hbase
      obtain rfl := Option.some.inj hsome
      obtain rfl := Option.some.inj hcontents
      exact ⟨haccepted base hbase, rfl, hdir⟩
    · intro step hstep
      cases hstep
      refine ⟨⟨_, Function.update_self _ _ _, Option.some_ne_none creds⟩, ?_⟩
      intro other hother
      cases hother
      exact ⟨hbound temp rfl, .inl rfl⟩
  | persist temp =>
    cases h
    obtain ⟨file, hfile, hwhole⟩ := hsound
    have hset : DiskSound legacy (disk.setTemp temp none) :=
      hdisk.setTemp temp fun _ hnone ↦ by cases hnone
    rw [hfile]
    refine ⟨⟨?_, ?_, hset.temps⟩, ⟨fun _ hmem ↦ hmem, id, Nat.le_refl _, leaves_setTemp.temps⟩, rfl,
      ?_⟩
    · intro file' hsome
      obtain rfl := Option.some.inj hsome
      exact hdisk.temps temp file hfile
    · intro file' hsome hnone
      obtain rfl := Option.some.inj hsome
      exact absurd hnone hwhole
    · intro step hstep
      cases hstep
      exact ⟨trivial, fun temp htemp ↦ by cases htemp⟩
  | restrictFile =>
    cases h
    refine ⟨⟨?_, ?_, hdisk.temps⟩, ⟨fun _ hmem ↦ hmem, id, Nat.le_refl _, fun _ _ _ ↦ rfl⟩, rfl,
      fun _ hstep ↦ by cases hstep⟩
    · intro file hfile creds base hcontents hbase
      obtain ⟨old, hold, rfl⟩ := Option.map_eq_some_iff.mp hfile
      obtain ⟨hmem, -, hdir⟩ := hdisk.file old hold creds base hcontents hbase
      exact ⟨hmem, rfl, hdir⟩
    · intro file hfile hnone
      obtain ⟨old, hold, rfl⟩ := Option.map_eq_some_iff.mp hfile
      exact hdisk.whole old hold hnone

theorem saveStep_done {creds : SavedCredentials} {step : SaveStep} {outcome : StepOutcome}
    {next : Option SaveStep} (hdisk : DiskSound legacy disk)
    (haccepted : ∀ base, creds.apiUrl = some base → (base, creds.token) ∈ disk.accepted)
    (hsound : step.Sound disk) (hbound : ∀ temp, step.temp = some temp → temp < disk.nextTemp)
    (h : saveStep disk creds step outcome = some (disk', next)) :
    SaveDone legacy disk disk' step.temp next := by
  cases outcome with
  | answered username => cases step <;> cases h
  | fails => exact saveDone_of_fails hdisk h
  | works mode => exact saveDone_of_works hdisk haccepted hsound hbound h

/-! ## The steps of a command -/

/-- What a step of a command has done. -/
structure CommandDone (parse : String → Option String) (legacy : Option CredentialsFile)
    (disk : CredentialsDisk) (process : CloudProcess) (disk' : CredentialsDisk)
    (process' : CloudProcess) : Prop where
  sound : DiskSound legacy disk'
  leaves : Leaves process.temp disk disk'
  runs : ProcessSound parse disk' process'
  temp : ∀ temp, process'.temp = some temp →
    process.temp = some temp ∨ temp = disk.nextTemp

/-- A step that leaves the disk. -/
theorem CommandDone.of_same {process process' : CloudProcess} (hdisk : DiskSound legacy disk)
    (hprocess : ProcessSound parse disk process') (htemp : process'.temp = none) :
    CommandDone parse legacy disk process disk process' where
  sound := hdisk
  leaves := .refl _ _
  runs := hprocess
  temp temp h := by rw [htemp] at h; cases h

/-- A step that only adds to the history. -/
theorem leaves_history (own : Option Nat) {accepted : List (String × String)}
    {requests : List BearerRequest} (h : disk.accepted ⊆ accepted) :
    Leaves own disk { disk with accepted := accepted, requests := requests } :=
  ⟨h, id, Nat.le_refl _, fun _ _ _ ↦ rfl⟩

theorem DiskSound.history {accepted : List (String × String)} {requests : List BearerRequest}
    (hdisk : DiskSound legacy disk) (h : disk.accepted ⊆ accepted) :
    DiskSound legacy { disk with accepted := accepted, requests := requests } where
  file file hfile := (hdisk.file file hfile).mono (leaves_history none h)
  whole := hdisk.whole
  temps temp file hfile := (hdisk.temps temp file hfile).mono (leaves_history none h)

theorem commandStep_done
    (hparse : ∀ apiUrl url, parse apiUrl = some url → (parse (trimEndMatches '/' url)).isSome)
    {process process' : CloudProcess} {outcome : StepOutcome} (hdisk : DiskSound legacy disk)
    (hprocess : ProcessSound parse disk process)
    (h : commandStep parse disk process outcome = some (disk', process')) :
    CommandDone parse legacy disk process disk' process' := by
  obtain ⟨invocation, phase⟩ := process
  cases phase with
  | started =>
    cases h
    cases hclient : mainClient parse disk invocation with
    | none => exact .of_same hdisk trivial rfl
    | some client => exact .of_same hdisk (clientSound_mainClient hdisk hparse hclient) rfl
  | loaded client =>
    obtain ⟨command, server, configUrl, envUrl, envToken, typed⟩ := invocation
    cases command with
    | login flag =>
      cases h
      exact .of_same hdisk (clientSound_login hdisk hprocess flag envToken typed) rfl
    | deploy =>
      cases h
      exact .of_same hdisk hprocess rfl
    | other =>
      cases h
      exact .of_same hdisk trivial rfl
  | ready client =>
    obtain ⟨baseUrl, token⟩ := client
    cases token with
    | none =>
      cases h
      exact .of_same hdisk trivial rfl
    | some token =>
      cases h
      exact ⟨hdisk.history fun _ hmem ↦ hmem, leaves_history _ fun _ hmem ↦ hmem, trivial,
        fun temp htemp ↦ by cases htemp⟩
  | sent client token =>
    have hended : CommandDone parse legacy disk ⟨invocation, .sent client token⟩ disk
        ⟨invocation, .ended⟩ := .of_same hdisk trivial rfl
    obtain ⟨command, server, configUrl, envUrl, envToken, typed⟩ := invocation
    cases command with
    | login flag =>
      cases outcome with
      | answered username =>
        cases username with
        | none =>
          cases h
          exact hended
        | some username =>
          cases h
          refine ⟨hdisk.history (List.subset_append_left _ _),
            leaves_history _ (List.subset_append_left _ _), ⟨?_, trivial, fun temp htemp ↦ ?_⟩,
            fun temp htemp ↦ ?_⟩
          · intro base hbase
            cases hbase
            exact List.mem_append_right _ List.mem_cons_self
          · cases htemp
          · cases htemp
      | works mode =>
        cases h
        exact hended
      | fails =>
        cases h
        exact hended
    | deploy =>
      cases h
      exact hended
    | other =>
      cases h
      exact hended
  | saving creds next =>
    obtain ⟨⟨disk'', after⟩, hsave, heq⟩ := Option.map_eq_some_iff.mp h
    cases heq
    obtain ⟨haccepted, hsound, hbound⟩ := hprocess
    have hdone := saveStep_done hdisk haccepted hsound hbound hsave
    cases after with
    | none => exact ⟨hdone.sound, hdone.leaves, trivial, fun temp htemp ↦ by cases htemp⟩
    | some step =>
      obtain ⟨hstep, htemps⟩ := hdone.next step rfl
      exact ⟨hdone.sound, hdone.leaves,
        ⟨fun base hbase ↦ hdone.leaves.accepted (haccepted base hbase), hstep,
          fun temp htemp ↦ (htemps temp htemp).1⟩, fun temp htemp ↦ (htemps temp htemp).2⟩
  | ended => cases h

/-! ## Runs -/

/-- Two commands have different temporary files. -/
def ApartFiles (p q : CloudProcess) : Prop := ∀ temp, p.temp = some temp → q.temp ≠ some temp

theorem ApartFiles.symm {p q : CloudProcess} (h : ApartFiles p q) : ApartFiles q p :=
  fun temp hq hp ↦ h temp hp hq

theorem ProcessSound.temp_lt {process : CloudProcess} (h : ProcessSound parse disk process)
    {temp : Nat} (htemp : process.temp = some temp) : temp < disk.nextTemp := by
  obtain ⟨invocation, phase⟩ := process
  cases phase with
  | saving creds next => exact h.2.2 temp htemp
  | _ => cases htemp

theorem commands_keep
    (hparse : ∀ apiUrl url, parse apiUrl = some url → (parse (trimEndMatches '/' url)).isSome) :
    Pool.Keeps (fun invocation ↦ (⟨invocation, .started⟩ : CloudProcess)) (commandStep parse)
      removeCredentials (DiskSound legacy) (ProcessSound parse) ApartFiles fun _ _ ↦ True where
  symm _ _ h := h.symm
  start s request _ _ := ⟨trivial, fun _ _ _ _ h ↦ by cases h⟩
  advance s i p outcome disk' p' hs hp _ h := by
    have hprocess := hs.procs p (List.mem_of_getElem? hp)
    have hdone := commandStep_done hparse hs.store hprocess h
    refine ⟨hdone.sound, hdone.runs, ?_⟩
    intro j q hj hq
    have hother := hs.procs q (List.mem_of_getElem? hq)
    have hapart := hs.pairs j i q p hj hq hp
    refine ⟨hother.mono hdone.leaves fun temp htemp hown ↦ hapart temp htemp hown, ?_⟩
    intro temp htemp hnew
    rcases hdone.temp temp hnew with hown | rfl
    · exact hapart temp htemp hown
    · exact absurd (hother.temp_lt htemp) (Nat.lt_irrefl _)
  environment s event disk' hs _ h := by
    cases h
    have hleaves : Leaves none s.store { s.store with file := none } :=
      ⟨fun _ hmem ↦ hmem, id, Nat.le_refl _, fun _ _ _ ↦ rfl⟩
    refine ⟨⟨?_, ?_, fun temp file hfile ↦ (hs.store.temps temp file hfile).mono hleaves⟩, ?_⟩
    · intro file hnone
      cases hnone
    · intro file hnone
      cases hnone
    · intro q hq
      refine (hs.procs q hq).mono hleaves ?_
      intro temp _ hnone
      cases hnone

/-- A request whose token was read from the credentials file goes to a control plane that has
accepted it. -/
def Confined (parse : String → Option String) (accepted : List (String × String))
    (request : BearerRequest) : Prop :=
  request.token.saved = true → ∃ base, (base, request.token.text) ∈ accepted ∧
    (canonicalApiUrl parse base).isSome ∧
    canonicalApiUrl parse base = canonicalApiUrl parse request.baseUrl

/-- A step sends at most one request, and that one is confined. -/
theorem commandStep_requests {process process' : CloudProcess} {outcome : StepOutcome}
    (hdisk : DiskSound legacy disk) (hprocess : ProcessSound parse disk process)
    (h : commandStep parse disk process outcome = some (disk', process')) :
    ∃ requests, disk'.requests = disk.requests ++ requests ∧
      ∀ request ∈ requests, Confined parse disk.accepted request := by
  have hnone (hsame : disk'.requests = disk.requests) : ∃ requests,
      disk'.requests = disk.requests ++ requests ∧
        ∀ request ∈ requests, Confined parse disk.accepted request :=
    ⟨[], by rw [hsame, List.append_nil], fun _ hnil ↦ absurd hnil List.not_mem_nil⟩
  obtain ⟨invocation, phase⟩ := process
  cases phase with
  | started =>
    cases h
    exact hnone rfl
  | loaded client =>
    obtain ⟨command, server, configUrl, envUrl, envToken, typed⟩ := invocation
    cases command <;> cases h <;> exact hnone rfl
  | ready client =>
    obtain ⟨baseUrl, token⟩ := client
    cases token with
    | none =>
      cases h
      exact hnone rfl
    | some token =>
      cases h
      refine ⟨_, rfl, ?_⟩
      intro request hrequest hsaved
      rw [List.mem_singleton.mp hrequest] at hsaved ⊢
      obtain ⟨base, haccepted, hsame⟩ := hprocess.accepted token rfl hsaved
      exact ⟨base, haccepted, hsame ▸ hprocess.parses, hsame⟩
  | sent client token =>
    obtain ⟨command, server, configUrl, envUrl, envToken, typed⟩ := invocation
    cases command with
    | login flag =>
      cases outcome with
      | answered username => cases username <;> cases h <;> exact hnone rfl
      | _ =>
        cases h
        exact hnone rfl
    | _ =>
      cases h
      exact hnone rfl
  | saving creds next =>
    obtain ⟨⟨disk'', after⟩, hsave, heq⟩ := Option.map_eq_some_iff.mp h
    cases heq
    obtain ⟨haccepted, hsound, hbound⟩ := hprocess
    exact hnone (saveStep_done hdisk haccepted hsound hbound hsave).requests
  | ended => cases h

/-- Whatever commands run at once, fail or are killed, a token that was read from the credentials
file is sent to no control plane but one that accepted it; the files that hold such tokens are
their user's alone, and the credentials file is never one that was not written whole. -/
theorem saved_credentials_confined {dir : Option Nat}
    (hparse : ∀ apiUrl url, parse apiUrl = some url → (parse (trimEndMatches '/' url)).isSome)
    (hlegacy : ∀ old creds, legacy = some old → old.contents = some creds → creds.apiUrl = none)
    {tr : List (Transition Machine (PoolAction Invocation StepOutcome Unit))} {s : Machine}
    (h : Run (machineStep parse) ⟨.before dir legacy, []⟩ tr s) :
    DiskSound legacy s.store ∧ ∀ x ∈ tr, ∃ requests,
      x.after.store.requests = x.before.store.requests ++ requests ∧
        ∀ request ∈ requests, Confined parse x.before.store.accepted request := by
  have hinit : DiskSound legacy (.before dir legacy) := by
    refine ⟨?_, fun file hfile hnone ↦ ⟨file, hfile, hnone⟩, fun temp file hfile ↦ by cases hfile⟩
    intro file hfile creds base hcontents hbase
    rw [hlegacy file creds hfile hcontents] at hbase
    cases hbase
  obtain ⟨hs, hsteps⟩ := (commands_keep hparse).run hinit h fun _ _ ↦ trivial
  refine ⟨hs.store, ?_⟩
  intro x hx
  obtain ⟨hbefore, hstep, -⟩ := hsteps x hx
  have hnone (hsame : x.after.store.requests = x.before.store.requests) : ∃ requests,
      x.after.store.requests = x.before.store.requests ++ requests ∧
        ∀ request ∈ requests, Confined parse x.before.store.accepted request :=
    ⟨[], by rw [hsame, List.append_nil], fun _ hnil ↦ absurd hnil List.not_mem_nil⟩
  cases haction : x.action with
  | start request =>
    rw [haction] at hstep
    exact hnone (congrArg (·.store.requests) (Option.some.inj hstep)).symm
  | advance i outcome =>
    rw [haction] at hstep
    obtain ⟨p, disk', p', hp, hadvance, hafter⟩ := Pool.step_advance hstep
    rw [hafter]
    exact commandStep_requests hbefore.store (hbefore.procs p (List.mem_of_getElem? hp)) hadvance
  | cancel i =>
    rw [haction] at hstep
    obtain ⟨-, hafter⟩ := Option.ite_none_right_eq_some.mp hstep
    exact hnone (congrArg (·.store.requests) (Option.some.inj hafter)).symm
  | environment event =>
    rw [haction] at hstep
    exact hnone (congrArg (·.store.requests) (Option.some.inj hstep)).symm

end Keep

/-- A login that saves its token, and a deployment that sends it. -/
def loginThenDeploy : List (PoolAction Invocation StepOutcome Unit) :=
  [.start ⟨.login (some "rct_shop"), some "http://h", none, none, none, ""⟩,
    .advance 0 (.works 0), .advance 0 (.works 0), .advance 0 (.works 0),
    .advance 0 (.answered (some "alice")), .advance 0 (.works 0o755), .advance 0 (.works 0),
    .advance 0 (.works 0o600), .advance 0 (.works 0), .advance 0 (.works 0),
    .advance 0 (.works 0), .advance 0 (.works 0),
    .start ⟨.deploy, none, none, some "http://h", none, ""⟩, .advance 1 (.works 0),
    .advance 1 (.works 0), .advance 1 (.works 0)]

/-- `Url::parse` of a scheme and a host. -/
def hostUrl (url : String) : Option String := some (trimEndMatches '/' url ++ "/")

theorem saved_credentials_confined_shop : ∃ s,
    execute (machineStep hostUrl) ⟨.before none none, []⟩ loginThenDeploy = some s ∧
      s.store.requests.map (·.token) = [⟨"rct_shop", false⟩, ⟨"rct_shop", true⟩] ∧
      DiskSound none s.store := by
  have hends : ∃ s,
      execute (machineStep hostUrl) ⟨.before none none, []⟩ loginThenDeploy = some s ∧
        s.store.requests.map (·.token) = [⟨"rct_shop", false⟩, ⟨"rct_shop", true⟩] :=
    ⟨_, rfl, rfl⟩
  obtain ⟨s, hs, hrequests⟩ := hends
  exact ⟨s, hs, hrequests, (saved_credentials_confined (fun _ _ _ ↦ rfl)
    (fun _ _ hnone ↦ by cases hnone) (Run.of_execute _ hs)).1⟩

end ReinhardtCloud.Cli

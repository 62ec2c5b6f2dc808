import ReinhardtCloud.Operator.BuildRequests

/-!
# Reconciles that nothing interrupts

Library `Operator`. What `apply` does when every request is served without a failure and nothing
else happens in between, as a function of the store.
-/

namespace ReinhardtCloud.Operator

open ReinhardtCloud.Base

/-- Run a part of `apply` without failures. -/
def BuildProgram.runOn {α : Type} (p : BuildProgram α) (s : BuildStore) :
    BuildStore × Except Error α :=
  p.run BuildStore.serve (fun _ ↦ false) s

section Rules

variable {α β : Type} {s t : BuildStore}

theorem runOn_done (r : Except Error α) :
    BuildProgram.runOn (.done r : BuildProgram α) s = (s, r) := rfl

theorem runOn_call {c : BuildCall} {next : Except ApiError c.Result → BuildProgram α} :
    BuildProgram.runOn (.call c next : BuildProgram α) s =
      (next (s.perform c).2).runOn (s.perform c).1 := rfl

/-- A served request continues with what the server performed. -/
theorem runOn_buildApi {c : BuildCall} {r : c.Result} (h : (s.perform c).2 = .ok r) :
    (buildApi c).runOn s = ((s.perform c).1, .ok r) := by
  rw [buildApi, runOn_call, h]
  rfl

theorem runOn_bind_ok {p : BuildProgram α} {f : α → BuildProgram β} {a : α}
    (h : p.runOn s = (t, .ok a)) : BuildProgram.runOn (p.bind f) s = (f a).runOn t := by
  unfold BuildProgram.runOn at h ⊢
  rw [Program.run_bind, h]

end Rules

namespace BuildStore

/-- The store after a preview build was dropped for a deletion. -/
def dropBuild (s : BuildStore) (b : BuildStatus) : BuildStore :=
  { s with
    project := s.project.withBuild none
    jobs := if isBlank b.jobName then s.jobs else Function.update s.jobs b.jobName none }

/-- The store after a preview was deleted and the request for it cleared. -/
def deletePreview (s : BuildStore) (name : String) : BuildStore :=
  { s with
    project := { s.project with annotations := .cleared }
    previews := Function.update s.previews name none }

end BuildStore

theorem runOn_clearPreviewBuildForDelete (app : Project) (prNumber previewName : String)
    (s : BuildStore) :
    (clearPreviewBuildForDelete app prNumber previewName).runOn s =
      ((matchingPreviewBuildStatus app prNumber previewName).elim s s.dropBuild, .ok ()) := by
  unfold clearPreviewBuildForDelete
  cases hm : matchingPreviewBuildStatus app prNumber previewName with
  | none => rfl
  | some b =>
    dsimp only
    split
    · next hblank =>
      rw [runOn_buildApi (r := ()) rfl]
      simp [BuildStore.perform, BuildStore.dropBuild, hblank]
    · next hblank =>
      rw [runOn_call, runOn_buildApi (r := ()) rfl]
      cases hj : s.jobs b.jobName with
      | none =>
        have hsame : Function.update s.jobs b.jobName none = s.jobs := by
          rw [← hj, Function.update_eq_self]
        simp [BuildStore.perform, hj, BuildStore.dropBuild, hblank, hsame]
      | some job => simp [BuildStore.perform, hj, BuildStore.dropBuild, hblank]

/-- A preview deletion request is carried out and cleared. -/
theorem runOn_reconcilePreviewDeleteAction {app : Project} {name : String} (s : BuildStore)
    (h : app.annotations.previewAction = some "delete")
    (hname : name = previewProjectName app.name (app.annotations.prNumber.getD "")) :
    (reconcilePreviewDeleteAction app).runOn s =
      (((matchingPreviewBuildStatus app (app.annotations.prNumber.getD "") name).elim s
          s.dropBuild).deletePreview name, .ok true) := by
  subst hname
  simp only [reconcilePreviewDeleteAction, h, ↓reduceIte, Program.bind_eq]
  rw [runOn_bind_ok (runOn_clearPreviewBuildForDelete _ _ _ _), runOn_call]
  generalize (matchingPreviewBuildStatus app _ _).elim s s.dropBuild = u
  generalize previewProjectName app.name (app.annotations.prNumber.getD "") = name
  have hclear : ∀ v : BuildStore, v = { u with previews := Function.update u.previews name none } →
      BuildProgram.runOn (clearBuildAnnotations.bind fun _ ↦ Program.done (.ok true)) v =
        (u.deletePreview name, .ok true) := by
    rintro _ rfl
    rw [clearBuildAnnotations, runOn_bind_ok (runOn_buildApi (r := ()) rfl), runOn_done]
    rfl
  cases hp : u.previews name with
  | none =>
    have hsame : u.previews = Function.update u.previews name none := by
      rw [← hp, Function.update_eq_self]
    simp only [BuildStore.perform, hp, Option.isNone_none, ↓reduceIte, Program.pure_eq]
    exact hclear u (by rw [← hsame])
  | some image =>
    simp only [BuildStore.perform, hp, Option.isNone_some, Bool.false_eq_true, ↓reduceIte,
      Program.pure_eq]
    exact hclear _ rfl

/-! ## The whole of `apply` -/

/-- The build the annotations ask for. -/
def requestedBuild (app : Project) : Option BuildStatus :=
  match deriveNewBuildStatus app with
  | .ok b => b
  | .error _ => none

/-- Deriving a build returns no error: a trigger is looked at only next to a source. -/
theorem deriveNewBuildStatus_eq (app : Project) :
    deriveNewBuildStatus app = .ok (requestedBuild app) := by
  unfold requestedBuild
  cases h : deriveNewBuildStatus app with
  | ok b => rfl
  | error e =>
    unfold deriveNewBuildStatus at h
    split at h
    · next source trigger hsource htrigger =>
      split at h
      · cases h
      · simp only [newBuildStatus, builtImageReference, hsource, bind, Except.bind,
          Except.map] at h
        cases h
    · cases h

/-- An ignored request asks for no build. -/
theorem requestedBuild_of_ignored {app : Project} (h : ignoredPreviewRequest app) :
    requestedBuild app = none := by
  cases hb : requestedBuild app with
  | none => rfl
  | some b =>
    have htaken := (derivedBuild_of_derive ((deriveNewBuildStatus_eq app).trans
      (congrArg Except.ok hb))).taken
    rw [htaken] at h
    cases h

/-- The preview a finished build is applied to, and its image; absent where
`reconcile_preview_from_build` returns an error. -/
def appliedPreview (app : Project) (b : BuildStatus) : Option (String × String) :=
  match b.prNumber, b.previewName, buildPreviewSpec app b.imageTag, app.ns with
  | some _, some name, .ok image, some _ => some (name, image)
  | _, _, _, _ => none

namespace BuildStore

/-- The store after `status.build` was patched. -/
def record (s : BuildStore) (b : BuildStatus) : BuildStore :=
  { s with project := s.project.withBuild (some (mergeBuildStatus s.project.build b)) }

/-- The store after the annotations were cleared. -/
def clearAnnotations (s : BuildStore) : BuildStore :=
  { s with project := { s.project with annotations := .cleared } }

/-- The store after the image was patched. -/
def setImage (s : BuildStore) (image : String) : BuildStore :=
  { s with project := { s.project with spec := { s.project.spec with image := image } } }

/-- The store after a Job was created. -/
def addJob (s : BuildStore) (name : String) (job : Job) : BuildStore :=
  { s with jobs := Function.update s.jobs name (some job) }

/-- The store after a preview was applied. -/
def applyPreview (s : BuildStore) (preview : String × String) : BuildStore :=
  { s with previews := Function.update s.previews preview.1 (some preview.2) }

/-- The store after the rest of `apply`. -/
def deployed (s : BuildStore) (app : Project) : BuildStore := (s.perform (.applyWorkloads app)).1

/-- What follows from the state of a build's Job. -/
def afterJob (s : BuildStore) (app : Project) (b : BuildStatus) : JobBuildState → BuildStore
  | .running => s.record (transitionBuildStatus b .running "BuildRunning"
      "Kaniko build Job is still running")
  | .failed reason message => s.record (transitionBuildStatus b .failed reason message)
  | .succeeded =>
    let succeeded := transitionBuildStatus b .succeeded "BuildSucceeded"
      "Kaniko build Job succeeded"
    match b.target with
    | .production => (s.setImage b.image).record succeeded
    | .preview =>
      (appliedPreview app b).elim s fun preview ↦ (s.applyPreview preview).record succeeded

/-- What follows for a recorded active build. -/
def followJob (s : BuildStore) (app : Project) (b : BuildStatus) : BuildStore :=
  match s.jobs b.jobName with
  | some job => s.afterJob app b (classifyJobState job)
  | none => s.record (transitionBuildStatus b .failed "BuildJobMissing"
      s!"Kaniko build Job {b.jobName} is missing")

/-- What follows for a requested build once its Job is there. -/
def acceptBuild (s : BuildStore) (app : Project) (b : BuildStatus) (job : Job) : BuildStore :=
  (s.record b).clearAnnotations.afterJob app b (classifyJobState job)

/-- What follows for a requested build. -/
def startBuild (s : BuildStore) (app : Project) (b : BuildStatus) : BuildStore :=
  match s.jobs b.jobName, buildJobForStatus app b with
  | some job, _ => s.acceptBuild app b job
  | none, .ok job => (s.addJob b.jobName job).acceptBuild app b job
  | none, .error _ => s

/-- What follows without a request. -/
def followRecorded (s : BuildStore) (app : Project) : BuildStore :=
  match app.build with
  | none => s.deployed app
  | some b =>
    match b.phase with
    | .pending | .running => s.followJob app b
    | .succeeded => s.deployed app
    | .failed => s

/-- What `apply` makes of the store. -/
def reconciled (s : BuildStore) : BuildStore :=
  if s.project.annotations.previewAction = some "delete" then
    let prNumber := s.project.annotations.prNumber.getD ""
    let previewName := previewProjectName s.project.name prNumber
    ((matchingPreviewBuildStatus s.project prNumber previewName).elim s s.dropBuild).deletePreview
      previewName
  else
    match requestedBuild s.project with
    | some b => s.startBuild s.project b
    | none =>
      if ignoredPreviewRequest s.project then s.clearAnnotations.followRecorded s.project
      else s.followRecorded s.project

section Equations

variable {s : BuildStore} {app : Project} {b : BuildStatus}

theorem followRecorded_of_active (hb : app.build = some b) (hactive : b.Active) :
    s.followRecorded app = s.followJob app b := by
  rcases hactive with h | h <;> simp only [followRecorded, hb, h]

theorem followRecorded_of_failed (hb : app.build = some b) (hphase : b.phase = .failed) :
    s.followRecorded app = s := by
  simp only [followRecorded, hb, hphase]

theorem followRecorded_of_succeeded (h : ∀ b, app.build = some b → b.phase = .succeeded) :
    s.followRecorded app = s.deployed app := by
  unfold followRecorded
  cases hb : app.build with
  | none => rfl
  | some b => simp only [h b hb]

theorem reconciled_of_request (hdelete : s.project.annotations.previewAction ≠ some "delete")
    (hb : requestedBuild s.project = some b) : s.reconciled = s.startBuild s.project b := by
  simp only [reconciled, if_neg hdelete, hb]

theorem reconciled_of_no_request (hdelete : s.project.annotations.previewAction ≠ some "delete")
    (hb : requestedBuild s.project = none) :
    s.reconciled = if ignoredPreviewRequest s.project
      then s.clearAnnotations.followRecorded s.project else s.followRecorded s.project := by
  simp only [reconciled, if_neg hdelete, hb]

end Equations

end BuildStore

section Whole

variable {app : Project} {s : BuildStore} {b : BuildStatus}

private theorem runOn_decideFromJobState (state : JobBuildState) :
    (BuildProgram.runOn ((decideFromJobState b state).bind (sourceBuildGate app)) s).1 =
      s.afterJob app b state := by
  cases state with
  | running => rfl
  | failed reason message => rfl
  | succeeded =>
    cases htarget : b.target with
    | production =>
      simp only [decideFromJobState, sourceBuildGate, BuildStore.afterJob, Program.pure_eq,
        Program.bind_ok, transitionBuildStatus, htarget]
      rfl
    | preview =>
      simp only [decideFromJobState, sourceBuildGate, BuildStore.afterJob, Program.pure_eq,
        Program.bind_ok, transitionBuildStatus, htarget, reconcilePreviewFromBuild, appliedPreview]
      cases b.prNumber with
      | none => rfl
      | some n =>
        cases b.previewName with
        | none => rfl
        | some name =>
          cases buildPreviewSpec app b.imageTag with
          | error e => rfl
          | ok image => cases app.ns <;> rfl

private theorem runOn_acceptNewBuild {job : Job} :
    (BuildProgram.runOn ((acceptNewBuild b job).bind (sourceBuildGate app)) s).1 =
      s.acceptBuild app b job := runOn_decideFromJobState _

private theorem runOn_reconcileNewBuild (hname : b.jobName = buildJobName app.name b.imageTag) :
    (BuildProgram.runOn ((reconcileNewBuild app b).bind (sourceBuildGate app)) s).1 =
      s.startBuild app b := by
  simp only [reconcileNewBuild, Program.bind_eq, buildApi, Program.bind_call, Program.pure_eq,
    Program.bind_ok, runOn_call, BuildStore.perform, BuildStore.startBuild]
  cases hget : s.jobs b.jobName with
  | some job => exact runOn_acceptNewBuild
  | none =>
    cases hjob : buildJobForStatus app b with
    | error e => rfl
    | ok job =>
      have hjobName : job.name = b.jobName := (buildJobForStatus_name hjob).trans hname.symm
      have hcreate : s.perform (.createJob job) = (s.addJob b.jobName job, .ok job) := by
        simp [BuildStore.perform, hjobName, hget, BuildStore.addJob]
      simp only [ofExcept, Program.bind_ok, Program.bind_call, runOn_call, hcreate]
      exact runOn_acceptNewBuild

/-- The rest of `apply` is one request. -/
private theorem runOn_applyWorkloads :
    (BuildProgram.runOn (sourceBuildGate app .noBuild) s).1 = s.deployed app := by
  simp only [sourceBuildGate, buildApi, runOn_call, BuildStore.deployed]
  cases (s.perform (.applyWorkloads app)).2 <;> rfl

private theorem runOn_reconcileRecordedBuild :
    (BuildProgram.runOn ((reconcileRecordedBuild app).bind (sourceBuildGate app)) s).1 =
      s.followRecorded app := by
  have hrecorded : (app.status.bind fun s ↦ s.build) = app.build := rfl
  simp only [reconcileRecordedBuild, blockingFailedBuildStatus, activeBuildStatus, hrecorded,
    BuildStore.followRecorded]
  cases app.build with
  | none => exact runOn_applyWorkloads
  | some b =>
    have hfollow : (BuildProgram.runOn ((reconcileActiveBuild b).bind (sourceBuildGate app)) s).1 =
        s.followJob app b := by
      simp only [reconcileActiveBuild, Program.bind_eq, buildApi, Program.bind_call,
        Program.pure_eq, Program.bind_ok, runOn_call, BuildStore.perform, BuildStore.followJob]
      cases s.jobs b.jobName with
      | some job => exact runOn_decideFromJobState _
      | none => rfl
    cases hphase : b.phase with
    | pending => simpa [Option.filter, hphase] using hfollow
    | running => simpa [Option.filter, hphase] using hfollow
    | succeeded =>
      simp only [Option.filter, hphase]
      exact runOn_applyWorkloads
    | failed =>
      simp only [Option.filter, hphase]
      rfl

/-- What `apply` makes of the store when nothing interrupts it. -/
theorem runOn_applyProject (s : BuildStore) :
    ((applyProject s.project).runOn s).1 = s.reconciled := by
  unfold applyProject BuildStore.reconciled
  by_cases hdelete : s.project.annotations.previewAction = some "delete"
  · rw [if_pos hdelete, Program.bind_eq, runOn_bind_ok
      (runOn_reconcilePreviewDeleteAction s hdelete rfl)]
    rfl
  · simp only [hdelete, ↓reduceIte, reconcilePreviewDeleteAction, Program.pure_eq, Program.bind_eq,
      Program.bind_ok, Bool.false_eq_true, reconcileSourceBuild]
    by_cases hignored : ignoredPreviewRequest s.project
    · simp only [hignored, ↓reduceIte, requestedBuild_of_ignored hignored]
      exact runOn_reconcileRecordedBuild
    · simp only [hignored, Bool.false_eq_true, ↓reduceIte, deriveNewBuildStatus_eq, ofExcept,
        Program.bind_ok]
      cases hb : requestedBuild s.project with
      | some b =>
        exact runOn_reconcileNewBuild (derivedBuild_of_derive
          ((deriveNewBuildStatus_eq _).trans (congrArg Except.ok hb))).jobName
      | none => exact runOn_reconcileRecordedBuild

end Whole

end ReinhardtCloud.Operator

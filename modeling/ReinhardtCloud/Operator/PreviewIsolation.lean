import ReinhardtCloud.Operator.ControlRuns

/-!
# Previews and the Project's own workloads

Library `Operator`. A run of the controller is compared with the one from which all preview
requests are erased. A preview build stops `apply` before the migration gate and the workloads, and
a failed one keeps stopping it; the specs read meanwhile are lost unless a later reconcile deploys
them.
-/

namespace ReinhardtCloud.Operator

open ReinhardtCloud.Base

/-! ## When previews do no harm -/

/-- The events without the preview requests. -/
def erasePreviews (events : List ControlEvent) : List ControlEvent :=
  events.filter fun e ↦ !e.isPreview

/-- No production trigger waits and no production build is unfinished. -/
def productionIdle (app : Project) : Bool :=
  (app.annotations.buildTrigger.isNone || app.annotations.previewAction.isSome) &&
    !app.build.any fun b ↦ b.target = .production && decide b.Active

/-- Preview requests are only written while no production trigger or build is pending. -/
def PreviewsWait (s : ControlState) (e : ControlEvent) : Prop :=
  e.isPreview → productionIdle s.store.project

/-- What the workloads would be, had no preview held a Project back. -/
def ControlState.owed (s : ControlState) : Workloads :=
  s.held.foldl s.store.checks.deploy s.store.workloads

/-- The recorded build is a failed production build. -/
def failedProduction (app : Project) : Bool :=
  app.build.any fun b ↦ b.target = .production && b.phase = .failed

/-- A reconcile does not read a preview request over a failed production build, and nothing that
previews held back shows in what it deploys. -/
def ReadsInOrder (s : ControlState) : Prop :=
  ((requestedBuild s.store.project).any (fun b ↦ b.target = .preview) →
    failedProduction s.store.project = false) ∧
  (stoppedBy s.store.project = none → s.store.gateOpens s.store.project = true →
    s.store.checks.deploy s.owed s.store.project =
      s.store.checks.deploy s.store.workloads s.store.project)

/-- The rest of `apply` would start a migration. -/
def BuildStore.startsMigration (s : BuildStore) (app : Project) : Bool :=
  (s.migrations (migrationJobName app (migrationRevisionKey app))).isNone &&
    match s.migrationGate app with
    | .ok (state, _) => state = .running
    | .error _ => false

/-- A preview does not hold back a reconcile that would start a migration. -/
def MigratesInTime (s : ControlState) : Prop :=
  stoppedBy s.store.project = some .preview → s.store.startsMigration s.store.project = false

/-- What is held back at a stuck reconcile is deployed already. -/
def LosesNothing (s : ControlState) : Prop :=
  s.store.blocked → s.store.JobsFinished →
    (heldAfter s.held s.store.project (stoppedBy s.store.project)
      (s.store.gateOpens s.store.project)).foldl s.store.checks.deploy s.store.workloads =
        s.store.workloads

/-- The step harms no production build and loses no edit: a production trigger does not join a
waiting preview request, and reconciles read in order, migrate in time and lose nothing. -/
def Harmless (s : ControlState) : ControlEvent → Prop
  | .trigger _ => s.store.project.annotations.previewAction = none
  | .reconcile => ReadsInOrder s ∧ MigratesInTime s ∧ LosesNothing s
  | _ => True

/-- The preview Jobs of the events. -/
def PreviewJob (projectName : String) (events : List ControlEvent) (name : String) : Prop :=
  ∃ prNumber branch commitSha, .previewCreate prNumber branch commitSha ∈ events ∧
    name = previewJobName projectName prNumber commitSha

/-- No production Job has the name of a preview Job. -/
def NamesApart (projectName : String) (events : List ControlEvent) : Prop :=
  ∀ commitSha, .trigger commitSha ∈ events →
    ¬ PreviewJob projectName events (productionJobName projectName commitSha)

/-! ## Two runs side by side -/

theorem SameObject.refl (a : Project) : SameObject a a := ⟨rfl, rfl, rfl, rfl, rfl⟩

theorem SameObject.trans {a b c : Project} (h : SameObject a b) (h' : SameObject b c) :
    SameObject a c :=
  ⟨h'.name.trans h.name, h'.ns.trans h.ns, h'.uid.trans h.uid, h'.spec.trans h.spec,
    h'.labels.trans h.labels⟩

theorem SameObject.symm {a b : Project} (h : SameObject a b) : SameObject b a :=
  ⟨h.name.symm, h.ns.symm, h.uid.symm, h.spec.symm, h.labels.symm⟩

theorem SameObject.requestedBuild {a b : Project} (h : SameObject a b)
    (ha : b.annotations = a.annotations) : requestedBuild b = requestedBuild a := by
  obtain ⟨_, _, _, _, _, _, _, _⟩ := a
  obtain ⟨_, _, _, _, _, _, _, _⟩ := b
  obtain ⟨rfl, rfl, rfl, rfl, rfl⟩ := h
  obtain rfl := ha
  rfl

theorem SameObject.buildJobForStatus {a b : Project} (h : SameObject a b) (build : BuildStatus) :
    buildJobForStatus b build = buildJobForStatus a build := by
  obtain ⟨_, _, _, _, _, _, _, _⟩ := a
  obtain ⟨_, _, _, _, _, _, _, _⟩ := b
  obtain ⟨rfl, rfl, rfl, rfl, rfl⟩ := h
  rfl

theorem SameObject.migrationGate {a b : Project} (h : SameObject a b) (s : BuildStore) :
    s.migrationGate b = s.migrationGate a := by
  obtain ⟨_, _, _, _, _, _, _, _⟩ := a
  obtain ⟨_, _, _, _, _, _, _, _⟩ := b
  obtain ⟨rfl, rfl, rfl, rfl, rfl⟩ := h
  rfl

/-- At most annotations, status, previews and Jobs named in `V` change. -/
structure Moves (V : String → Prop) (s t : BuildStore) : Prop where
  object : SameObject s.project t.project
  jobs : ∀ n, ¬ V n → t.jobs n = s.jobs n
  migrations : t.migrations = s.migrations
  workloads : t.workloads = s.workloads
  checks : t.checks = s.checks

section Moves

variable {V : String → Prop} {s t u : BuildStore} {app : Project} {b : BuildStatus}

theorem Moves.refl (s : BuildStore) : Moves V s s := ⟨.refl _, fun _ _ ↦ rfl, rfl, rfl, rfl⟩

theorem Moves.trans (h : Moves V s t) (h' : Moves V t u) : Moves V s u :=
  ⟨h.object.trans h'.object, fun n hn ↦ (h'.jobs n hn).trans (h.jobs n hn),
    h'.migrations.trans h.migrations, h'.workloads.trans h.workloads, h'.checks.trans h.checks⟩

theorem moves_record : Moves V s (s.record b) :=
  ⟨⟨rfl, rfl, rfl, rfl, rfl⟩, fun _ _ ↦ rfl, rfl, rfl, rfl⟩

theorem moves_clearAnnotations : Moves V s s.clearAnnotations :=
  ⟨⟨rfl, rfl, rfl, rfl, rfl⟩, fun _ _ ↦ rfl, rfl, rfl, rfl⟩

theorem moves_addJob {name : String} {job : Job} (h : V name) : Moves V s (s.addJob name job) := by
  refine ⟨.refl _, fun n hn ↦ ?_, rfl, rfl, rfl⟩
  have hne : n ≠ name := fun he ↦ hn (he ▸ h)
  simp [BuildStore.addJob, Function.update_of_ne hne]

/-- A preview build touches the Project's status only. -/
theorem moves_afterJob (htarget : b.target = .preview) (state : JobBuildState) :
    Moves V s (s.afterJob app b state) := by
  cases state with
  | running => exact moves_record
  | failed reason message => exact moves_record
  | succeeded =>
    simp only [BuildStore.afterJob, htarget]
    cases appliedPreview app b with
    | none => exact .refl s
    | some preview => exact ⟨⟨rfl, rfl, rfl, rfl, rfl⟩, fun _ _ ↦ rfl, rfl, rfl, rfl⟩

end Moves

/-- Only a preview build, whose Job is named in `V`, may be recorded. -/
def PreviewBuild (V : String → Prop) (o : Option BuildStatus) : Prop :=
  ∀ b, o = some b → b.target = .preview ∧ V b.jobName

/-- The recorded builds: the same production build on both sides, or a preview build over at most
a succeeded production build. -/
inductive AlignedBuild (V : String → Prop) : Option BuildStatus → Option BuildStatus → Prop
  | production {b c : BuildStatus} (same : SameBuild b c) (phase : c.phase = b.phase)
      (target : b.target = .production) (job : ¬ V b.jobName) : AlignedBuild V (some b) (some c)
  | apart {o o' : Option BuildStatus} (preview : PreviewBuild V o)
      (idle : ∀ c, o' = some c → c.phase = .succeeded) : AlignedBuild V o o'

/-- The store `f` of a run and the store `e` of the run without previews, when the run has held
back `held`. -/
structure Aligned (V : String → Prop) (held : List Project) (f e : BuildStore) : Prop where
  object : SameObject f.project e.project
  production : ∀ n, ¬ V n → e.jobs n = f.jobs n
  preview : ∀ n, V n → e.jobs n = none
  migrations : e.migrations = f.migrations
  workloads : e.workloads = held.foldl f.checks.deploy f.workloads
  checks : e.checks = f.checks

/-- Aligned stores with aligned builds. -/
structure Parallel (V : String → Prop) (held : List Project) (f e : BuildStore) : Prop where
  aligned : Aligned V held f e
  build : AlignedBuild V f.project.build e.project.build

/-- A production build holds nothing back. -/
theorem heldAfter_production (held : List Project) (app : Project) (opens : Bool) :
    heldAfter held app (some .production) opens = held := by
  cases opens <;> rfl

section Parallel

variable {V : String → Prop} {held : List Project} {f e f' e' : BuildStore} {app app' : Project}
  {b c : BuildStatus}

/-- Previews move on the left only. -/
theorem Aligned.moves (h : Aligned V held f e) (hf : Moves V f f')
    (he : Moves (fun _ ↦ False) e e') : Aligned V held f' e' where
  object := hf.object.symm.trans (h.object.trans he.object)
  production n hn := by rw [he.jobs n not_false, hf.jobs n hn, h.production n hn]
  preview n hn := by rw [he.jobs n not_false, h.preview n hn]
  migrations := by rw [he.migrations, hf.migrations, h.migrations]
  workloads := by rw [he.workloads, hf.workloads, hf.checks, h.workloads]
  checks := by rw [he.checks, hf.checks, h.checks]

/-- The same production build is recorded on both sides. -/
theorem Aligned.record (h : Aligned V held f e) (hsame : SameBuild b c) (hphase : c.phase = b.phase)
    (htarget : b.target = .production) (hjob : ¬ V b.jobName) :
    Parallel V held (f.record b) (e.record c) := by
  obtain ⟨hb, hbphase⟩ := sameBuild_merge f.project.build b
  obtain ⟨hc, hcphase⟩ := sameBuild_merge e.project.build c
  refine ⟨h.moves moves_record moves_record, ?_⟩
  exact .production ((hb.symm.trans hsame).trans hc) (by rw [hcphase, hphase, hbphase])
    (by rw [hb.target, htarget]) (by rwa [hb.jobName])

/-- The outcome of a production build has the same effect on both sides. -/
theorem Aligned.afterJob (h : Aligned V held f e) (hsame : SameBuild b c)
    (htarget : b.target = .production) (hjob : ¬ V b.jobName) (state : JobBuildState) :
    Parallel V held (f.afterJob app b state) (e.afterJob app' c state) := by
  have htransition : ∀ phase reason message,
      SameBuild (transitionBuildStatus b phase reason message)
        (transitionBuildStatus c phase reason message) := fun _ _ _ ↦
    ((sameBuild_transition ..).symm.trans hsame).trans (sameBuild_transition ..)
  cases state with
  | running => exact h.record (htransition ..) rfl htarget hjob
  | failed reason message => exact h.record (htransition ..) rfl htarget hjob
  | succeeded =>
    simp only [BuildStore.afterJob, htarget, hsame.target.trans htarget]
    have himage : Aligned V held (f.setImage b.image) (e.setImage c.image) :=
      ⟨⟨h.object.name, h.object.ns, h.object.uid, by
        simp [BuildStore.setImage, h.object.spec, hsame.image], h.object.labels⟩, h.production,
        h.preview, h.migrations, h.workloads, h.checks⟩
    exact himage.record (htransition ..) rfl htarget hjob

/-- The rest of `apply` keeps the recorded build. -/
theorem deployed_build {s : BuildStore} (h : app.build = s.project.build) :
    (s.deployed app).project.build = s.project.build := by
  unfold BuildStore.deployed
  rcases s.perform_applyWorkloads app with ⟨-, heq⟩ | ⟨_, _, _, -, rfl | rfl, heq⟩
  · rw [heq]
  · rw [heq]
  · rw [heq, h]
    cases hb : s.project.build with
    | none => rfl
    | some b => simp [mergeBuildStatus_self]

/-- The rest of `apply` touches status, migrations and workloads only. -/
theorem deployed_frame (s : BuildStore) (app : Project) :
    SameObject s.project (s.deployed app).project ∧ (s.deployed app).jobs = s.jobs :=
  ⟨(s.frame_applyWorkloads app).1, (s.frame_applyWorkloads app).2.2.1⟩

/-- The workloads are deployed through an open gate only. -/
theorem workloads_deployed (s : BuildStore) (app : Project) :
    (s.deployed app).workloads =
      if s.gateOpens app = true then s.checks.deploy s.workloads app else s.workloads := by
  unfold BuildStore.deployed BuildStore.gateOpens
  rcases s.perform_applyWorkloads app with ⟨⟨e, hgate⟩, heq⟩ | ⟨_, _, _, hgate, -, heq⟩
  · rw [heq, hgate]
    rfl
  · rw [heq, hgate]

/-- The migrations are those of the gate. -/
theorem migrations_deployed_eq (s : BuildStore) (app : Project) : (s.deployed app).migrations =
    ((s.migrationGate app).toOption.map Prod.snd).getD s.migrations := by
  unfold BuildStore.deployed
  rcases s.perform_applyWorkloads app with ⟨⟨e, hgate⟩, heq⟩ | ⟨_, _, _, hgate, -, heq⟩ <;>
    rw [heq, hgate] <;> rfl

/-- Two stores with one state of the migrations take one object through one gate. -/
theorem deployed_same {s t : BuildStore} (hmigrations : t.migrations = s.migrations)
    (hchecks : t.checks = s.checks) (hobject : SameObject app app') :
    t.gateOpens app' = s.gateOpens app ∧
      (t.deployed app').migrations = (s.deployed app).migrations := by
  have hgate : t.migrationGate app' = s.migrationGate app := by
    rw [← hobject.migrationGate, BuildStore.migrationGate, BuildStore.migrationGate, hmigrations,
      hchecks]
  refine ⟨by rw [BuildStore.gateOpens, BuildStore.gateOpens, hgate], ?_⟩
  rw [migrations_deployed_eq, migrations_deployed_eq, hgate, hmigrations]

/-- A reconcile that starts no migration leaves the migrations alone. -/
theorem migrations_deployed {s : BuildStore} (h : s.startsMigration app = false) :
    (s.deployed app).migrations = s.migrations := by
  unfold BuildStore.startsMigration at h
  rw [migrations_deployed_eq]
  cases hgate : s.migrationGate app with
  | error e => rfl
  | ok r =>
    obtain ⟨state, migrations⟩ := r
    refine migrations_of_gate hgate fun hnone hrunning ↦ ?_
    simp [hgate, hnone, hrunning] at h

/-- What a reconcile deploys without previews, a preview holds back. -/
theorem Aligned.deployed_right (h : Aligned V held f e) (hobject : SameObject app app')
    (hmigrates : f.startsMigration app = false) :
    Aligned V (heldAfter held app (some .preview) (f.gateOpens app)) f (e.deployed app') := by
  obtain ⟨hopens, hmigrations⟩ := deployed_same h.migrations h.checks hobject
  obtain ⟨hsame, hjobs⟩ := deployed_frame e app'
  refine ⟨h.object.trans hsame, fun n hn ↦ by rw [hjobs, h.production n hn],
    fun n hn ↦ by rw [hjobs, h.preview n hn], ?_, ?_, deployed_checks.trans h.checks⟩
  · rw [hmigrations, migrations_deployed hmigrates]
  · rw [workloads_deployed, hopens, h.workloads, h.checks]
    cases f.gateOpens app with
    | false => rfl
    | true =>
      rw [if_pos rfl, heldAfter, List.foldl_append]
      exact ApplyChecks.deploy_congr hobject

/-- Both sides deploy, and nothing that was held back shows. -/
theorem Aligned.deployed (h : Aligned V held f e) (hobject : SameObject app app')
    (hdeploy : f.gateOpens app = true →
      f.checks.deploy (held.foldl f.checks.deploy f.workloads) app =
        f.checks.deploy f.workloads app) :
    Aligned V (heldAfter held app none (f.gateOpens app)) (f.deployed app) (e.deployed app') := by
  obtain ⟨hopens, hmigrations⟩ := deployed_same h.migrations h.checks hobject
  obtain ⟨hf, hfjobs⟩ := deployed_frame f app
  obtain ⟨he, hejobs⟩ := deployed_frame e app'
  refine ⟨hf.symm.trans (h.object.trans he), fun n hn ↦ by rw [hejobs, hfjobs, h.production n hn],
    fun n hn ↦ by rw [hejobs, h.preview n hn], hmigrations, ?_,
    by rw [deployed_checks, deployed_checks, h.checks]⟩
  rw [workloads_deployed, workloads_deployed, hopens, h.workloads, h.checks, deployed_checks]
  cases hgate : f.gateOpens app with
  | false => rfl
  | true =>
    rw [if_pos rfl, if_pos rfl]
    exact (ApplyChecks.deploy_congr hobject).trans (hdeploy hgate)

theorem Parallel.deployed (h : Parallel V held f e) (hf : app.build = f.project.build)
    (he : app'.build = e.project.build) (hobject : SameObject app app')
    (hdeploy : f.gateOpens app = true →
      f.checks.deploy (held.foldl f.checks.deploy f.workloads) app =
        f.checks.deploy f.workloads app) :
    Parallel V (heldAfter held app none (f.gateOpens app)) (f.deployed app) (e.deployed app') :=
  ⟨h.aligned.deployed hobject hdeploy, by
    rw [deployed_build hf, deployed_build he]
    exact h.build⟩

/-- The gate looks at the migrations and the checks only. -/
theorem Moves.gateOpens (h : Moves V f f') : f'.gateOpens app = f.gateOpens app :=
  (deployed_same h.migrations h.checks (.refl app)).1

theorem Moves.startsMigration (h : Moves V f f') :
    f'.startsMigration app = f.startsMigration app := by
  unfold BuildStore.startsMigration BuildStore.migrationGate
  rw [h.migrations, h.checks]

/-- A preview that moves on holds back what is deployed without it. -/
theorem Parallel.preview_moves (h : Parallel V held f e) (hf : Moves V f f')
    (hbuild : PreviewBuild V f'.project.build ∨ f'.project.build = f.project.build)
    (he : app'.build = e.project.build)
    (hidle : ∀ c, e.project.build = some c → c.phase = .succeeded) (hobject : SameObject app app')
    (hmigrates : f.startsMigration app = false) :
    Parallel V (heldAfter held app (some .preview) (f.gateOpens app)) f' (e.deployed app') := by
  have haligned := (h.aligned.moves hf (.refl e)).deployed_right hobject
    (hf.startsMigration.trans hmigrates)
  rw [hf.gateOpens] at haligned
  refine ⟨haligned, ?_⟩
  rw [deployed_build he]
  rcases hbuild with hpreview | hsame
  · exact .apart hpreview hidle
  · rw [hsame]
    exact h.build

theorem recordedStop_of_not_succeeded (hb : app.build = some b) (h : b.phase ≠ .succeeded) :
    recordedStop app = some b.target := by
  simp [recordedStop, hb, Option.filter, h]

theorem previewBuild_record (htarget : b.target = .preview) (hjob : V b.jobName) :
    PreviewBuild V (f.record b).project.build := by
  rintro r hr
  obtain rfl := Option.some.inj hr
  obtain ⟨hsame, -⟩ := sameBuild_merge f.project.build b
  exact ⟨by rw [hsame.target, htarget], by rwa [hsame.jobName]⟩

/-- The outcome of a preview build records a preview build. -/
theorem previewBuild_afterJob (h : PreviewBuild V f.project.build) (htarget : b.target = .preview)
    (hjob : V b.jobName) (state : JobBuildState) :
    PreviewBuild V (f.afterJob app b state).project.build := by
  cases state with
  | running => exact previewBuild_record htarget hjob
  | failed reason message => exact previewBuild_record htarget hjob
  | succeeded =>
    simp only [BuildStore.afterJob, htarget]
    cases appliedPreview app b with
    | none => exact h
    | some preview => exact previewBuild_record htarget hjob

/-- Following the same production build. -/
theorem Parallel.followJob (h : Parallel V held f e) (hsame : SameBuild b c)
    (htarget : b.target = .production) (hjob : ¬ V b.jobName) :
    Parallel V held (f.followJob app b) (e.followJob app' c) := by
  simp only [BuildStore.followJob, hsame.jobName, h.aligned.production _ hjob]
  cases f.jobs b.jobName with
  | some job => exact h.aligned.afterJob hsame htarget hjob _
  | none =>
    exact h.aligned.record (((sameBuild_transition ..).symm.trans hsame).trans
      (sameBuild_transition ..)) rfl htarget hjob

/-- Following a preview build. -/
theorem followJob_preview (hb : f.project.build = some b) (htarget : b.target = .preview)
    (hjob : V b.jobName) :
    Moves V f (f.followJob app b) ∧ PreviewBuild V (f.followJob app b).project.build := by
  have hrecorded : PreviewBuild V f.project.build := by
    rintro r hr
    obtain rfl := Option.some.inj (hr.symm.trans hb)
    exact ⟨htarget, hjob⟩
  unfold BuildStore.followJob
  cases f.jobs b.jobName with
  | some job => exact ⟨moves_afterJob htarget _, previewBuild_afterJob hrecorded htarget hjob _⟩
  | none => exact ⟨moves_record, previewBuild_record htarget hjob⟩

/-- A reconcile without a request, on both sides. -/
theorem Parallel.followRecorded (h : Parallel V held f e) (hf : app.build = f.project.build)
    (he : app'.build = e.project.build) (hobject : SameObject app app')
    (hdeploy : recordedStop app = none → f.gateOpens app = true →
      f.checks.deploy (held.foldl f.checks.deploy f.workloads) app =
        f.checks.deploy f.workloads app)
    (hmigrates : recordedStop app = some .preview → f.startsMigration app = false) :
    Parallel V (heldAfter held app (recordedStop app) (f.gateOpens app)) (f.followRecorded app)
      (e.followRecorded app') := by
  obtain ⟨haligned, hbuild⟩ := id h
  generalize hfb : f.project.build = fb at hbuild
  generalize heb : e.project.build = eb at hbuild
  cases hbuild with
  | @production b c same phase target job =>
    have hfb' := hf.trans hfb
    have heb' := he.trans heb
    have hstop := recordedStop_of_not_succeeded hfb'
    cases hphase : b.phase with
    | pending | running =>
      have hactive : b.Active := by simp [BuildStatus.Active, hphase]
      have hactive' : c.Active := by simp [BuildStatus.Active, phase, hphase]
      rw [hstop (by simp [hphase]), target, BuildStore.followRecorded_of_active hfb' hactive,
        BuildStore.followRecorded_of_active heb' hactive']
      rw [heldAfter_production]
      exact h.followJob same target job
    | succeeded =>
      have hb : ∀ r, app.build = some r → r.phase = .succeeded := by simp [hfb', hphase]
      have hc : ∀ r, app'.build = some r → r.phase = .succeeded := by simp [heb', phase, hphase]
      have hnone := recordedStop_of_succeeded hb
      rw [hnone, BuildStore.followRecorded_of_succeeded hb,
        BuildStore.followRecorded_of_succeeded hc]
      exact h.deployed hf he hobject (hdeploy hnone)
    | failed =>
      rw [hstop (by simp [hphase]), target, BuildStore.followRecorded_of_failed hfb' hphase,
        BuildStore.followRecorded_of_failed heb' (phase.trans hphase), heldAfter_production]
      exact h
  | apart preview idle =>
    rw [← heb] at idle
    have hidle : ∀ c, app'.build = some c → c.phase = .succeeded := by rwa [he]
    rw [BuildStore.followRecorded_of_succeeded hidle]
    by_cases hsucc : ∀ b, app.build = some b → b.phase = .succeeded
    · have hnone := recordedStop_of_succeeded hsucc
      rw [hnone, BuildStore.followRecorded_of_succeeded hsucc]
      exact h.deployed hf he hobject (hdeploy hnone)
    · push Not at hsucc
      obtain ⟨b, hb, hphase⟩ := hsucc
      obtain ⟨htarget, hjob⟩ := preview b (hfb.symm.trans (hf.symm.trans hb))
      have hstop := recordedStop_of_not_succeeded hb hphase
      rw [htarget] at hstop
      have hstarts := hmigrates hstop
      rw [hstop]
      cases hp : b.phase with
      | pending | running =>
        rw [BuildStore.followRecorded_of_active hb (by simp [BuildStatus.Active, hp])]
        obtain ⟨hmoves, hrecorded⟩ := followJob_preview (hf.symm.trans hb) htarget hjob
        exact h.preview_moves hmoves (.inl hrecorded) he idle hobject hstarts
      | failed =>
        rw [BuildStore.followRecorded_of_failed hb hp]
        exact h.preview_moves (.refl f) (.inr rfl) he idle hobject hstarts
      | succeeded => exact absurd hp hphase

/-- A requested production build, on both sides. -/
theorem Parallel.startBuild (h : Parallel V held f e) (hf : SameObject f.project app)
    (he : SameObject e.project app') (htarget : b.target = .production) (hjob : ¬ V b.jobName) :
    Parallel V held (f.startBuild app b) (e.startBuild app' b) := by
  have haccept : ∀ (f e : BuildStore) (job : Job), Aligned V held f e →
      Parallel V held (f.acceptBuild app b job) (e.acceptBuild app' b job) := by
    intro f e job h
    have hrecord := h.record (.refl b) rfl htarget hjob
    exact (hrecord.aligned.moves moves_clearAnnotations moves_clearAnnotations).afterJob (.refl b)
      htarget hjob _
  have hexpected : buildJobForStatus app' b = buildJobForStatus app b :=
    (hf.symm.trans (h.aligned.object.trans he)).buildJobForStatus b
  simp only [BuildStore.startBuild, hexpected, h.aligned.production _ hjob]
  cases f.jobs b.jobName with
  | some job => exact haccept f e job h.aligned
  | none =>
    cases buildJobForStatus app b with
    | error error => exact h
    | ok job =>
      refine haccept _ _ job ⟨h.aligned.object, fun n hn ↦ ?_, fun n hn ↦ ?_,
        h.aligned.migrations, h.aligned.workloads, h.aligned.checks⟩
      · by_cases hname : n = b.jobName
        · simp [BuildStore.addJob, hname]
        · simp [BuildStore.addJob, Function.update_of_ne hname, h.aligned.production n hn]
      · have hname : n ≠ b.jobName := fun hname ↦ hjob (hname ▸ hn)
        simp [BuildStore.addJob, Function.update_of_ne hname, h.aligned.preview n hn]

/-- A requested preview build leaves everything else alone. -/
theorem startBuild_preview (app : Project) (htarget : b.target = .preview) (hjob : V b.jobName) :
    Moves V f (f.startBuild app b) ∧
      (PreviewBuild V (f.startBuild app b).project.build ∨
        (f.startBuild app b).project.build = f.project.build) := by
  have haccept : ∀ (f : BuildStore) (job : Job), Moves V f (f.acceptBuild app b job) ∧
      PreviewBuild V (f.acceptBuild app b job).project.build := by
    intro f job
    have hrecorded : PreviewBuild V (f.record b).clearAnnotations.project.build :=
      previewBuild_record (f := f) htarget hjob
    exact ⟨(moves_record.trans moves_clearAnnotations).trans (moves_afterJob htarget _),
      previewBuild_afterJob hrecorded htarget hjob _⟩
  unfold BuildStore.startBuild
  cases f.jobs b.jobName with
  | some job => exact ⟨(haccept f job).1, .inl (haccept f job).2⟩
  | none =>
    cases buildJobForStatus app b with
    | error error => exact ⟨.refl f, .inr rfl⟩
    | ok job =>
      obtain ⟨hmoves, hbuild⟩ := haccept (f.addJob b.jobName job) job
      exact ⟨(moves_addJob hjob).trans hmoves, .inl hbuild⟩

/-- A preview deletion leaves everything else alone. -/
theorem deletePreview_moves (hbuild : AlignedBuild V f.project.build e.project.build)
    (prNumber name : String) :
    Moves V f (((matchingPreviewBuildStatus f.project prNumber name).elim f
        f.dropBuild).deletePreview name) ∧
      (PreviewBuild V (((matchingPreviewBuildStatus f.project prNumber name).elim f
          f.dropBuild).deletePreview name).project.build ∨
        (((matchingPreviewBuildStatus f.project prNumber name).elim f
          f.dropBuild).deletePreview name).project.build = f.project.build) := by
  cases hm : matchingPreviewBuildStatus f.project prNumber name with
  | none => exact ⟨⟨⟨rfl, rfl, rfl, rfl, rfl⟩, fun _ _ ↦ rfl, rfl, rfl, rfl⟩, .inr rfl⟩
  | some b =>
    obtain ⟨hb, hmatch⟩ := Option.filter_eq_some_iff.mp hm
    have htarget : b.target = .preview := by
      simp only [Bool.and_eq_true, decide_eq_true_eq] at hmatch
      exact hmatch.1
    have hjob : V b.jobName := by
      have hb' : f.project.build = some b := hb
      generalize e.project.build = eb at hbuild
      rw [hb'] at hbuild
      cases hbuild with
      | production same phase target job => rw [target] at htarget; cases htarget
      | apart preview idle => exact (preview b rfl).2
    refine ⟨⟨⟨rfl, rfl, rfl, rfl, rfl⟩, fun n hn ↦ ?_, rfl, rfl, rfl⟩, .inl fun r hr ↦ by cases hr⟩
    have hname : n ≠ b.jobName := fun hname ↦ hn (hname ▸ hjob)
    simp only [Option.elim_some, BuildStore.dropBuild, BuildStore.deletePreview]
    split
    · rfl
    · rw [Function.update_of_ne hname]

end Parallel

/-! ## A reconcile on both sides -/

/-- The annotations of a preview request that waits; the Job of its build is named in `V`. -/
inductive PreviewRequest (V : String → Prop) (app : Project) : Prop
  | create {prNumber branch commitSha : String}
      (annotations : app.annotations = ⟨some commitSha, some "create", some prNumber, some branch⟩)
      (job : V (previewJobName app.name prNumber commitSha))
  | delete {prNumber : String}
      (annotations : app.annotations = ⟨none, some "delete", some prNumber, none⟩)

/-- The waiting requests: none, the same production trigger on both sides, or a preview request on
the left. -/
inductive Waiting (V : String → Prop) (app app' : Project) : Prop
  | nothing (left : app.annotations = .cleared) (right : app'.annotations = .cleared)
  | production {commitSha : String} (left : app.annotations = ⟨some commitSha, none, none, none⟩)
      (right : app'.annotations = app.annotations)
      (job : ¬ V (productionJobName app.name commitSha))
  | preview (left : PreviewRequest V app) (right : app'.annotations = .cleared)
      (idle : ∀ b, app.build = some b → b.target = .production → ¬ b.Active)

section Reconcile

variable {V : String → Prop} {held : List Project} {f e : BuildStore} {app : Project}

private theorem ignored_of_no_action (h : app.annotations.previewAction = none) :
    ignoredPreviewRequest app = false := by
  simp [ignoredPreviewRequest, disabledPreviewBuildRequested, malformedPreviewBuildRequested,
    previewActionPrNumber, previewBuildAction, h]

/-- Without annotations a reconcile follows the recorded build. -/
theorem reconciled_of_cleared (h : f.project.annotations = .cleared) :
    f.reconciled = f.followRecorded f.project := by
  have haction : f.project.annotations.previewAction = none := by rw [h]; rfl
  have hrequest : requestedBuild f.project = none := by
    rw [requestedBuild, deriveNewBuildStatus_of_no_trigger (by rw [h]; rfl)]
  rw [BuildStore.reconciled_of_no_request (by simp [haction]) hrequest,
    ignored_of_no_action haction]
  rfl

/-- A preview request that asks for no build is ignored. -/
private theorem ignored_of_create {prNumber branch commitSha : String}
    (ha : app.annotations = ⟨some commitSha, some "create", some prNumber, some branch⟩)
    (h : requestedBuild app = none) : ignoredPreviewRequest app = true := by
  by_contra hignored
  cases hsource : app.spec.source with
  | none =>
    refine hignored ?_
    cases hblank : isBlank prNumber <;>
      simp [ignoredPreviewRequest, disabledPreviewBuildRequested, malformedPreviewBuildRequested,
        previewActionPrNumber, previewBuildAction, previewsEnabled, ha, hsource, hblank,
        Option.filter]
  | some source =>
    have htrigger : app.annotations.buildTrigger = some commitSha := by rw [ha]
    obtain ⟨b, hb⟩ := deriveNewBuildStatus_of_trigger hsource htrigger (by simpa using hignored)
    rw [requestedBuild, hb] at h
    cases h

theorem stoppedBy_of_no_request (hdelete : app.annotations.previewAction ≠ some "delete")
    (h : requestedBuild app = none) : stoppedBy app = recordedStop app := by
  rw [stoppedBy, if_neg hdelete, h]

theorem stoppedBy_of_request {b : BuildStatus}
    (hdelete : app.annotations.previewAction ≠ some "delete") (h : requestedBuild app = some b) :
    stoppedBy app = some b.target := by
  rw [stoppedBy, if_neg hdelete, h]

/-- Nothing waits. -/
theorem Parallel.reconciled_nothing (h : Parallel V held f e)
    (left : f.project.annotations = .cleared) (right : e.project.annotations = .cleared)
    (hdeploy : stoppedBy f.project = none → f.gateOpens f.project = true →
      f.checks.deploy (held.foldl f.checks.deploy f.workloads) f.project =
        f.checks.deploy f.workloads f.project)
    (hmigrates : stoppedBy f.project = some .preview → f.startsMigration f.project = false) :
    Parallel V (heldAfter held f.project (stoppedBy f.project) (f.gateOpens f.project))
      f.reconciled e.reconciled ∧
      Waiting V f.reconciled.project e.reconciled.project := by
  have hstop : stoppedBy f.project = recordedStop f.project := by
    refine stoppedBy_of_no_request (by rw [left]; simp [Annotations.cleared]) ?_
    rw [requestedBuild, deriveNewBuildStatus_of_no_trigger (by rw [left]; rfl)]
  rw [hstop] at hdeploy hmigrates ⊢
  rw [reconciled_of_cleared left, reconciled_of_cleared right]
  exact ⟨h.followRecorded rfl rfl h.aligned.object hdeploy hmigrates,
    .nothing (by rw [followRecorded_annotations, left]) (by rw [followRecorded_annotations, right])⟩

/-- A production trigger waits. -/
theorem Parallel.reconciled_production {commitSha : String} (h : Parallel V held f e)
    (left : f.project.annotations = ⟨some commitSha, none, none, none⟩)
    (right : e.project.annotations = f.project.annotations)
    (job : ¬ V (productionJobName f.project.name commitSha))
    (hname : f.reconciled.project.name = f.project.name)
    (hdeploy : stoppedBy f.project = none → f.gateOpens f.project = true →
      f.checks.deploy (held.foldl f.checks.deploy f.workloads) f.project =
        f.checks.deploy f.workloads f.project)
    (hmigrates : stoppedBy f.project = some .preview → f.startsMigration f.project = false) :
    Parallel V (heldAfter held f.project (stoppedBy f.project) (f.gateOpens f.project))
      f.reconciled e.reconciled ∧
      Waiting V f.reconciled.project e.reconciled.project := by
  have haction : f.project.annotations.previewAction = none := by rw [left]
  have hdelete : f.project.annotations.previewAction ≠ some "delete" := by simp [haction]
  have hdelete' : e.project.annotations.previewAction ≠ some "delete" := by rwa [right]
  have hsame := h.aligned.object.requestedBuild right
  cases hrequest : requestedBuild f.project with
  | none =>
    have hstop := stoppedBy_of_no_request hdelete hrequest
    rw [hstop] at hdeploy hmigrates ⊢
    have hf : f.reconciled = f.followRecorded f.project := by
      rw [BuildStore.reconciled_of_no_request hdelete hrequest, ignored_of_no_action haction]
      rfl
    have he : e.reconciled = e.followRecorded e.project := by
      rw [BuildStore.reconciled_of_no_request hdelete' (hsame.trans hrequest),
        ignored_of_no_action (by rw [right, haction])]
      rfl
    have hjob : ¬ V (productionJobName f.reconciled.project.name commitSha) := by rwa [hname]
    refine ⟨?_, .production ?_ ?_ hjob⟩
    · rw [hf, he]
      exact h.followRecorded rfl rfl h.aligned.object hdeploy hmigrates
    · rw [hf, followRecorded_annotations, left]
    · rw [hf, he, followRecorded_annotations, followRecorded_annotations, right]
  | some b =>
    obtain ⟨htarget, hjobName⟩ := requested_of_trigger left hrequest
    have hjob : ¬ V b.jobName := by rwa [hjobName]
    rw [stoppedBy_of_request hdelete hrequest, htarget, heldAfter_production,
      BuildStore.reconciled_of_request hdelete hrequest,
      BuildStore.reconciled_of_request hdelete' (hsame.trans hrequest)]
    refine ⟨h.startBuild (.refl _) (.refl _) htarget hjob, ?_⟩
    have hget := h.aligned.production _ hjob
    have hexpected := h.aligned.object.buildJobForStatus b
    by_cases hstart : (f.jobs b.jobName).isSome ∨
        (buildJobForStatus f.project b).toOption.isSome
    · exact .nothing (startBuild_annotations hstart)
        (startBuild_annotations (by rwa [hget, hexpected]))
    · have hstuck := fun (s : BuildStore) (h : ¬ ((s.jobs b.jobName).isSome ∨
          (buildJobForStatus s.project b).toOption.isSome)) ↦ startBuild_of_stuck h
      rw [hstuck f hstart, hstuck e (by rwa [hget, hexpected])]
      exact .production left right job

/-- Where no production build is active, the right side's build has succeeded, or a failed one is
recorded on both sides. -/
private theorem AlignedBuild.ended {o o' : Option BuildStatus} (h : AlignedBuild V o o')
    (idle : ∀ b, o = some b → b.target = .production → ¬ b.Active) :
    (∀ c, o' = some c → c.phase = .succeeded) ∨
      ∃ b c, o = some b ∧ o' = some c ∧ b.target = .production ∧ b.phase = .failed ∧
        c.phase = .failed := by
  cases h with
  | @production b c same phase target job =>
    have hb := idle b rfl target
    cases hphase : b.phase with
    | pending => exact absurd (.inl hphase) hb
    | running => exact absurd (.inr hphase) hb
    | succeeded => exact .inl fun r hr ↦ by rw [← Option.some.inj hr, phase, hphase]
    | failed => exact .inr ⟨b, c, rfl, rfl, target, hphase, phase.trans hphase⟩
  | apart preview idle => exact .inl idle

/-- A preview is requested. -/
private theorem Parallel.reconciled_create {prNumber branch commitSha : String}
    (h : Parallel V held f e)
    (ha : f.project.annotations = ⟨some commitSha, some "create", some prNumber, some branch⟩)
    (job : V (previewJobName f.project.name prNumber commitSha))
    (hright : (e.followRecorded e.project).project.annotations = .cleared)
    (idle : ∀ b, f.project.build = some b → b.target = .production → ¬ b.Active)
    (hread : (requestedBuild f.project).any (fun b ↦ b.target = .preview) →
      failedProduction f.project = false)
    (hdeploy : stoppedBy f.project = none → f.gateOpens f.project = true →
      f.checks.deploy (held.foldl f.checks.deploy f.workloads) f.project =
        f.checks.deploy f.workloads f.project)
    (hmigrates : stoppedBy f.project = some .preview → f.startsMigration f.project = false) :
    Parallel V (heldAfter held f.project (stoppedBy f.project) (f.gateOpens f.project))
      f.reconciled
        (e.followRecorded e.project) ∧
      Waiting V f.reconciled.project (e.followRecorded e.project).project := by
  have hdelete : f.project.annotations.previewAction ≠ some "delete" := by simp [ha]
  cases hrequest : requestedBuild f.project with
  | none =>
    have hignored := ignored_of_create ha hrequest
    rw [stoppedBy_of_no_request hdelete hrequest] at hdeploy hmigrates ⊢
    rw [BuildStore.reconciled_of_no_request hdelete hrequest, if_pos hignored]
    have hcleared : Parallel V held f.clearAnnotations e :=
      ⟨h.aligned.moves moves_clearAnnotations (.refl e), h.build⟩
    exact ⟨hcleared.followRecorded rfl rfl h.aligned.object hdeploy hmigrates,
      .nothing (by rw [followRecorded_annotations]; rfl) hright⟩
  | some b =>
    obtain ⟨htarget, hjobName⟩ := requested_of_previewCreate ha hrequest
    have hjob : V b.jobName := by rwa [hjobName]
    have hstop := stoppedBy_of_request hdelete hrequest
    rw [htarget] at hstop
    have hstarts := hmigrates hstop
    rw [hstop, BuildStore.reconciled_of_request hdelete hrequest]
    have hsucceeded : ∀ c, e.project.build = some c → c.phase = .succeeded := by
      rcases h.build.ended idle with hsucceeded | ⟨r, c, hr, -, hprod, hfailed, -⟩
      · exact hsucceeded
      · have := hread (by simp [hrequest, htarget])
        simp [failedProduction, hr, hprod, hfailed] at this
    rw [BuildStore.followRecorded_of_succeeded hsucceeded] at hright ⊢
    obtain ⟨hmoves, hrecorded⟩ := startBuild_preview (f := f) f.project htarget hjob
    refine ⟨h.preview_moves hmoves hrecorded rfl hsucceeded h.aligned.object hstarts, ?_⟩
    by_cases hstart : (f.jobs b.jobName).isSome ∨
        (buildJobForStatus f.project b).toOption.isSome
    · exact .nothing (startBuild_annotations hstart) hright
    · rw [startBuild_of_stuck hstart]
      exact .preview (.create ha job) hright idle

/-- A deleted preview leaves a production build recorded. -/
private theorem build_of_delete {prNumber : String} {b : BuildStatus}
    (ha : f.project.annotations = ⟨none, some "delete", some prNumber, none⟩)
    (hb : f.project.build = some b) (hprod : b.target = .production) :
    f.reconciled.project.build = f.project.build := by
  have hm : ∀ name, matchingPreviewBuildStatus f.project prNumber name = none := by
    intro name
    have hb' : (f.project.status.bind fun s ↦ s.build) = some b := hb
    simp [matchingPreviewBuildStatus, hb', Option.filter, hprod]
  simp only [BuildStore.reconciled, ha, ↓reduceIte, Option.getD_some, hm]
  rfl

/-- Over a right side that is done, a deletion is stopped by nothing or by a preview build. -/
private theorem recordedStop_of_apart (h : AlignedBuild V f.project.build e.project.build)
    (hsucceeded : ∀ c, e.project.build = some c → c.phase = .succeeded) :
    (recordedStop f.project).getD .preview = .preview := by
  by_cases hf : ∀ b, f.project.build = some b → b.phase = .succeeded
  · rw [recordedStop_of_succeeded hf]
    rfl
  · push Not at hf
    obtain ⟨b, hb, hphase⟩ := hf
    rw [recordedStop_of_not_succeeded hb hphase]
    rw [hb] at h
    generalize heb : e.project.build = eb at h
    cases h with
    | production same phase target job =>
      exact absurd (phase.symm.trans (hsucceeded _ heb)) hphase
    | apart preview idle => exact (preview b rfl).1

/-- A preview's deletion is requested. -/
private theorem Parallel.reconciled_delete {prNumber : String} (h : Parallel V held f e)
    (ha : f.project.annotations = ⟨none, some "delete", some prNumber, none⟩)
    (hright : (e.followRecorded e.project).project.annotations = .cleared)
    (idle : ∀ b, f.project.build = some b → b.target = .production → ¬ b.Active)
    (hmigrates : stoppedBy f.project = some .preview → f.startsMigration f.project = false) :
    Parallel V (heldAfter held f.project (stoppedBy f.project) (f.gateOpens f.project))
        f.reconciled (e.followRecorded e.project) ∧
      Waiting V f.reconciled.project (e.followRecorded e.project).project := by
  have hdelete : f.project.annotations.previewAction = some "delete" := by rw [ha]
  have hf : f.reconciled = ((matchingPreviewBuildStatus f.project prNumber
      (previewProjectName f.project.name prNumber)).elim f f.dropBuild).deletePreview
        (previewProjectName f.project.name prNumber) := by
    simp [BuildStore.reconciled, ha]
  have hcleared : f.reconciled.project.annotations = .cleared := by
    rw [hf]
    rfl
  refine ⟨?_, .nothing hcleared hright⟩
  obtain ⟨hmoves, hrecorded⟩ := deletePreview_moves h.build prNumber
    (previewProjectName f.project.name prNumber)
  rw [← hf] at hmoves hrecorded
  rw [stoppedBy, if_pos hdelete] at hmigrates ⊢
  rcases h.build.ended idle with hsucceeded | ⟨b, c, hb, hc, hprod, hfailed, hfailed'⟩
  · rw [recordedStop_of_apart h.build hsucceeded] at hmigrates ⊢
    rw [BuildStore.followRecorded_of_succeeded hsucceeded]
    exact h.preview_moves hmoves hrecorded rfl hsucceeded h.aligned.object (hmigrates rfl)
  · rw [recordedStop_of_not_succeeded hb (by simp [hfailed]), hprod, Option.getD_some,
      heldAfter_production, BuildStore.followRecorded_of_failed hc hfailed']
    refine ⟨h.aligned.moves hmoves (.refl e), ?_⟩
    rw [build_of_delete ha hb hprod]
    exact h.build

/-- A preview request waits. -/
theorem Parallel.reconciled_preview (h : Parallel V held f e) (left : PreviewRequest V f.project)
    (right : e.project.annotations = .cleared)
    (idle : ∀ b, f.project.build = some b → b.target = .production → ¬ b.Active)
    (hread : (requestedBuild f.project).any (fun b ↦ b.target = .preview) →
      failedProduction f.project = false)
    (hdeploy : stoppedBy f.project = none → f.gateOpens f.project = true →
      f.checks.deploy (held.foldl f.checks.deploy f.workloads) f.project =
        f.checks.deploy f.workloads f.project)
    (hmigrates : stoppedBy f.project = some .preview → f.startsMigration f.project = false) :
    Parallel V (heldAfter held f.project (stoppedBy f.project) (f.gateOpens f.project))
      f.reconciled e.reconciled ∧
      Waiting V f.reconciled.project e.reconciled.project := by
  have hright : (e.followRecorded e.project).project.annotations = .cleared := by
    rw [followRecorded_annotations, right]
  rw [reconciled_of_cleared right]
  cases left with
  | create ha job => exact h.reconciled_create ha job hright idle hread hdeploy hmigrates
  | delete ha => exact h.reconciled_delete ha hright idle hmigrates

end Reconcile

/-! ## Runs side by side -/

/-- What relates a run to the run without previews. -/
structure Erased (V : String → Prop) (name : String) (f e : ControlState) : Prop where
  name : f.store.project.name = name
  parallel : Parallel V f.held f.store e.store
  waiting : Waiting V f.store.project e.store.project
  nothing_owed : f.requested = false → f.store.JobsFinished → f.owed = f.store.workloads

/-- The condition on one step of the run. -/
structure StepAllowed (V : String → Prop) (name : String) (s : ControlState) (e : ControlEvent) :
    Prop where
  previews_wait : PreviewsWait s e
  harmless : Harmless s e
  production_job : ∀ commitSha, e = .trigger commitSha → ¬ V (productionJobName name commitSha)
  preview_job : ∀ prNumber branch commitSha, e = .previewCreate prNumber branch commitSha →
    V (previewJobName name prNumber commitSha)

section Steps

variable {V : String → Prop} {name : String} {f e : ControlState} {a : ControlEvent}

/-- Preview requests are not seen on the right. -/
theorem Erased.hidden (h : Erased V name f e) (hc : StepAllowed V name f a)
    (ha : a.isPreview = true) : Erased V name (controlStep f a) e := by
  have hidle := hc.previews_wait ha
  simp only [productionIdle, Bool.and_eq_true, Bool.not_eq_true', Option.any_eq_false] at hidle
  obtain ⟨hfree, hbuild⟩ := hidle
  have hright : e.store.project.annotations = .cleared := by
    cases h.waiting with
    | nothing left right => exact right
    | production left right job => simp [left] at hfree
    | preview left right idle => exact right
  have hidle : ∀ b, f.store.project.build = some b → b.target = .production → ¬ b.Active := by
    intro b hb htarget hactive
    have := hbuild b hb
    simp [htarget, hactive] at this
  have hparallel : ∀ annotations, Parallel V f.held
      { f.store with project := { f.store.project with annotations := annotations } } e.store :=
    fun _ ↦ ⟨h.parallel.aligned.moves ⟨⟨rfl, rfl, rfl, rfl, rfl⟩, fun _ _ ↦ rfl, rfl, rfl, rfl⟩
      (.refl _), h.parallel.build⟩
  cases a with
  | previewCreate prNumber branch commitSha =>
    have hjob : V (previewJobName f.store.project.name prNumber commitSha) := by
      rw [h.name]
      exact hc.preview_job prNumber branch commitSha rfl
    exact ⟨h.name, hparallel _, .preview (.create rfl hjob) hright hidle, fun h ↦ by cases h⟩
  | previewDelete prNumber =>
    exact ⟨h.name, hparallel _, .preview (.delete rfl) hright hidle, fun h ↦ by cases h⟩
  | _ => cases ha

/-- A Job outcome is the same on both sides, or a preview Job's on the left only. -/
private theorem Erased.jobs (h : Erased V name f e) (job : String) (o : Option Job) :
    (¬ V job → Erased V name
      (f.change { f.store with jobs := Function.update f.store.jobs job o })
      (e.change { e.store with jobs := Function.update e.store.jobs job o })) ∧
    (V job → Erased V name
      (f.change { f.store with jobs := Function.update f.store.jobs job o }) e) := by
  refine ⟨fun hjob ↦ ⟨h.name, ⟨⟨h.parallel.aligned.object, fun n hn ↦ ?_, fun n hn ↦ ?_,
    h.parallel.aligned.migrations, h.parallel.aligned.workloads, h.parallel.aligned.checks⟩,
    h.parallel.build⟩, h.waiting, fun h ↦ by cases h⟩,
    fun hjob ↦ ⟨h.name, ⟨h.parallel.aligned.moves ⟨.refl _, fun n hn ↦ ?_, rfl, rfl, rfl⟩ (.refl _),
      h.parallel.build⟩, h.waiting, fun h ↦ by cases h⟩⟩
  · by_cases hname : n = job
    · simp [ControlState.change, hname]
    · simp [ControlState.change, Function.update_of_ne hname, h.parallel.aligned.production n hn]
  · have hname : n ≠ job := fun hname ↦ hjob (hname ▸ hn)
    simp [ControlState.change, Function.update_of_ne hname, h.parallel.aligned.preview n hn]
  · have hname : n ≠ job := fun hname ↦ hn (hname ▸ hjob)
    simp [ControlState.change, Function.update_of_ne hname]

/-- A production trigger replaces what waits on both sides. -/
private theorem Erased.trigger {commitSha : String} (h : Erased V name f e)
    (hc : StepAllowed V name f (.trigger commitSha)) :
    Erased V name (controlStep f (.trigger commitSha)) (controlStep e (.trigger commitSha)) := by
  have hobject := h.parallel.aligned.object
  have hfree : f.store.project.annotations.previewAction = none := hc.harmless
  have hjob : ¬ V (productionJobName f.store.project.name commitSha) := by
    rw [h.name]
    exact hc.production_job commitSha rfl
  refine ⟨h.name, ⟨⟨⟨hobject.name, hobject.ns, hobject.uid, hobject.spec, hobject.labels⟩,
    h.parallel.aligned.production, h.parallel.aligned.preview, h.parallel.aligned.migrations,
    h.parallel.aligned.workloads, h.parallel.aligned.checks⟩, h.parallel.build⟩, ?_,
    fun h ↦ by cases h⟩
  have hleft : { f.store.project.annotations with buildTrigger := some commitSha } =
      ⟨some commitSha, none, none, none⟩ ∧
      e.store.project.annotations = f.store.project.annotations := by
    cases h.waiting with
    | nothing left right => exact ⟨by rw [left]; rfl, by rw [left, right]⟩
    | production left right job => exact ⟨by rw [left], right⟩
    | preview left right idle =>
      cases left with
      | create annotations job => simp [annotations] at hfree
      | delete annotations => simp [annotations] at hfree
  refine .production hleft.1 ?_ hjob
  simp [controlStep, ControlState.annotate, ControlState.change, hleft.2]

/-- A reconcile does on both sides what the waiting request asks for. -/
private theorem Erased.reconcile (h : Erased V name f e) (hc : StepAllowed V name f .reconcile) :
    Erased V name (controlStep f .reconcile) (controlStep e .reconcile) := by
  obtain ⟨⟨hread, hdeploy⟩, hmigrates, hloses⟩ := hc.harmless
  have hname : f.store.reconciled.project.name = f.store.project.name := by
    rw [← runOn_applyProject, runOn_name]
  have hboth : Parallel V (heldAfter f.held f.store.project (stoppedBy f.store.project)
        (f.store.gateOpens f.store.project)) f.store.reconciled e.store.reconciled ∧
      Waiting V f.store.reconciled.project e.store.reconciled.project := by
    cases h.waiting with
    | nothing left right => exact h.parallel.reconciled_nothing left right hdeploy hmigrates
    | production left right job =>
      exact h.parallel.reconciled_production left right job hname hdeploy hmigrates
    | preview left right idle =>
      exact h.parallel.reconciled_preview left right idle hread hdeploy hmigrates
  simp only [controlStep, ControlState.reconcile_eq]
  refine ⟨hname.trans h.name, hboth.1, hboth.2, fun hquiet hfinished ↦ ?_⟩
  by_cases hblocked : f.store.blocked
  · obtain ⟨hjobs, hmigrations, hworkloads⟩ := reconciled_of_blocked hblocked
    have hbefore : f.store.JobsFinished :=
      ⟨by simpa only [hjobs] using hfinished.builds,
        by simpa only [hmigrations] using hfinished.migrations⟩
    simp only [ControlState.owed, hworkloads, reconciled_checks]
    exact hloses hblocked hbefore
  · rcases progress (by simpa using hblocked) with hchanged | ⟨hstop, hopens⟩ | hunfinished
    · simp [hchanged] at hquiet
    · simp [ControlState.owed, hstop, hopens, heldAfter]
    · exact absurd hfinished hunfinished

/-- Every other event happens on both sides. -/
theorem Erased.visible (h : Erased V name f e) (hc : StepAllowed V name f a)
    (ha : a.isPreview = false) : Erased V name (controlStep f a) (controlStep e a) := by
  have hobject := h.parallel.aligned.object
  cases a with
  | previewCreate prNumber branch commitSha => cases ha
  | previewDelete prNumber => cases ha
  | edit g =>
    refine ⟨h.name, ⟨⟨⟨hobject.name, hobject.ns, hobject.uid, ?_, hobject.labels⟩,
      h.parallel.aligned.production, h.parallel.aligned.preview, h.parallel.aligned.migrations,
      h.parallel.aligned.workloads, h.parallel.aligned.checks⟩, h.parallel.build⟩, ?_,
      fun h ↦ by cases h⟩
    · exact congrArg g hobject.spec
    · cases h.waiting with
      | nothing left right => exact .nothing left right
      | production left right job => exact .production left right job
      | preview left right idle =>
        refine .preview ?_ right idle
        cases left with
        | create annotations job => exact .create annotations job
        | delete annotations => exact .delete annotations
  | trigger commitSha => exact h.trigger hc
  | reportJob job status =>
    by_cases hjob : V job
    · have hright : e.store.jobs job = none := h.parallel.aligned.preview job hjob
      simp only [controlStep, buildEvent, hright, Option.map_none, Option.elim_none]
      cases f.store.jobs job with
      | none => exact h
      | some j => exact (h.jobs job _).2 hjob
    · simp only [controlStep, buildEvent, h.parallel.aligned.production job hjob]
      cases f.store.jobs job with
      | none => exact h
      | some j => exact (h.jobs job _).1 hjob
  | deleteJob job =>
    by_cases hjob : V job
    · have hright : e.store.jobs job = none := h.parallel.aligned.preview job hjob
      simp only [controlStep, hright, Option.isSome_none, Bool.false_eq_true, ↓reduceIte]
      split
      · exact (h.jobs job none).2 hjob
      · exact h
    · simp only [controlStep, h.parallel.aligned.production job hjob]
      split
      · exact (h.jobs job none).1 hjob
      · exact h
  | reportMigration job status =>
    simp only [controlStep, buildEvent, h.parallel.aligned.migrations]
    cases f.store.migrations job with
    | none => exact h
    | some j =>
      exact ⟨h.name, ⟨⟨hobject, h.parallel.aligned.production, h.parallel.aligned.preview, rfl,
        h.parallel.aligned.workloads, h.parallel.aligned.checks⟩, h.parallel.build⟩, h.waiting,
        fun h ↦ by cases h⟩
  | reconcile => exact h.reconcile hc

end Steps

/-- When no step does harm, a settled run ends with the image and the workloads of the run without
its preview requests. -/
theorem previews_isolated {s : ControlState} {events : List ControlEvent} (hfresh : s.Fresh)
    (hnames : NamesApart s.store.project.name events)
    (hpreviews : Along controlStep PreviewsWait s events)
    (hharmless : Along controlStep Harmless s events) (hsettled : (s.run events).Settled) :
    (s.run events).store.project.spec.image =
        (s.run (erasePreviews events)).store.project.spec.image ∧
      (s.run events).store.workloads = (s.run (erasePreviews events)).store.workloads := by
  have hallowed := ((hpreviews.and hharmless).and (Along.of_forall (P := fun e ↦ e ∈ events)
    fun e he ↦ he)).mono (D := StepAllowed (PreviewJob s.store.project.name events)
      s.store.project.name) fun t e h ↦ ?_
  · have hinit : Erased (PreviewJob s.store.project.name events) s.store.project.name s s := by
      refine ⟨rfl, ⟨⟨.refl _, fun _ _ ↦ rfl, fun n _ ↦ hfresh.jobs n, rfl, ?_, rfl⟩, ?_⟩,
        .nothing hfresh.annotations hfresh.annotations, fun _ _ ↦ ?_⟩
      · rw [hfresh.held]
        rfl
      · rw [hfresh.build]
        exact .apart (fun b hb ↦ by cases hb) (fun b hb ↦ by cases hb)
      · rw [ControlState.owed, hfresh.held]
        rfl
    have hend := unwinding (fun f e a h hc ha ↦ h.visible hc ha)
      (fun f e a h hc ha ↦ h.hidden hc ha)
      hallowed hinit
    exact ⟨congrArg ProjectSpec.image hend.parallel.aligned.object.spec.symm,
      (hend.nothing_owed hsettled.1 hsettled.2).symm.trans hend.parallel.aligned.workloads.symm⟩
  · obtain ⟨⟨hwait, hharm⟩, hmem⟩ := h
    refine ⟨hwait, hharm, ?_, ?_⟩
    · rintro commitSha rfl
      exact hnames commitSha hmem
    · rintro prNumber branch commitSha rfl
      exact ⟨prNumber, branch, commitSha, hmem, rfl⟩

/-! ## A failed preview and a later edit -/

instance (s : ControlState) (e : ControlEvent) : Decidable (PreviewsWait s e) :=
  inferInstanceAs (Decidable (_ = true → _ = true))

instance (s : ControlState) : Decidable (ReadsInOrder s) :=
  inferInstanceAs (Decidable ((_ = true → _ = false) ∧ (_ = none → _ = true → _ = _)))

instance (s : ControlState) : Decidable (MigratesInTime s) :=
  inferInstanceAs (Decidable (_ = some BuildTargetKind.preview → _ = false))

/-- The step is harmless, and a reconcile is not even stuck. -/
def GoesOn (s : ControlState) : ControlEvent → Prop
  | .trigger _ => s.store.project.annotations.previewAction = none
  | .reconcile => ReadsInOrder s ∧ MigratesInTime s ∧ s.store.blocked = false
  | _ => True

instance (s : ControlState) : (e : ControlEvent) → Decidable (GoesOn s e)
  | .trigger _ => inferInstanceAs (Decidable (_ = none))
  | .reconcile => inferInstanceAs (Decidable (ReadsInOrder s ∧ MigratesInTime s ∧ _ = false))
  | .edit _ | .previewCreate _ _ _ | .previewDelete _ | .reportJob _ _ | .deleteJob _
  | .reportMigration _ _ => .isTrue trivial

theorem GoesOn.harmless {s : ControlState} {e : ControlEvent} (h : GoesOn s e) : Harmless s e := by
  cases e with
  | trigger commitSha => exact h
  | reconcile =>
    refine ⟨h.1, h.2.1, fun hblocked ↦ ?_⟩
    rw [h.2.2] at hblocked
    cases hblocked
  | _ => trivial

/-- A new Project with previews. -/
def previewedControl : ControlState := ⟨previewedStore, true, []⟩

theorem previewedControl_fresh : previewedControl.Fresh := ⟨rfl, rfl, fun _ ↦ rfl, rfl⟩

theorem previewedControl_holds {builds migrations : List String} :
    previewedControl.store.Holds builds migrations := ⟨fun _ _ ↦ rfl, fun _ _ ↦ rfl⟩

/-- Expose the Project under a host. -/
def setHost (spec : ProjectSpec) : ProjectSpec := { spec with ingressHost := some "shop.example" }

/-- The build of a preview fails; then the Project is edited. -/
def failedPreviewThenEdit : List ControlEvent :=
  [.reconcile, .previewCreate "5" "topic" "2222", .reconcile,
    .reportJob "shop-build-pr-5-2222" ⟨none, some 3, none⟩, .reconcile, .edit setHost, .reconcile]

/-- The edit is applied without the preview and is not applied with it. -/
theorem edit_blocked_by_preview : ¬ ∀ (s : ControlState) (events : List ControlEvent), s.Fresh →
    Along controlStep PreviewsWait s events → (s.run events).Settled →
    (s.run events).store.project.spec.image =
        (s.run (erasePreviews events)).store.project.spec.image ∧
      (s.run events).store.workloads = (s.run (erasePreviews events)).store.workloads := by
  intro hall
  have hholds : (previewedControl.run failedPreviewThenEdit).store.Holds
      ["shop-build-pr-5-2222"] [] := previewedControl_holds.run (by decide)
  have hsettled : (previewedControl.run failedPreviewThenEdit).Settled :=
    ⟨by decide, hholds.finished (by decide) (by decide)⟩
  have hsame := (hall _ failedPreviewThenEdit previewedControl_fresh (by decide) hsettled).2
  have hdiffer : (previewedControl.run failedPreviewThenEdit).store.workloads ≠
      (previewedControl.run (erasePreviews failedPreviewThenEdit)).store.workloads := by decide
  exact hdiffer hsame

/-- A new Project with previews and a PostgreSQL of its own. -/
def databaseControl : ControlState :=
  ⟨{ previewedStore with
    project := { previewedProject with
      spec := { previewedProject.spec with
        introspect := some ⟨{ database := some "postgresql" }, [], "1.0", 8000⟩ } } }, true, []⟩

/-- Two migrations, a production build and a preview build succeed, with an edit in between. -/
def rolloutWithPreview : List ControlEvent :=
  [.reconcile, .reportMigration "shop-migrate-a0a9fc5f9f5b7d55" ⟨some 1, none, none⟩, .reconcile,
    .trigger "1111", .reconcile, .reportJob "shop-build-shop-1111" ⟨some 1, none, none⟩, .reconcile,
    .reconcile, .reportMigration "shop-migrate-ca43f60f1d97a351" ⟨some 1, none, none⟩, .reconcile,
    .previewCreate "5" "topic" "2222", .reconcile, .edit setHost, .reconcile,
    .reportJob "shop-build-pr-5-2222" ⟨some 1, none, none⟩, .reconcile, .reconcile]

theorem previews_isolated_rolloutWithPreview :
    (databaseControl.run rolloutWithPreview).store.project.spec.image =
        "registry.example/shop:shop-1111" ∧
      (databaseControl.run rolloutWithPreview).store.project.spec.image =
        (databaseControl.run (erasePreviews rolloutWithPreview)).store.project.spec.image ∧
      (databaseControl.run rolloutWithPreview).store.workloads =
        (databaseControl.run (erasePreviews rolloutWithPreview)).store.workloads := by
  have hfresh : databaseControl.Fresh := ⟨rfl, rfl, fun _ ↦ rfl, rfl⟩
  have hnames : NamesApart databaseControl.store.project.name rolloutWithPreview := by
    rintro commitSha htrigger ⟨prNumber, branch, sha, hcreate, hsame⟩
    simp only [rolloutWithPreview, List.mem_cons, List.not_mem_nil, reduceCtorEq, or_false,
      false_or, ControlEvent.trigger.injEq, ControlEvent.previewCreate.injEq] at htrigger hcreate
    obtain ⟨rfl, rfl, rfl⟩ := hcreate
    subst htrigger
    revert hsame
    decide
  have hharmless : Along controlStep GoesOn databaseControl rolloutWithPreview := by
    decide +kernel
  have hholds : (databaseControl.run rolloutWithPreview).store.Holds
      ["shop-build-shop-1111", "shop-build-pr-5-2222"]
      ["shop-migrate-a0a9fc5f9f5b7d55", "shop-migrate-ca43f60f1d97a351"] := by
    refine BuildStore.Holds.run ⟨fun _ _ ↦ rfl, fun _ _ ↦ rfl⟩ ?_
    decide +kernel
  have hpreviews : Along controlStep PreviewsWait databaseControl rolloutWithPreview := by
    decide +kernel
  have hsettled : (databaseControl.run rolloutWithPreview).Settled :=
    ⟨by decide +kernel, hholds.finished (by decide +kernel) (by decide +kernel)⟩
  exact ⟨by decide +kernel, previews_isolated hfresh hnames hpreviews
    (hharmless.mono fun _ _ ↦ GoesOn.harmless) hsettled⟩

end ReinhardtCloud.Operator

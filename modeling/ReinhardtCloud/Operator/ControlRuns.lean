import ReinhardtCloud.Operator.BuildRuns

/-!
# Runs of the controller

Library `Operator`. The runs of spec edits, build triggers, preview requests, outcomes of Kaniko and
migration Jobs and reconciles, each reconcile running to its end, and what a reconcile leaves to be
done.
-/

namespace ReinhardtCloud.Operator

open ReinhardtCloud.Base

/-! ## Events -/

/-- What can happen to a Project: requests, Job outcomes, and a reconcile. -/
inductive ControlEvent where
  | edit (f : ProjectSpec → ProjectSpec)
  | trigger (commitSha : String)
  | previewCreate (prNumber branch commitSha : String)
  | previewDelete (prNumber : String)
  | reportJob (name : String) (status : JobStatus)
  | deleteJob (name : String)
  | reportMigration (name : String) (status : JobStatus)
  | reconcile

/-- Preview requests. -/
def ControlEvent.isPreview : ControlEvent → Bool
  | .previewCreate .. | .previewDelete .. => true
  | _ => false

/-- The cluster, and whether a reconcile is requested. `held` is history: the Projects that
reconciles read while a preview stopped them before an open migration gate, since the workloads were
last deployed. -/
structure ControlState where
  store : BuildStore
  requested : Bool
  held : List Project

/-- The target of the recorded build that stops `apply` before the workloads. -/
def recordedStop (app : Project) : Option BuildTargetKind :=
  (app.build.filter fun b ↦ b.phase ≠ .succeeded).map fun b ↦ b.target

/-- The target of the build or preview action that stops `apply` before the workloads. -/
def stoppedBy (app : Project) : Option BuildTargetKind :=
  if app.annotations.previewAction = some "delete" then some ((recordedStop app).getD .preview)
  else
    match requestedBuild app with
    | some b => some b.target
    | none => recordedStop app

/-- The migration gate lets a reconcile that reads `app` go on to the workloads. -/
def BuildStore.gateOpens (s : BuildStore) (app : Project) : Bool :=
  match s.migrationGate app with
  | .ok (state, _) => state.opens
  | .error _ => false

/-- The held back Projects after a reconcile that read `app`, by what stopped it and by whether the
migration gate was open. -/
def heldAfter (held : List Project) (app : Project) :
    (stop : Option BuildTargetKind) → (opens : Bool) → List Project
  | _, false => held
  | none, true => []
  | some .production, true => held
  | some .preview, true => held ++ [app]

/-- What the controller looks at in the Project. -/
def watched (app : Project) : Annotations × ProjectSpec × Option BuildStatus :=
  (app.annotations, app.spec, app.build)

namespace ControlState

/-- A watched object changed. -/
def change (s : ControlState) (store : BuildStore) : ControlState :=
  { s with store := store, requested := true }

/-- The annotations were written, `import.rs:150–188`. -/
def annotate (s : ControlState) (f : Annotations → Annotations) : ControlState :=
  s.change { s.store with
    project := { s.store.project with annotations := f s.store.project.annotations } }

/-- A reconcile, run to its end. Its own writes to the Project request the next one; an error is
not retried, as `backoff_class` has it for missing fields and unusable credentials
(`error.rs:217–243`). -/
def reconcile (s : ControlState) : ControlState :=
  let store := ((applyProject s.store.project).runOn s.store).1
  { store := store
    requested := watched store.project ≠ watched s.store.project
    held := heldAfter s.held s.store.project (stoppedBy s.store.project)
      (s.store.gateOpens s.store.project) }

end ControlState

/-- One event. Reports and deletions of absent Jobs are no events. -/
def controlStep (s : ControlState) : ControlEvent → ControlState
  | .edit f => s.change { s.store with
      project := { s.store.project with spec := f s.store.project.spec } }
  | .trigger commitSha => s.annotate fun a ↦ { a with buildTrigger := some commitSha }
  | .previewCreate prNumber branch commitSha =>
    s.annotate fun _ ↦ ⟨some commitSha, some "create", some prNumber, some branch⟩
  | .previewDelete prNumber => s.annotate fun _ ↦ ⟨none, some "delete", some prNumber, none⟩
  | .reportJob name status => (buildEvent s.store (.reportJob name status)).elim s s.change
  | .deleteJob name =>
    if (s.store.jobs name).isSome then
      s.change { s.store with jobs := Function.update s.store.jobs name none }
    else s
  | .reportMigration name status =>
    (buildEvent s.store (.reportMigration name status)).elim s s.change
  | .reconcile => s.reconcile

/-- A migration Job has completed or failed. -/
def NamespaceJob.finished (job : NamespaceJob) : Bool :=
  jobCompleted job.status || jobConditionIsTrue job.status "Failed"

/-- Every Job has finished. -/
structure BuildStore.JobsFinished (s : BuildStore) : Prop where
  builds : ∀ name job, s.jobs name = some job → classifyJobState job ≠ .running
  migrations : ∀ name job, s.migrations name = some job → job.finished = true

/-- Only the listed Jobs need to be looked at. -/
theorem finished_of_names {α : Type} {jobs : String → Option α} {finished : α → Prop}
    (names : List String) (habsent : ∀ name, name ∉ names → jobs name = none)
    (hfinished : ∀ name ∈ names, ∀ job ∈ jobs name, finished job) :
    ∀ name job, jobs name = some job → finished job := by
  intro name job hjob
  by_cases hname : name ∈ names
  · exact hfinished name hname job hjob
  · rw [habsent name hname] at hjob
    cases hjob

/-- Every Job has finished and every requested reconcile has returned. -/
def ControlState.Settled (s : ControlState) : Prop :=
  s.requested = false ∧ s.store.JobsFinished

/-- A Project as created, before any build. -/
structure ControlState.Fresh (s : ControlState) : Prop where
  annotations : s.store.project.annotations = .cleared
  build : s.store.project.build = none
  jobs : ∀ name, s.store.jobs name = none
  held : s.held = []

/-- The state after all events. -/
def ControlState.run (s : ControlState) (events : List ControlEvent) : ControlState :=
  events.foldl controlStep s

/-! ## What a reconcile leaves behind -/

/-- The Job of a production trigger. -/
def productionJobName (projectName commitSha : String) : String :=
  buildJobName projectName s!"{projectName}-{takeChars 8 commitSha}"

/-- The Job of a preview request. -/
def previewJobName (projectName prNumber commitSha : String) : String :=
  buildJobName projectName (previewImageTag prNumber (takeChars 8 commitSha))

/-- A Project does not get to its migration, or that cannot be started or has failed. -/
def BuildStore.gateStuck (s : BuildStore) (app : Project) : Bool :=
  match s.migrationGate app with
  | .ok (state, _) => state = .failed
  | .error _ => true

/-- The operator is stuck: it can neither build what is requested nor get past the recorded build
or the migration. -/
def BuildStore.blocked (s : BuildStore) : Bool :=
  s.project.annotations.previewAction ≠ some "delete" && !ignoredPreviewRequest s.project &&
    match requestedBuild s.project, s.project.build with
    | some b, _ => (s.jobs b.jobName).isNone && (buildJobForStatus s.project b).toOption.isNone
    | none, none => s.gateStuck s.project
    | none, some b =>
      match b.phase with
      | .failed => true
      | .succeeded => s.gateStuck s.project
      | .pending | .running => b.target = .preview && (appliedPreview s.project b).isNone &&
          (s.jobs b.jobName).any fun job ↦ classifyJobState job = .succeeded

section Reconciled

variable {app : Project} {s : BuildStore} {b : BuildStatus} {jobs : NamespaceJobs}

private theorem derivedBuild_of_requested (h : requestedBuild app = some b) : DerivedBuild app b :=
  derivedBuild_of_derive ((deriveNewBuildStatus_eq app).trans (congrArg Except.ok h))

/-- The Job of a requested build. -/
theorem jobName_of_requested (h : requestedBuild app = some b) :
    b.jobName = match previewPrNumber app with
      | some n => previewJobName app.name n b.trigger
      | none => productionJobName app.name b.trigger := by
  have hd : deriveNewBuildStatus app = .ok (some b) :=
    (deriveNewBuildStatus_eq app).trans (congrArg Except.ok h)
  rw [(derivedBuild_of_derive hd).jobName, imageTag_of_derive hd]
  cases previewPrNumber app <;> rfl

/-- The annotations of a production trigger. -/
theorem requested_of_trigger {commitSha : String}
    (ha : app.annotations = ⟨some commitSha, none, none, none⟩) (h : requestedBuild app = some b) :
    b.target = .production ∧ b.jobName = productionJobName app.name commitSha := by
  have hd := derivedBuild_of_requested h
  have hpr : previewPrNumber app = none := by
    simp [previewPrNumber, previewActionPrNumber, previewBuildAction, ha]
  have htrigger : commitSha = b.trigger := by simpa [ha] using hd.trigger
  have hname := jobName_of_requested h
  rw [hpr] at hname
  exact ⟨by simpa [hpr] using hd.target, by rw [hname, htrigger]⟩

/-- The annotations of a preview request. -/
theorem requested_of_previewCreate {prNumber branch commitSha : String}
    (ha : app.annotations = ⟨some commitSha, some "create", some prNumber, some branch⟩)
    (h : requestedBuild app = some b) :
    b.target = .preview ∧ b.jobName = previewJobName app.name prNumber commitSha := by
  have hd := derivedBuild_of_requested h
  have htrigger : commitSha = b.trigger := by simpa [ha] using hd.trigger
  have hname := jobName_of_requested h
  have htaken := hd.taken
  have hpr : previewPrNumber app = some prNumber := by
    cases hblank : isBlank prNumber <;> cases henabled : previewsEnabled app <;>
      simp_all [ignoredPreviewRequest, disabledPreviewBuildRequested,
        malformedPreviewBuildRequested, previewPrNumber, previewActionPrNumber, previewBuildAction,
        Option.filter]
  rw [hpr] at hname
  exact ⟨by simpa [hpr] using hd.target, by rw [hname, htrigger]⟩

theorem afterJob_annotations (state : JobBuildState) :
    (s.afterJob app b state).project.annotations = s.project.annotations := by
  cases state with
  | running => rfl
  | failed reason message => rfl
  | succeeded =>
    unfold BuildStore.afterJob
    cases b.target with
    | production => rfl
    | preview => cases appliedPreview app b <;> rfl

theorem afterJob_jobs (state : JobBuildState) : (s.afterJob app b state).jobs = s.jobs := by
  cases state with
  | running => rfl
  | failed reason message => rfl
  | succeeded =>
    unfold BuildStore.afterJob
    cases b.target with
    | production => rfl
    | preview => cases appliedPreview app b <;> rfl

/-- A Job that ran to its end moves an active build on, unless its preview cannot be applied. -/
private theorem afterJob_phase {state : JobBuildState} (hstate : state ≠ .running)
    (happly : state = .succeeded → b.target = .preview → (appliedPreview app b).isSome) :
    ∃ r, (s.afterJob app b state).project.build = some r ∧ ¬ r.Active := by
  have hrecord : ∀ (t : BuildStore) (phase : BuildPhase) (reason message : String),
      phase = .succeeded ∨ phase = .failed →
      ∃ r, (t.record (transitionBuildStatus b phase reason message)).project.build = some r ∧
        ¬ r.Active := by
    intro t phase reason message hphase
    refine ⟨_, rfl, ?_⟩
    rw [BuildStatus.Active, (sameBuild_merge ..).2]
    rcases hphase with rfl | rfl <;> rintro (h | h) <;> cases h
  cases state with
  | running => exact absurd rfl hstate
  | failed reason message => exact hrecord _ _ _ _ (.inr rfl)
  | succeeded =>
    unfold BuildStore.afterJob
    cases htarget : b.target with
    | production => exact hrecord _ _ _ _ (.inl rfl)
    | preview =>
      obtain ⟨preview, hpreview⟩ := Option.isSome_iff_exists.mp (happly rfl htarget)
      simp only [hpreview, Option.elim_some]
      exact hrecord _ _ _ _ (.inl rfl)

theorem startBuild_annotations (h : (s.jobs b.jobName).isSome ∨
    (buildJobForStatus app b).toOption.isSome) :
    (s.startBuild app b).project.annotations = .cleared := by
  unfold BuildStore.startBuild
  split
  · exact afterJob_annotations _
  · exact afterJob_annotations _
  · next hjob herror => simp [hjob, herror, Except.toOption] at h

theorem startBuild_of_stuck (h : ¬ ((s.jobs b.jobName).isSome ∨
    (buildJobForStatus app b).toOption.isSome)) : s.startBuild app b = s := by
  unfold BuildStore.startBuild
  split
  · next hjob => simp [hjob] at h
  · next hexpected => simp [hexpected, Except.toOption] at h
  · rfl

theorem deployed_annotations :
    (s.deployed app).project.annotations = s.project.annotations :=
  (s.frame_applyWorkloads app).2.1

theorem followRecorded_annotations :
    (s.followRecorded app).project.annotations = s.project.annotations := by
  unfold BuildStore.followRecorded BuildStore.followJob
  split
  · exact deployed_annotations
  · split
    · split
      · exact afterJob_annotations _
      · rfl
    · split
      · exact afterJob_annotations _
      · rfl
    · exact deployed_annotations
    · rfl

theorem afterJob_checks (state : JobBuildState) :
    (s.afterJob app b state).checks = s.checks := by
  cases state with
  | running => rfl
  | failed reason message => rfl
  | succeeded =>
    unfold BuildStore.afterJob
    cases b.target with
    | production => rfl
    | preview => cases appliedPreview app b <;> rfl

theorem deployed_checks : (s.deployed app).checks = s.checks :=
  (s.frame_applyWorkloads app).2.2.2

theorem followRecorded_checks : (s.followRecorded app).checks = s.checks := by
  unfold BuildStore.followRecorded BuildStore.followJob
  split
  · exact deployed_checks
  · split
    · split
      · exact afterJob_checks _
      · rfl
    · split
      · exact afterJob_checks _
      · rfl
    · exact deployed_checks
    · rfl

theorem startBuild_checks : (s.startBuild app b).checks = s.checks := by
  unfold BuildStore.startBuild BuildStore.acceptBuild
  split
  · exact afterJob_checks _
  · exact afterJob_checks _
  · rfl

/-- A reconcile is asked for what the others are asked for. -/
theorem reconciled_checks : s.reconciled.checks = s.checks := by
  unfold BuildStore.reconciled
  split
  · dsimp only
    cases matchingPreviewBuildStatus s.project (s.project.annotations.prNumber.getD "") _ <;> rfl
  · split
    · exact startBuild_checks
    · split
      · exact followRecorded_checks
      · exact followRecorded_checks

/-- Following an active build changes its record, waits for its Job, or cannot apply its
preview. -/
private theorem followJob_progress (hbuild : s.project.build = some b) (hactive : b.Active)
    (hblocked : ¬ (b.target = .preview ∧ appliedPreview app b = none ∧
      ∃ job, s.jobs b.jobName = some job ∧ classifyJobState job = .succeeded)) :
    (s.followJob app b).project.build ≠ s.project.build ∨
      ∃ name job, (s.followJob app b).jobs name = some job ∧ classifyJobState job = .running := by
  have hmoved : (∃ r, (s.followJob app b).project.build = some r ∧ ¬ r.Active) →
      (s.followJob app b).project.build ≠ s.project.build := by
    rintro ⟨r, hr, hphase⟩ heq
    obtain rfl : r = b := Option.some.inj (hr.symm.trans (heq.trans hbuild))
    exact hphase hactive
  cases hjob : s.jobs b.jobName with
  | none =>
    refine .inl (hmoved ?_)
    simp only [BuildStore.followJob, hjob]
    refine ⟨_, rfl, ?_⟩
    rw [BuildStatus.Active, (sameBuild_merge ..).2]
    rintro (h | h) <;> cases h
  | some job =>
    have hfollow : s.followJob app b = s.afterJob app b (classifyJobState job) := by
      simp only [BuildStore.followJob, hjob]
    by_cases hrunning : classifyJobState job = .running
    · exact .inr ⟨b.jobName, job, by rw [hfollow, afterJob_jobs, hjob], hrunning⟩
    · refine .inl (hmoved ?_)
      rw [hfollow]
      refine afterJob_phase hrunning fun hsucceeded hpreview ↦ ?_
      cases happlied : appliedPreview app b with
      | some preview => rfl
      | none => exact absurd ⟨hpreview, happlied, job, hjob, hsucceeded⟩ hblocked

theorem recordedStop_of_succeeded (h : ∀ b, app.build = some b → b.phase = .succeeded) :
    recordedStop app = none := by
  unfold recordedStop
  cases hb : app.build with
  | none => rfl
  | some b => simp [Option.filter, h b hb]

/-- A Job that holds the gate back has not finished. -/
private theorem unfinished_of_running {jobs jobs' : NamespaceJobs}
    (h : migrationGate pluginChecks jobs app none = .ok (.running, jobs')) :
    ∃ name job, jobs' name = some job ∧ job.finished = false := by
  unfold migrationGate at h
  split at h
  · simp only [reconcileMigrationJobResource] at h
    split at h
    · next existing hexisting =>
      split at h
      · cases h
      · next hcompleted =>
        split at h
        · cases h
        · next hfailed =>
          obtain ⟨-, rfl⟩ := Prod.mk.inj (Except.ok.inj h)
          refine ⟨_, existing, hexisting, ?_⟩
          simp [NamespaceJob.finished, hcompleted, hfailed]
    · obtain ⟨desired, hdesired, h⟩ := bind_eq_ok.mp h
      split at h
      · obtain ⟨-, rfl⟩ := Prod.mk.inj (Except.ok.inj h)
        obtain ⟨-, -, -, -, -, hstatus⟩ := buildMigrationJob_ok hdesired
        refine ⟨_, _, Function.update_self .., ?_⟩
        simp [NamespaceJob.finished, NamespaceJob.status, hstatus, jobCompleted,
          jobConditionIsTrue]
      · cases h
  · cases h

/-- The gate leaves the migrations alone unless it starts one. -/
theorem migrations_of_gate {state : MigrationGateState}
    (h : s.migrationGate app = .ok (state, jobs))
    (hstarts : s.migrations (migrationJobName app (migrationRevisionKey app)) = none →
      state ≠ .running) : jobs = s.migrations := by
  have hgate := BuildStore.migrationGate_ok h
  unfold migrationGate at hgate
  split at hgate
  · simp only [reconcileMigrationJobResource] at hgate
    split at hgate
    · split at hgate
      · exact (Prod.mk.inj (Except.ok.inj hgate)).2.symm
      · split at hgate <;> exact (Prod.mk.inj (Except.ok.inj hgate)).2.symm
    · next hnone =>
      obtain ⟨desired, -, hcreated⟩ := bind_eq_ok.mp hgate
      split at hcreated
      · exact absurd (Prod.mk.inj (Except.ok.inj hcreated)).1.symm (hstarts hnone)
      · cases hcreated
  · exact (Prod.mk.inj (Except.ok.inj hgate)).2.symm

/-- A stuck migration gate stops the rest of `apply` before it changes a Job or a workload. -/
private theorem followRecorded_of_gateStuck
    (hsucceeded : ∀ b, app.build = some b → b.phase = .succeeded) (h : s.gateStuck app = true) :
    (s.followRecorded app).jobs = s.jobs ∧ (s.followRecorded app).migrations = s.migrations ∧
      (s.followRecorded app).workloads = s.workloads := by
  rw [BuildStore.followRecorded_of_succeeded hsucceeded]
  unfold BuildStore.gateStuck at h
  unfold BuildStore.deployed
  rcases s.perform_applyWorkloads app with ⟨-, heq⟩ | ⟨state, migrations, _, hgate, -, heq⟩
  · rw [heq]
    exact ⟨rfl, rfl, rfl⟩
  · simp only [hgate, decide_eq_true_eq] at h
    subst h
    rw [heq]
    exact ⟨rfl, migrations_of_gate hgate (by simp), rfl⟩

/-- What the rest of `apply` does when the migration gate is not stuck: it opens, or its Job has
not finished. -/
private theorem deployed_progress (h : s.gateStuck app = false) :
    s.gateOpens app = true ∨ ∃ name job, (s.deployed app).migrations name = some job ∧
      job.finished = false := by
  unfold BuildStore.gateStuck at h
  unfold BuildStore.gateOpens BuildStore.deployed
  rcases s.perform_applyWorkloads app with ⟨⟨e, hgate⟩, -⟩ | ⟨state, migrations, _, hgate, -, heq⟩
  · simp only [hgate, Bool.true_eq_false] at h
  · rw [hgate, heq]
    cases state with
    | notRequired | succeeded => exact .inl rfl
    | failed => simp only [hgate, decide_true, Bool.true_eq_false] at h
    | running =>
      right
      exact unfinished_of_running (BuildStore.migrationGate_ok hgate)

/-- A reconcile that is not stuck changes the Project, deploys the workloads or waits for a
Job. -/
theorem progress (hblocked : s.blocked = false) :
    watched s.reconciled.project ≠ watched s.project ∨
      (stoppedBy s.project = none ∧ s.gateOpens s.project = true) ∨
      ¬ s.reconciled.JobsFinished := by
  have hannotations : s.reconciled.project.annotations ≠ s.project.annotations →
      watched s.reconciled.project ≠ watched s.project := fun h heq ↦
    h (congrArg Prod.fst heq)
  by_cases hdelete : s.project.annotations.previewAction = some "delete"
  · refine .inl (hannotations fun heq ↦ ?_)
    have hcleared : s.reconciled.project.annotations = .cleared := by
      rw [BuildStore.reconciled, if_pos hdelete]
      rfl
    rw [← heq, hcleared] at hdelete
    cases hdelete
  cases hrequest : requestedBuild s.project with
  | some b =>
    have htrigger := (derivedBuild_of_requested hrequest).trigger
    have htaken := (derivedBuild_of_requested hrequest).taken
    refine .inl (hannotations fun heq ↦ ?_)
    have hcleared : s.reconciled.project.annotations = .cleared := by
      rw [BuildStore.reconciled_of_request hdelete hrequest]
      refine startBuild_annotations ?_
      cases hjob : s.jobs b.jobName with
      | some job => exact .inl rfl
      | none =>
        refine .inr ?_
        simpa [BuildStore.blocked, hdelete, htaken, hrequest, hjob, Option.isSome_iff_ne_none]
          using hblocked
    rw [← heq, hcleared] at htrigger
    cases htrigger
  | none =>
    by_cases hignored : ignoredPreviewRequest s.project
    · refine .inl (hannotations fun heq ↦ ?_)
      have hcleared : s.reconciled.project.annotations = .cleared := by
        rw [BuildStore.reconciled_of_no_request hdelete hrequest, if_pos hignored,
          followRecorded_annotations]
        rfl
      have htrigger : s.project.annotations.buildTrigger.isSome :=
        (Bool.and_eq_true_iff.mp hignored).1
      rw [← heq, hcleared] at htrigger
      cases htrigger
    · have hstop : stoppedBy s.project = recordedStop s.project := by
        rw [stoppedBy, if_neg hdelete, hrequest]
      have hdeployed (hsucceeded : ∀ b, s.project.build = some b → b.phase = .succeeded)
          (hstuck : s.gateStuck s.project = false) :
          watched (s.followRecorded s.project).project ≠ watched s.project ∨
            (recordedStop s.project = none ∧ s.gateOpens s.project = true) ∨
            ¬ (s.followRecorded s.project).JobsFinished := by
        rw [BuildStore.followRecorded_of_succeeded hsucceeded]
        rcases deployed_progress hstuck with hopens | ⟨name, job, hjob, hunfinished⟩
        · exact .inr (.inl ⟨recordedStop_of_succeeded hsucceeded, hopens⟩)
        · refine .inr (.inr fun hfinished ↦ ?_)
          rw [hfinished.migrations name job hjob] at hunfinished
          cases hunfinished
      rw [hstop, BuildStore.reconciled_of_no_request hdelete hrequest, if_neg hignored]
      simp only [BuildStore.blocked, hdelete, hignored, hrequest, ne_eq, not_false_eq_true,
        decide_true, Bool.not_false, Bool.true_and, Bool.and_true] at hblocked
      cases hbuild : s.project.build with
      | none =>
        rw [hbuild] at hblocked
        exact hdeployed (by simp [hbuild]) hblocked
      | some b =>
        rw [hbuild] at hblocked
        cases hphase : b.phase with
        | succeeded =>
          simp only [hphase] at hblocked
          exact hdeployed (by simp [hbuild, hphase]) hblocked
        | failed =>
          simp only [hphase, Bool.true_eq_false] at hblocked
        | pending | running =>
          have hactive : b.Active := by simp [BuildStatus.Active, hphase]
          rw [BuildStore.followRecorded_of_active hbuild hactive]
          refine (followJob_progress hbuild hactive ?_).imp
            (fun h heq ↦ h (congrArg (fun w ↦ w.2.2) heq)) ?_
          · rintro ⟨htarget, happlied, job, hjob, hsucceeded⟩
            simp [hphase, htarget, happlied, hjob, hsucceeded] at hblocked
          · rintro ⟨name, job, hjob, hrunning⟩
            exact .inr fun hfinished ↦ hfinished.builds name job hjob hrunning

/-- A stuck reconcile leaves all Jobs and the workloads alone. -/
theorem reconciled_of_blocked (h : s.blocked) :
    s.reconciled.jobs = s.jobs ∧ s.reconciled.migrations = s.migrations ∧
      s.reconciled.workloads = s.workloads := by
  simp only [BuildStore.blocked, Bool.and_eq_true, Bool.not_eq_true', decide_eq_true_eq] at h
  obtain ⟨⟨hdelete, hignored⟩, hstuck⟩ := h
  have hsame (t : BuildStore) (ht : t = s) : t.jobs = s.jobs ∧ t.migrations = s.migrations ∧
      t.workloads = s.workloads := by
    subst ht
    exact ⟨rfl, rfl, rfl⟩
  cases hrequest : requestedBuild s.project with
  | some b =>
    rw [BuildStore.reconciled_of_request hdelete hrequest]
    refine hsame _ (startBuild_of_stuck ?_)
    simpa [hrequest] using hstuck
  | none =>
    rw [BuildStore.reconciled_of_no_request hdelete hrequest, hignored]
    cases hbuild : s.project.build with
    | none =>
      simp only [hrequest, hbuild] at hstuck
      exact followRecorded_of_gateStuck (by simp [hbuild]) hstuck
    | some b =>
      simp only [hrequest, hbuild] at hstuck
      cases hp : b.phase with
      | pending | running =>
        simp only [hp, Bool.and_eq_true, decide_eq_true_eq, Option.any_eq_true] at hstuck
        obtain ⟨⟨htarget, happlied⟩, job, hjob, hsucceeded⟩ := hstuck
        have hfollow : s.followJob s.project b = s := by
          simp [BuildStore.followJob, hjob, hsucceeded, BuildStore.afterJob, htarget,
            Option.isNone_iff_eq_none.mp happlied]
        exact hsame _ ((BuildStore.followRecorded_of_active hbuild
          (by simp [BuildStatus.Active, hp])).trans hfollow)
      | failed => exact hsame _ (BuildStore.followRecorded_of_failed hbuild hp)
      | succeeded =>
        simp only [hp] at hstuck
        exact followRecorded_of_gateStuck (by simp [hbuild, hp]) hstuck

end Reconciled

/-- No request renames the Project. -/
theorem runOn_name {α : Type} (p : BuildProgram α) (s : BuildStore) :
    (p.runOn s).1.project.name = s.project.name := by
  have hperform : ∀ (s : BuildStore) (c : BuildCall),
      (s.perform c).1.project.name = s.project.name := by
    intro s c
    cases c with
    | createJob job => simp only [BuildStore.perform]; split <;> rfl
    | deleteJob name => simp only [BuildStore.perform]; split <;> rfl
    | deletePreviewProject name => simp only [BuildStore.perform]; split <;> rfl
    | applyWorkloads app => exact (s.frame_applyWorkloads app).1.name
    | _ => rfl
  induction p generalizing s with
  | done r => rfl
  | call c next ih => rw [runOn_call, ih, hperform]

/-- A reconcile, in terms of the store alone. -/
theorem ControlState.reconcile_eq (s : ControlState) : s.reconcile =
    { store := s.store.reconciled
      requested := watched s.store.reconciled.project ≠ watched s.store.project
      held := heldAfter s.held s.store.project (stoppedBy s.store.project)
        (s.store.gateOpens s.store.project) } := by
  simp only [ControlState.reconcile, runOn_applyProject]

/-! ## The Jobs of a run -/

/-- There are no Jobs but these. -/
structure BuildStore.Holds (s : BuildStore) (builds migrations : List String) : Prop where
  builds : ∀ name, name ∉ builds → s.jobs name = none
  migrations : ∀ name, name ∉ migrations → s.migrations name = none

/-- A Job that the event creates is among these. -/
def CreatesAmong (builds migrations : List String) (s : ControlState) : ControlEvent → Prop
  | .reconcile => (∀ b ∈ requestedBuild s.store.project, b.jobName ∈ builds) ∧
      (shouldProvisionPostgresql s.store.project = true →
        migrationJobName s.store.project (migrationRevisionKey s.store.project) ∈ migrations)
  | _ => True

instance (builds migrations : List String) (s : ControlState) :
    (e : ControlEvent) → Decidable (CreatesAmong builds migrations s e)
  | .reconcile => inferInstanceAs (Decidable ((∀ b ∈ requestedBuild s.store.project, _) ∧ (_ → _)))
  | .edit _ | .trigger _ | .previewCreate _ _ _ | .previewDelete _ | .reportJob _ _ | .deleteJob _
  | .reportMigration _ _ => .isTrue trivial

namespace BuildStore.Holds

variable {builds migrations : List String} {app : Project} {s : BuildStore} {b : BuildStatus}

theorem afterJob (h : s.Holds builds migrations) (state : JobBuildState) :
    (s.afterJob app b state).Holds builds migrations := by
  cases state with
  | running => exact ⟨h.builds, h.migrations⟩
  | failed reason message => exact ⟨h.builds, h.migrations⟩
  | succeeded =>
    unfold BuildStore.afterJob
    cases b.target with
    | production => exact ⟨h.builds, h.migrations⟩
    | preview => cases appliedPreview app b <;> exact ⟨h.builds, h.migrations⟩

/-- The migration gate creates at most the Job of the revision. -/
theorem deployed (h : s.Holds builds migrations)
    (hmigration : shouldProvisionPostgresql app = true →
      migrationJobName app (migrationRevisionKey app) ∈ migrations) :
    (s.deployed app).Holds builds migrations := by
  unfold BuildStore.deployed
  rcases s.perform_applyWorkloads app with ⟨-, heq⟩ | ⟨state, jobs, _, hgate, -, heq⟩
  · rwa [heq]
  · rw [heq]
    refine ⟨h.builds, fun name hname ↦ ?_⟩
    have hother (hprovision : shouldProvisionPostgresql app = true) :
        name ≠ migrationJobName app (migrationRevisionKey app) :=
      fun hsame ↦ hname (hsame ▸ hmigration hprovision)
    show jobs name = none
    rw [← h.migrations name hname]
    replace hgate := BuildStore.migrationGate_ok hgate
    unfold Operator.migrationGate at hgate
    split at hgate
    · next hprovision =>
      simp only [reconcileMigrationJobResource] at hgate
      split at hgate
      · split at hgate
        · rw [← (Prod.mk.inj (Except.ok.inj hgate)).2]
        · split at hgate <;> rw [← (Prod.mk.inj (Except.ok.inj hgate)).2]
      · obtain ⟨desired, -, hcreated⟩ := bind_eq_ok.mp hgate
        split at hcreated
        · rw [← (Prod.mk.inj (Except.ok.inj hcreated)).2]
          exact Function.update_of_ne (hother hprovision) _ _
        · cases hcreated
    · rw [← (Prod.mk.inj (Except.ok.inj hgate)).2]

theorem followRecorded (h : s.Holds builds migrations)
    (hmigration : shouldProvisionPostgresql app = true →
      migrationJobName app (migrationRevisionKey app) ∈ migrations) :
    (s.followRecorded app).Holds builds migrations := by
  have hfollow : ∀ b, (s.followJob app b).Holds builds migrations := by
    intro b
    unfold BuildStore.followJob
    split
    · exact h.afterJob _
    · exact ⟨h.builds, h.migrations⟩
  unfold BuildStore.followRecorded
  split
  · exact h.deployed hmigration
  · split
    · exact hfollow _
    · exact hfollow _
    · exact h.deployed hmigration
    · exact h

theorem startBuild (h : s.Holds builds migrations) (hbuild : b.jobName ∈ builds) :
    (s.startBuild app b).Holds builds migrations := by
  unfold BuildStore.startBuild BuildStore.acceptBuild
  split
  · have haccepted : (s.record b).clearAnnotations.Holds builds migrations :=
      ⟨h.builds, h.migrations⟩
    exact haccepted.afterJob _
  · next job _ _ =>
    have haccepted : ((s.addJob b.jobName job).record b).clearAnnotations.Holds builds
        migrations := by
      refine ⟨fun name hname ↦ ?_, h.migrations⟩
      have hother : name ≠ b.jobName := fun hsame ↦ hname (hsame ▸ hbuild)
      exact (Function.update_of_ne hother _ _).trans (h.builds name hname)
    exact haccepted.afterJob _
  · exact h

/-- A reconcile creates at most the Jobs of the requested build and of the revision. -/
theorem reconciled (h : s.Holds builds migrations)
    (hbuild : ∀ b ∈ requestedBuild s.project, b.jobName ∈ builds)
    (hmigration : shouldProvisionPostgresql s.project = true →
      migrationJobName s.project (migrationRevisionKey s.project) ∈ migrations) :
    s.reconciled.Holds builds migrations := by
  unfold BuildStore.reconciled
  split
  · dsimp only
    cases matchingPreviewBuildStatus s.project (s.project.annotations.prNumber.getD "") _ with
    | none => exact ⟨h.builds, h.migrations⟩
    | some b =>
      refine ⟨fun name hname ↦ ?_, h.migrations⟩
      show (if isBlank b.jobName then s.jobs else Function.update s.jobs b.jobName none) name = none
      split
      · exact h.builds name hname
      · rw [Function.update_apply]
        split
        · rfl
        · exact h.builds name hname
  · split
    · next b hb => exact h.startBuild (hbuild b hb)
    · split
      · exact followRecorded ⟨h.builds, h.migrations⟩ hmigration
      · exact h.followRecorded hmigration

/-- An event adds at most a Job that it creates. -/
theorem step {s : ControlState} (h : s.store.Holds builds migrations) {e : ControlEvent}
    (hcreates : CreatesAmong builds migrations s e) :
    (controlStep s e).store.Holds builds migrations := by
  cases e with
  | edit f => exact ⟨h.builds, h.migrations⟩
  | trigger commitSha => exact ⟨h.builds, h.migrations⟩
  | previewCreate prNumber branch commitSha => exact ⟨h.builds, h.migrations⟩
  | previewDelete prNumber => exact ⟨h.builds, h.migrations⟩
  | reconcile =>
    show s.reconcile.store.Holds builds migrations
    rw [ControlState.reconcile_eq]
    exact h.reconciled hcreates.1 hcreates.2
  | reportJob job status =>
    simp only [controlStep, buildEvent]
    cases hjob : s.store.jobs job with
    | none => exact h
    | some found =>
      refine ⟨fun name hname ↦ ?_, h.migrations⟩
      have hother : name ≠ job := by
        rintro rfl
        rw [h.builds name hname] at hjob
        cases hjob
      exact (Function.update_of_ne hother _ _).trans (h.builds name hname)
  | deleteJob job =>
    simp only [controlStep]
    split
    · refine ⟨fun name hname ↦ ?_, h.migrations⟩
      show Function.update s.store.jobs job none name = none
      rw [Function.update_apply]
      split
      · rfl
      · exact h.builds name hname
    · exact h
  | reportMigration job status =>
    simp only [controlStep, buildEvent]
    cases hjob : s.store.migrations job with
    | none => exact h
    | some found =>
      refine ⟨h.builds, fun name hname ↦ ?_⟩
      have hother : name ≠ job := by
        rintro rfl
        rw [h.migrations name hname] at hjob
        cases hjob
      exact (Function.update_of_ne hother _ _).trans (h.migrations name hname)

theorem run {s : ControlState} {events : List ControlEvent} (h : s.store.Holds builds migrations)
    (hcreates : Along controlStep (CreatesAmong builds migrations) s events) :
    (s.run events).store.Holds builds migrations := by
  induction events generalizing s with
  | nil => exact h
  | cons e rest ih => exact ih (h.step hcreates.1) hcreates.2

/-- Only the Jobs that a run has created need to be looked at. -/
theorem finished (h : s.Holds builds migrations)
    (hbuilds : ∀ name ∈ builds, ∀ job ∈ s.jobs name, classifyJobState job ≠ .running)
    (hmigrations : ∀ name ∈ migrations, ∀ job ∈ s.migrations name, job.finished = true) :
    s.JobsFinished :=
  ⟨finished_of_names builds h.builds hbuilds, finished_of_names migrations h.migrations hmigrations⟩

end BuildStore.Holds

end ReinhardtCloud.Operator

import Mathlib.Data.Set.Defs
import Mathlib.Logic.Function.Basic
import ReinhardtCloud.Base.Run
import ReinhardtCloud.Operator.ArtifactNames
import ReinhardtCloud.Operator.BuildRuns
import ReinhardtCloud.Operator.Migration

/-!
# The migration gate over runs

Library `Operator`. Reconciles of any Projects of one namespace, interleaved with their Kaniko
builds, with what the Job controller reports and with deletions of Jobs. A reconcile is one step:
its create is refused when a Job of the name has come up since the look-up, and its delete has the
Job's UID as a precondition. The state keeps the migrations that have completed so far.
-/

namespace ReinhardtCloud.Operator

open ReinhardtCloud.Base

/-- The Jobs of the namespace, and the owners and revision keys of the migrations completed so
far. -/
structure MigrationState where
  jobs : NamespaceJobs
  completed : List (Uid × String)

/-- A namespace before the first reconcile. -/
def noJobs : MigrationState := ⟨fun _ ↦ none, []⟩

/-- What happens in a namespace: a reconcile of a Project with the Redis Secret it has validated,
the creation of its Kaniko Job, a report of the Job controller, the deletion of a Job. -/
inductive MigrationEvent where
  | reconcile (app : Project) (redisProvenance : Option Uid)
  | build (app : Project)
  | report (jobName : String) (status : JobStatus)
  | delete (jobName : String)

/-- The Kaniko Job of a Project's build request. -/
def requestedBuildJob (app : Project) : Option Job :=
  (requestedBuild app).bind fun build ↦ (buildJobForStatus app build).toOption

/-- The completed migration a Job's success adds. -/
def completedRevision : NamespaceJob → List (Uid × String)
  | .migration job => [(job.owner, job.revisionKey)]
  | .build _ _ => []

/-- One step. A reconcile or a build that fails changes nothing, and no Job is created under a name
that the API server does not admit. -/
def migrationStep (checks : PodChecks) (s : MigrationState) : MigrationEvent → Option MigrationState
  | .reconcile app redisProvenance =>
    match migrationGate checks s.jobs app redisProvenance with
    | .ok (_, jobs) => some { s with jobs := jobs }
    | .error _ => some s
  | .build app =>
    match app.uid, requestedBuildJob app with
    | some uid, some job =>
      match s.jobs job.name with
      | some _ => some s
      | none =>
        if isJobName job.name then
          some { s with jobs := Function.update s.jobs job.name (some (.build uid job)) }
        else some s
    | _, _ => some s
  | .report jobName status =>
    (s.jobs jobName).map fun job ↦
      { jobs := Function.update s.jobs jobName (some (job.withStatus status))
        completed := (if jobCompleted (some status) then completedRevision job else []) ++
          s.completed }
  | .delete jobName => some { s with jobs := Function.update s.jobs jobName none }

/-- The event is one of the given Projects, or of nobody. -/
def EventOf (S : Set Project) : MigrationEvent → Prop
  | .reconcile app _ => app ∈ S
  | .build app => app ∈ S
  | .report _ _ => True
  | .delete _ => True

/-- The gate of a Project that needs a database is honest in a state: the Job it consults is the
Project's own, and it opens only after a migration of the Project to this revision. -/
def GateHonest (checks : PodChecks) (s : MigrationState) (app : Project)
    (redisProvenance : Option Uid) : Prop :=
  (∀ job, s.jobs (migrationJobName app (migrationRevisionKey app)) = some job →
    app.uid = some job.owner) ∧
  ∀ state jobs, migrationGate checks s.jobs app redisProvenance = .ok (state, jobs) →
    state.opens = true → ∃ uid, app.uid = some uid ∧ (uid, migrationRevisionKey app) ∈ s.completed

/-- Every reconcile of a run meets an honest gate. -/
def GatesHonest (checks : PodChecks) (tr : List (Transition MigrationState MigrationEvent)) :
    Prop :=
  ∀ x ∈ tr, ∀ app redisProvenance, x.action = .reconcile app redisProvenance →
    shouldProvisionPostgresql app = true → GateHonest checks x.before app redisProvenance

/-- A Project whose migration Job is built and admitted: it has a database, it passes the checks of
its Pods, and the Job's name is a label. -/
structure MigrationStarts (checks : PodChecks) (Q : Project) : Prop where
  database : shouldProvisionPostgresql Q = true
  plugins : checks.plugins Q = .ok ()
  secrets : ∃ secrets, Q.validatedImagePullSecrets = .ok secrets
  name : isJobName (migrationJobName Q (migrationRevisionKey Q)) = true

/-- No Job of one of the Projects has the name of a migration Job that is not its own. -/
structure JobNamesApart (checks : PodChecks) (S : Set Project) : Prop where
  /-- Two Projects that migrate to one revision differ in their truncated names. -/
  migrations : ∀ P ∈ S, ∀ Q ∈ S, shouldProvisionPostgresql P = true →
    MigrationStarts checks Q → P.uid ≠ Q.uid → truncatedName P.name 38 = truncatedName Q.name 38 →
    migrationRevisionKey P ≠ migrationRevisionKey Q
  /-- No requested Kaniko Job is named like a migration. -/
  builds : ∀ P ∈ S, ∀ Q ∈ S, shouldProvisionPostgresql P = true → ∀ job,
    requestedBuildJob Q = some job → isJobName job.name = true →
    job.name ≠ migrationJobName P (migrationRevisionKey P)

/-! ## One reconcile -/

section

variable {checks : PodChecks} {S : Set Project} {s t : MigrationState} {app : Project}
  {redisProvenance : Option Uid}

/-- A Project with a namespace and a UID gets a migration Job unless a check fails. -/
private theorem exists_migrationJob (revisionKey : String)
    (hplugins : checks.plugins app = .ok ())
    (hsecrets : ∃ secrets, app.validatedImagePullSecrets = .ok secrets)
    (happ : app.ns.isSome = true ∧ app.uid.isSome = true) :
    ∃ job, buildMigrationJob checks app revisionKey = .ok job := by
  obtain ⟨⟨ns, hns⟩, ⟨uid, huid⟩⟩ := happ.imp Option.isSome_iff_exists.mp
    Option.isSome_iff_exists.mp
  obtain ⟨secrets, hsecrets⟩ := hsecrets
  simp only [buildMigrationJob, requireNamespace, ownerReference, hns, huid, hplugins, hsecrets]
  exact ⟨_, rfl⟩

/-- What the gate does: it opens for a Project without a database, and else for a completed Job of
the revision's name; it creates or deletes the Job of that name or leaves the Jobs alone. -/
theorem migrationGate_cases {jobs jobs' : NamespaceJobs} {state : MigrationGateState}
    (h : migrationGate checks jobs app redisProvenance = .ok (state, jobs')) :
    shouldProvisionPostgresql app = false ∧ jobs' = jobs ∨
    shouldProvisionPostgresql app = true ∧
      ((∃ job, jobs (migrationJobName app (migrationRevisionKey app)) = some job ∧
          (state.opens = true → jobCompleted job.status = true) ∧
          (jobs' = jobs ∨
            jobs' = Function.update jobs (migrationJobName app (migrationRevisionKey app)) none)) ∨
        state.opens = false ∧ jobs (migrationJobName app (migrationRevisionKey app)) = none ∧
          ∃ desired, buildMigrationJob checks app (migrationRevisionKey app) = .ok desired ∧
            isJobName (migrationJobName app (migrationRevisionKey app)) = true ∧
            jobs' = Function.update jobs (migrationJobName app (migrationRevisionKey app))
              (some (.migration { desired with redisCredentialsUid := redisProvenance }))) := by
  unfold migrationGate at h
  split at h
  · next hdb =>
    right
    refine ⟨hdb, ?_⟩
    simp only [reconcileMigrationJobResource] at h
    cases hjob : jobs (migrationJobName app (migrationRevisionKey app)) with
    | some job =>
      left
      rw [hjob] at h
      refine ⟨job, rfl, ?_⟩
      simp only at h
      split at h
      · next hcompleted =>
        obtain ⟨rfl, rfl⟩ := Prod.mk.inj (Except.ok.inj h)
        exact ⟨fun _ ↦ hcompleted, .inl rfl⟩
      · split at h
        · split at h
          · obtain ⟨rfl, rfl⟩ := Prod.mk.inj (Except.ok.inj h)
            exact ⟨(fun hopens ↦ nomatch hopens), .inr rfl⟩
          · obtain ⟨rfl, rfl⟩ := Prod.mk.inj (Except.ok.inj h)
            exact ⟨(fun hopens ↦ nomatch hopens), .inl rfl⟩
        · obtain ⟨rfl, rfl⟩ := Prod.mk.inj (Except.ok.inj h)
          exact ⟨(fun hopens ↦ nomatch hopens), .inl rfl⟩
    | none =>
      right
      rw [hjob] at h
      obtain ⟨desired, hdesired, h⟩ := bind_eq_ok.mp h
      split at h
      · next hname =>
        obtain ⟨rfl, rfl⟩ := Prod.mk.inj (Except.ok.inj h)
        exact ⟨rfl, rfl, desired, hdesired, hname, rfl⟩
      · cases h
  · next hdb =>
    left
    obtain ⟨-, rfl⟩ := Prod.mk.inj (Except.ok.inj h)
    exact ⟨Bool.not_eq_true _ ▸ hdb, rfl⟩

/-- The Job under a name was created for one of the Projects, and a migration that has completed is
recorded. -/
def Explained (checks : PodChecks) (S : Set Project) (completed : List (Uid × String))
    (jobName : String) : NamespaceJob → Prop
  | .migration job =>
    (∃ Q ∈ S, MigrationStarts checks Q ∧ Q.uid = some job.owner ∧
      job.revisionKey = migrationRevisionKey Q ∧
      jobName = migrationJobName Q (migrationRevisionKey Q)) ∧
    (jobCompleted job.status = true → (job.owner, job.revisionKey) ∈ completed)
  | .build _ _ => ∃ Q ∈ S, ∃ job, requestedBuildJob Q = some job ∧
    isJobName job.name = true ∧ jobName = job.name

/-- Every Job is explained. -/
def JobsExplained (checks : PodChecks) (S : Set Project) (s : MigrationState) : Prop :=
  ∀ jobName job, s.jobs jobName = some job → Explained checks S s.completed jobName job

private theorem jobsExplained_update {jobs : NamespaceJobs}
    {completed completed' : List (Uid × String)}
    {jobName : String} {job : Option NamespaceJob} (hs : JobsExplained checks S ⟨jobs, completed⟩)
    (hsub : completed ⊆ completed')
    (hjob : ∀ j, job = some j → Explained checks S completed' jobName j) :
    JobsExplained checks S ⟨Function.update jobs jobName job, completed'⟩ := by
  intro name j hj
  simp only [Function.update_apply] at hj
  split at hj
  · next heq =>
    subst heq
    exact hjob j hj
  · have hold := hs name j hj
    cases j with
    | migration m => exact ⟨hold.1, fun hm ↦ hsub (hold.2 hm)⟩
    | build owner b => exact hold

private theorem jobsExplained_step (hs : JobsExplained checks S s) {e : MigrationEvent}
    (hS : EventOf S e) (h : migrationStep checks s e = some t) : JobsExplained checks S t := by
  cases e with
  | reconcile app redisProvenance =>
    simp only [migrationStep] at h
    split at h
    · next state jobs hgate =>
      obtain rfl := Option.some.inj h
      rcases migrationGate_cases hgate with ⟨-, rfl⟩ | ⟨hdb, ⟨job, hjob, -, rfl | rfl⟩ |
        ⟨-, hnone, desired, hdesired, hname, rfl⟩⟩
      · exact hs
      · exact hs
      · exact jobsExplained_update hs (List.Subset.refl _) (by simp)
      · refine jobsExplained_update hs (List.Subset.refl _) ?_
        intro j hj
        obtain rfl := Option.some.inj hj
        obtain ⟨-, howner, hplugins, hsecrets, hkey, hstatus⟩ := buildMigrationJob_ok hdesired
        refine ⟨⟨app, hS, ⟨hdb, hplugins, hsecrets, hname⟩, howner, hkey, rfl⟩, ?_⟩
        intro hcompleted
        rw [show _ = none from hstatus] at hcompleted
        cases hcompleted
    · obtain rfl := Option.some.inj h
      exact hs
  | build app =>
    simp only [migrationStep] at h
    split at h
    · next uid job huid hjob =>
      split at h
      · obtain rfl := Option.some.inj h
        exact hs
      · split at h
        · next hname =>
          obtain rfl := Option.some.inj h
          refine jobsExplained_update hs (List.Subset.refl _) ?_
          intro j hj
          obtain rfl := Option.some.inj hj
          exact ⟨app, hS, job, hjob, hname, rfl⟩
        · obtain rfl := Option.some.inj h
          exact hs
    · obtain rfl := Option.some.inj h
      exact hs
  | report jobName status =>
    simp only [migrationStep, Option.map_eq_some_iff] at h
    obtain ⟨job, hjob, rfl⟩ := h
    have hold := hs jobName job hjob
    refine jobsExplained_update hs (List.subset_append_right _ _) ?_
    intro j hj
    obtain rfl := Option.some.inj hj
    cases job with
    | build owner b => exact hold
    | migration m =>
      refine ⟨hold.1, ?_⟩
      intro hcompleted
      have hstatus : jobCompleted (some status) = true := hcompleted
      rw [if_pos hstatus]
      exact List.mem_cons_self
  | delete jobName =>
    obtain rfl := Option.some.inj h
    exact jobsExplained_update hs (List.Subset.refl _) (by simp)

/-- Where the names are apart, an explained Job under a migration's name is that migration. -/
private theorem eq_of_explained (hapart : JobNamesApart checks S)
    (hfnv : ∀ P ∈ S, ∀ Q ∈ S, revisionHash (migrationRevisionKey P) =
      revisionHash (migrationRevisionKey Q) → migrationRevisionKey P = migrationRevisionKey Q)
    (happ : app ∈ S) (hdb : shouldProvisionPostgresql app = true)
    {completed : List (Uid × String)} {job : NamespaceJob}
    (h : Explained checks S completed (migrationJobName app (migrationRevisionKey app)) job) :
    app.uid = some job.owner ∧ (jobCompleted job.status = true →
      (job.owner, migrationRevisionKey app) ∈ completed) := by
  cases job with
  | build owner b =>
    obtain ⟨Q, hQ, job, hjob, hadmitted, hname⟩ := h
    exact absurd hname.symm (hapart.builds app happ Q hQ hdb job hjob hadmitted)
  | migration m =>
    obtain ⟨⟨Q, hQ, hstarts, howner, hkey, hname⟩, hcompleted⟩ := h
    rw [migrationJobName_eq_iff] at hname
    have hsame := hfnv app happ Q hQ (revisionHash_eq_of_id hname.2)
    have huid : app.uid = Q.uid := by
      by_contra hne
      exact hapart.migrations app happ Q hQ hdb hstarts hne hname.1 hsame
    rw [hsame, ← hkey]
    exact ⟨huid.trans howner, hcompleted⟩

/-- An explained state meets every reconcile with an honest gate. -/
private theorem gateHonest_of_explained (hapart : JobNamesApart checks S)
    (hfnv : ∀ P ∈ S, ∀ Q ∈ S, revisionHash (migrationRevisionKey P) =
      revisionHash (migrationRevisionKey Q) → migrationRevisionKey P = migrationRevisionKey Q)
    (hs : JobsExplained checks S s) (happ : app ∈ S)
    (hdb : shouldProvisionPostgresql app = true) : GateHonest checks s app redisProvenance := by
  constructor
  · intro job hjob
    exact (eq_of_explained hapart hfnv happ hdb (hs _ job hjob)).1
  · intro state jobs hgate hopens
    rcases migrationGate_cases hgate with ⟨hnone, -⟩ |
      ⟨-, ⟨job, hjob, hcompleted, -⟩ | ⟨hclosed, -⟩⟩
    · rw [hdb] at hnone
      cases hnone
    · obtain ⟨huid, hrecorded⟩ := eq_of_explained hapart hfnv happ hdb (hs _ job hjob)
      exact ⟨job.owner, huid, hrecorded (hcompleted hopens)⟩
    · rw [hclosed] at hopens
      cases hopens

/-! ## When a gate opens for somebody else's Job -/

/-- The report of a Job that has succeeded. -/
def succeededStatus : JobStatus := ⟨some 1, none, none⟩

private theorem jobCompleted_succeeded : jobCompleted (some succeededStatus) = true := rfl

/-- Once a Job under its name has succeeded, the gate opens. -/
private theorem migrationGate_of_completed {jobs : NamespaceJobs} {job : NamespaceJob}
    (hdb : shouldProvisionPostgresql app = true)
    (hjob : jobs (migrationJobName app (migrationRevisionKey app)) = some job)
    (hcompleted : jobCompleted job.status = true) :
    migrationGate checks jobs app redisProvenance = .ok (.succeeded, jobs) := by
  simp only [migrationGate, hdb, ↓reduceIte, reconcileMigrationJobResource, hjob, hcompleted]

private theorem migrationGate_of_absent {jobs : NamespaceJobs} {desired : MigrationJob}
    (hdb : shouldProvisionPostgresql app = true)
    (hdesired : buildMigrationJob checks app (migrationRevisionKey app) = .ok desired)
    (hname : isJobName (migrationJobName app (migrationRevisionKey app)) = true)
    (hnone : jobs (migrationJobName app (migrationRevisionKey app)) = none) :
    migrationGate checks jobs app redisProvenance =
      .ok (.running, Function.update jobs (migrationJobName app (migrationRevisionKey app))
        (some (.migration { desired with redisCredentialsUid := redisProvenance }))) := by
  simp only [migrationGate, hdb, ↓reduceIte, reconcileMigrationJobResource, hnone, hdesired, hname]
  rfl

/-- After one step that puts another Job under its name, the gate of a Project can be met open
without a migration of the Project. -/
private theorem exists_dishonest_run {e : MigrationEvent} {job : NamespaceJob} (he : EventOf S e)
    (happ : app ∈ S) (hdb : shouldProvisionPostgresql app = true)
    (hstep : migrationStep checks noJobs e = some s)
    (hjob : s.jobs (migrationJobName app (migrationRevisionKey app)) = some job)
    (hnone : s.completed = [])
    (hother : ∀ uid, app.uid = some uid →
      (uid, migrationRevisionKey app) ∉ completedRevision job) :
    ∃ tr t, Run (migrationStep checks) noJobs tr t ∧ (∀ x ∈ tr, EventOf S x.action) ∧
      ¬ GatesHonest checks tr := by
  obtain ⟨u, hu⟩ : ∃ u, u = MigrationState.mk
      (Function.update s.jobs (migrationJobName app (migrationRevisionKey app))
        (some (job.withStatus succeededStatus))) (completedRevision job) := ⟨_, rfl⟩
  have hreport : migrationStep checks s
      (.report (migrationJobName app (migrationRevisionKey app)) succeededStatus) = some u := by
    simp only [migrationStep, hjob, Option.map_some, hnone, hu, List.append_nil,
      jobCompleted_succeeded, ↓reduceIte]
  have hstored : u.jobs (migrationJobName app (migrationRevisionKey app)) =
      some (job.withStatus succeededStatus) := by
    simp only [hu, Function.update_self]
  have hgate : migrationGate checks u.jobs app none = .ok (.succeeded, u.jobs) := by
    apply migrationGate_of_completed hdb hstored
    rw [NamespaceJob.status_withStatus]
    exact jobCompleted_succeeded
  have hreconcile : migrationStep checks u (.reconcile app none) = some u := by
    simp only [migrationStep, hgate]
  refine ⟨_, _, ((Run.nil.snoc hstep).snoc hreport).snoc hreconcile, ?_, ?_⟩
  · intro x hx
    simp only [List.nil_append, List.mem_append, List.mem_singleton] at hx
    rcases hx with (rfl | rfl) | rfl
    · exact he
    · trivial
    · exact happ
  · intro hhonest
    obtain ⟨-, hopens⟩ := hhonest ⟨u, .reconcile app none, u⟩ (by simp) app none rfl hdb
    obtain ⟨uid, huid, hrecorded⟩ := hopens _ _ hgate rfl
    rw [hu] at hrecorded
    exact hother uid huid hrecorded

/-- So it is for two Projects that share a truncated name and a revision. -/
private theorem exists_dishonest_run_of_shared {P Q : Project} (hP : P ∈ S) (hQ : Q ∈ S)
    (hPdb : shouldProvisionPostgresql P = true) (hstarts : MigrationStarts checks Q)
    (hobject : Q.ns.isSome = true ∧ Q.uid.isSome = true) (hne : P.uid ≠ Q.uid)
    (hstart : truncatedName P.name 38 = truncatedName Q.name 38)
    (hkey : migrationRevisionKey P = migrationRevisionKey Q) :
    ∃ tr t, Run (migrationStep checks) noJobs tr t ∧ (∀ x ∈ tr, EventOf S x.action) ∧
      ¬ GatesHonest checks tr := by
  obtain ⟨desired, hdesired⟩ :=
    exists_migrationJob (migrationRevisionKey Q) hstarts.plugins hstarts.secrets hobject
  have hname : migrationJobName Q (migrationRevisionKey Q) =
      migrationJobName P (migrationRevisionKey P) :=
    migrationJobName_eq_iff.mpr ⟨hstart.symm, congrArg migrationRevisionId hkey.symm⟩
  have hstep : migrationStep checks noJobs (.reconcile Q none) = some ⟨Function.update
      noJobs.jobs (migrationJobName Q (migrationRevisionKey Q))
        (some (.migration { desired with redisCredentialsUid := none })), []⟩ := by
    have hnone : noJobs.jobs (migrationJobName Q (migrationRevisionKey Q)) = none := rfl
    simp only [migrationStep, migrationGate_of_absent hstarts.database hdesired hstarts.name hnone]
    rfl
  obtain ⟨-, howner, -⟩ := buildMigrationJob_ok hdesired
  have hother : ∀ uid, P.uid = some uid → (uid, migrationRevisionKey P) ∉
      completedRevision (.migration { desired with redisCredentialsUid := none }) := by
    intro uid huid hmem
    obtain rfl := (Prod.mk.inj (List.mem_singleton.mp hmem)).1
    exact hne (huid.trans howner.symm)
  have he : EventOf S (.reconcile Q none) := hQ
  exact exists_dishonest_run he hP hPdb hstep
    (by simp only [← hname, Function.update_self]) rfl hother

/-- The reconciles of any Projects of a namespace meet honest gates in every run exactly when the
names of their Jobs are apart. -/
theorem migration_gates_honest_iff (checks : PodChecks) (S : Set Project)
    (hS : ∀ app ∈ S, app.ns.isSome = true ∧ app.uid.isSome = true)
    (hfnv : ∀ P ∈ S, ∀ Q ∈ S, revisionHash (migrationRevisionKey P) =
      revisionHash (migrationRevisionKey Q) → migrationRevisionKey P = migrationRevisionKey Q) :
    (∀ tr s, Run (migrationStep checks) noJobs tr s → (∀ x ∈ tr, EventOf S x.action) →
      GatesHonest checks tr) ↔ JobNamesApart checks S := by
  constructor
  · intro hhonest
    constructor
    · intro P hP Q hQ hPdb hstarts hne hstart hkey
      obtain ⟨tr, s, hrun, hevents, hnot⟩ := exists_dishonest_run_of_shared hP hQ hPdb hstarts
        (hS Q hQ) hne hstart hkey
      exact hnot (hhonest tr s hrun hevents)
    · intro P hP Q hQ hPdb job hjob hadmitted hname
      obtain ⟨uid, huid⟩ := Option.isSome_iff_exists.mp (hS Q hQ).2
      have hstep : migrationStep checks noJobs (.build Q) =
          some ⟨Function.update noJobs.jobs job.name (some (.build uid job)), []⟩ := by
        simp only [migrationStep, huid, hjob, noJobs, hadmitted, ↓reduceIte]
      have he : EventOf S (.build Q) := hQ
      have hother : ∀ owner, P.uid = some owner → (owner, migrationRevisionKey P) ∉
          completedRevision (.build uid job) := fun _ _ ↦ List.not_mem_nil
      obtain ⟨tr, s, hrun, hevents, hnot⟩ := exists_dishonest_run he hP hPdb hstep
        (by simp only [← hname, Function.update_self]) rfl hother
      exact hnot (hhonest tr s hrun hevents)
  · intro hapart tr s hrun hevents x hx app redisProvenance haction hdb
    have hinit : JobsExplained checks S noJobs := fun _ _ h ↦ nomatch h
    have hinv := Run.safe_of_condition (I := JobsExplained checks S)
      (C := fun x ↦ EventOf S x.action) (P := fun _ ↦ True) hinit
      (fun s e t hs ht he ↦ ⟨jobsExplained_step hs he ht, trivial⟩) hrun hevents
    have happ : app ∈ S := by
      have := hevents x hx
      rw [haction] at this
      exact this
    exact gateHonest_of_explained hapart hfnv (hinv.2 x hx).1 happ hdb

end

/-! ## Kaniko Jobs -/

private theorem length_foldedTrigger {trigger : String} {part : List Char}
    (h : foldedTrigger trigger = some part) : part.length ≤ 8 := by
  simp only [foldedTrigger, trimmedTail] at h
  split at h
  · cases h
  · obtain rfl := Option.some.inj h
    calc _ ≤ (foldName (takeChars 8 trigger)).length := (List.rdropWhile_prefix _ _).length_le
      _ ≤ 8 := by
        rw [foldName, List.length_map, takeChars, String.toList_ofList]
        exact List.length_take_le _ _

/-- A build whose short trigger has more than punctuation is not named like a migration: its last
nine characters have a dash. -/
theorem buildJob_ne_migrationJob {P Q : Project} {revisionKey : String} {job : Job}
    (hvalid : isKubernetesName Q.name = true)
    (hnumeric : (previewPrNumber Q).all isNumeric = true)
    (htrigger : (foldedTrigger (requestTrigger Q)).isSome = true)
    (hjob : requestedBuildJob Q = some job) : job.name ≠ migrationJobName P revisionKey := by
  obtain ⟨b, hb, hjob⟩ := Option.bind_eq_some_iff.mp hjob
  obtain ⟨part, hpart⟩ := Option.isSome_iff_exists.mp htrigger
  have hderive : deriveNewBuildStatus Q = .ok (some b) := by rw [deriveNewBuildStatus_eq, hb]
  have hbuilt : buildJobForStatus Q b = .ok job := by
    cases hbuild : buildJobForStatus Q b with
    | error e =>
      rw [hbuild] at hjob
      cases hjob
    | ok j =>
      rw [hbuild] at hjob
      exact congrArg Except.ok (Option.some.inj hjob)
  have hsame : requestTrigger Q = b.trigger := by
    rw [requestTrigger, (derivedBuild_of_derive hderive).trigger, Option.getD_some]
  have hname : job.name = Q.name ++ "-build-" ++ String.ofList (tagHead Q ++ '-' :: part) := by
    rw [buildJobForStatus_name hbuilt, ← (derivedBuild_of_derive hderive).jobName,
      jobName_of_derive hvalid hnumeric hderive, ← hsame, hpart]
    rfl
  intro heq
  have hchars := congrArg String.toList (hname.symm.trans heq)
  rw [String.toList_append, String.toList_ofList, toList_migrationJobName] at hchars
  have hpartSuffix : '-' :: part <:+ (Q.name ++ "-build-").toList ++ (tagHead Q ++ '-' :: part) :=
    (List.suffix_append _ _).trans (List.suffix_append _ _)
  have hidSuffix : (migrationRevisionId revisionKey).toList <:+
      (Q.name ++ "-build-").toList ++ (tagHead Q ++ '-' :: part) := by
    rw [hchars]
    exact (List.suffix_append _ _).trans (List.suffix_append _ _)
  have hlength : ('-' :: part).length ≤ (migrationRevisionId revisionKey).toList.length := by
    have := length_foldedTrigger hpart
    rw [length_migrationRevisionId, List.length_cons]
    omega
  exact dash_not_mem_migrationRevisionId revisionKey
    ((List.suffix_of_suffix_length_le hpartSuffix hidSuffix hlength).subset List.mem_cons_self)

/-! ## Two Projects -/

/-- A Project with a database, a source and a build request. -/
def migratedProject (name : String) (uid : Uid) : Project :=
  ⟨name, some "team", some uid, none, ⟨some "abcdef12", none, none, none⟩,
    { image := "registry.example/shop:1"
      source := some ⟨"https://git.example/shop.git", none, none, none, none⟩
      database := some .postgresql }, none, none⟩

/-- One Project meets its own migrations only. -/
theorem migration_gates_honest_iff_single :
    (∀ app ∈ ({migratedProject "shop" 7} : Set Project),
        app.ns.isSome = true ∧ app.uid.isSome = true) ∧
      ∀ tr s, Run (migrationStep passingChecks) noJobs tr s →
        (∀ x ∈ tr, EventOf {migratedProject "shop" 7} x.action) → GatesHonest passingChecks tr := by
  have hS : ∀ app ∈ ({migratedProject "shop" 7} : Set Project),
      app.ns.isSome = true ∧ app.uid.isSome = true := by
    rintro app rfl
    exact ⟨rfl, rfl⟩
  refine ⟨hS, (migration_gates_honest_iff passingChecks {migratedProject "shop" 7} hS ?_).mpr ?_⟩
  · rintro P rfl Q rfl -
    rfl
  · constructor
    · rintro P rfl Q rfl - - hne
      exact absurd rfl hne
    · rintro P rfl Q rfl - job hjob -
      exact buildJob_ne_migrationJob (by decide) (by decide) (by decide) hjob

/-- Two Projects whose names agree in their first 38 characters share a migration Job. -/
theorem migration_gates_not_honest :
    ¬ ∀ (checks : PodChecks) (S : Set Project),
      (∀ app ∈ S, app.ns.isSome = true ∧ app.uid.isSome = true) →
      (∀ P ∈ S, ∀ Q ∈ S, revisionHash (migrationRevisionKey P) =
        revisionHash (migrationRevisionKey Q) → migrationRevisionKey P = migrationRevisionKey Q) →
      ∀ tr s, Run (migrationStep checks) noJobs tr s → (∀ x ∈ tr, EventOf S x.action) →
        GatesHonest checks tr := by
  intro h
  let eu := migratedProject "customer-portal-production-environment-eu" 7
  let us := migratedProject "customer-portal-production-environment-us" 8
  have hS : ∀ app ∈ ({eu, us} : Set Project), app.ns.isSome = true ∧ app.uid.isSome = true := by
    rintro app (rfl | rfl) <;> exact ⟨rfl, rfl⟩
  have hkeys : ∀ P ∈ ({eu, us} : Set Project), ∀ Q ∈ ({eu, us} : Set Project),
      migrationRevisionKey P = migrationRevisionKey Q := by
    rintro P (rfl | rfl) Q (rfl | rfl) <;> rfl
  have heu : eu ∈ ({eu, us} : Set Project) := .inl rfl
  have hus : us ∈ ({eu, us} : Set Project) := .inr rfl
  have hstart : truncatedName us.name 38 = truncatedName eu.name 38 := by decide
  have hne : us.uid ≠ eu.uid := by decide
  have hstarts : MigrationStarts passingChecks eu := ⟨rfl, rfl, ⟨_, rfl⟩, by decide +kernel⟩
  obtain ⟨tr, s, hrun, hevents, hnot⟩ := exists_dishonest_run_of_shared hus heu rfl hstarts
    (hS eu heu) hne hstart (hkeys us hus eu heu)
  exact hnot (h passingChecks {eu, us} hS (fun P hP Q hQ _ ↦ hkeys P hP Q hQ) tr s hrun hevents)

end ReinhardtCloud.Operator

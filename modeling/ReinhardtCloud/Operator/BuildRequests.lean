import ReinhardtCloud.Operator.BuildStore

/-!
# Why `apply` sends each of its requests

Library `Operator`. One contract says of every request of the source build flow what holds of
the store when it is sent; the results about triggers and about the recorded build are read off
it.
-/

namespace ReinhardtCloud.Operator

open ReinhardtCloud.Base

/-! ## Derived builds -/

/-- What `derive_new_build_status` fixes of a build. -/
structure DerivedBuild (app : Project) (b : BuildStatus) : Prop where
  trigger : app.annotations.buildTrigger = some b.trigger
  taken : ignoredPreviewRequest app = false
  phase : b.phase = .pending
  target : b.target = if (previewPrNumber app).isSome then .preview else .production
  jobName : b.jobName = buildJobName app.name b.imageTag
  image : builtImageReference app b.imageTag = .ok b.image
  prNumber : b.prNumber = previewPrNumber app
  previewName : b.previewName = (previewPrNumber app).map (previewProjectName app.name)
  branch : b.branch = (app.annotations.prBranch.filter fun v ↦ !isBlank v).or
    (app.spec.source.bind fun source ↦ source.branch)

theorem derivedBuild_of_new {app : Project} {source : SourceSpec} {trigger : String}
    {b : BuildStatus} (h : newBuildStatus app source trigger = .ok b)
    (hsource : app.spec.source = some source)
    (htrigger : app.annotations.buildTrigger = some trigger)
    (htaken : ignoredPreviewRequest app = false) : DerivedBuild app b := by
  simp only [newBuildStatus, bind, Except.bind] at h
  split at h
  · cases h
  · next image himage =>
    obtain rfl := Except.ok.inj h
    exact ⟨htrigger, htaken, rfl, rfl, rfl, himage, rfl, rfl, by rw [hsource]; rfl⟩

theorem derivedBuild_of_derive {app : Project} {b : BuildStatus}
    (h : deriveNewBuildStatus app = .ok (some b)) : DerivedBuild app b := by
  unfold deriveNewBuildStatus at h
  split at h
  · next source trigger hsource htrigger =>
    split at h
    · cases h
    · next hignored =>
      have htaken : ignoredPreviewRequest app = false := by
        simpa [ignoredPreviewRequest] using fun _ ↦ hignored
      cases hn : newBuildStatus app source trigger with
      | error e =>
        rw [hn] at h
        cases h
      | ok b' =>
        rw [hn] at h
        cases h
        exact derivedBuild_of_new hn hsource htrigger htaken
  · cases h

/-- The image tag of an accepted build. -/
theorem imageTag_of_derive {app : Project} {b : BuildStatus}
    (h : deriveNewBuildStatus app = .ok (some b)) :
    b.imageTag = match previewPrNumber app with
      | some n => previewImageTag n (takeChars 8 b.trigger)
      | none => s!"{app.name}-{takeChars 8 b.trigger}" := by
  unfold deriveNewBuildStatus at h
  split at h
  · next source trigger hsource htrigger =>
    split at h
    · cases h
    · simp only [newBuildStatus, builtImageReference, hsource, bind, Except.bind, Except.map,
        Except.ok.injEq, Option.some.injEq] at h
      subst h
      cases previewPrNumber app <;> rfl
  · cases h

/-- A trigger that is not ignored yields a build when there is a source. -/
theorem deriveNewBuildStatus_of_trigger {app : Project} {source : SourceSpec} {trigger : String}
    (hsource : app.spec.source = some source)
    (htrigger : app.annotations.buildTrigger = some trigger)
    (htaken : ignoredPreviewRequest app = false) :
    ∃ b, deriveNewBuildStatus app = .ok (some b) := by
  have hno : (disabledPreviewBuildRequested app || malformedPreviewBuildRequested app) = false := by
    simpa [ignoredPreviewRequest, htrigger] using htaken
  simp only [deriveNewBuildStatus, hsource, htrigger, hno, Bool.false_eq_true, ↓reduceIte,
    newBuildStatus, builtImageReference, bind, Except.bind, Except.map]
  exact ⟨_, rfl⟩

/-- Without a trigger no build is derived. -/
theorem deriveNewBuildStatus_of_no_trigger {app : Project}
    (htrigger : app.annotations.buildTrigger = none) : deriveNewBuildStatus app = .ok none := by
  unfold deriveNewBuildStatus
  split
  · next h =>
    rw [htrigger] at h
    cases h
  · rfl

/-- The Job of a branch carries the derived name and pushes the derived image. -/
theorem buildKanikoJobForBranch_ok {app : Project} {imageTag : String} {branch : Option String}
    {job : Job} (h : buildKanikoJobForBranch app imageTag branch = .ok job) :
    job.name = buildJobName app.name imageTag ∧
      ∃ destination, builtImageReference app imageTag = .ok destination ∧
        ∃ (branch url dockerfile context : String) (buildArgs : StringMap),
          job.args = [s!"--git=branch={branch},url={url}", s!"--dockerfile={dockerfile}",
            s!"--context=dir://{context}", s!"--destination={destination}", "--cache=true"] ++
              buildArgs.map fun kv ↦ s!"--build-arg={kv.1}={kv.2}" := by
  simp only [buildKanikoJobForBranch, bind, Except.bind] at h
  split at h
  · split at h
    · split at h
      · split at h
        · cases h
        · next destination hdestination =>
          split at h
          · split at h
            · cases h
            · obtain rfl := Except.ok.inj h
              exact ⟨rfl, destination, hdestination, _, _, _, _, _, rfl⟩
          · cases h
      · cases h
    · cases h
  · cases h

/-- The Job of a build is the one of a branch. -/
theorem buildJobForStatus_eq (app : Project) (b : BuildStatus) :
    ∃ branch, buildJobForStatus app b = buildKanikoJobForBranch app b.imageTag branch := by
  unfold buildJobForStatus
  cases b.target with
  | production => exact ⟨none, rfl⟩
  | preview => exact ⟨b.branch, rfl⟩

theorem buildJobForStatus_name {app : Project} {b : BuildStatus} {job : Job}
    (h : buildJobForStatus app b = .ok job) : job.name = buildJobName app.name b.imageTag := by
  obtain ⟨branch, hbranch⟩ := buildJobForStatus_eq app b
  exact (buildKanikoJobForBranch_ok (hbranch.symm.trans h)).1

/-! ## The same build, further on -/

/-- Two records of one build, whatever their phases. -/
structure SameBuild (a b : BuildStatus) : Prop where
  target : b.target = a.target
  trigger : b.trigger = a.trigger
  jobName : b.jobName = a.jobName
  image : b.image = a.image

theorem SameBuild.refl (b : BuildStatus) : SameBuild b b := ⟨rfl, rfl, rfl, rfl⟩

theorem SameBuild.trans {a b c : BuildStatus} (h : SameBuild a b) (h' : SameBuild b c) :
    SameBuild a c :=
  ⟨h'.target.trans h.target, h'.trigger.trans h.trigger, h'.jobName.trans h.jobName,
    h'.image.trans h.image⟩

theorem SameBuild.symm {a b : BuildStatus} (h : SameBuild a b) : SameBuild b a :=
  ⟨h.target.symm, h.trigger.symm, h.jobName.symm, h.image.symm⟩

/-- A status transition keeps the build. -/
theorem sameBuild_transition (b : BuildStatus) (phase : BuildPhase) (reason message : String) :
    SameBuild b (transitionBuildStatus b phase reason message) := ⟨rfl, rfl, rfl, rfl⟩

/-- A merge patch records the patched build in the patched phase. -/
theorem sameBuild_merge (old : Option BuildStatus) (b : BuildStatus) :
    SameBuild b (mergeBuildStatus old b) ∧ (mergeBuildStatus old b).phase = b.phase := by
  cases old <;> exact ⟨⟨rfl, rfl, rfl, rfl⟩, rfl⟩

/-- Merging a recorded build into itself changes nothing. -/
theorem mergeBuildStatus_self (b : BuildStatus) : mergeBuildStatus (some b) b = b := by
  simp [mergeBuildStatus]

/-- A build that has not reached its outcome. -/
def BuildStatus.Active (b : BuildStatus) : Prop := b.phase = .pending ∨ b.phase = .running

instance (b : BuildStatus) : Decidable b.Active := inferInstanceAs (Decidable (_ ∨ _))

/-! ## Why each request is sent -/

namespace BuildStore

/-- The Project records the build `b`, in some phase. -/
def Records (s : BuildStore) (b : BuildStatus) : Prop :=
  ∃ r, s.project.build = some r ∧ SameBuild r b

/-- Outside the operator only the annotations and the status of Jobs change. -/
structure Undisturbed (s t : BuildStore) : Prop where
  project : t.project = { s.project with annotations := t.project.annotations }
  jobs : ∀ n, (t.jobs n).isSome = (s.jobs n).isSome
  previews : t.previews = s.previews
  workloads : t.workloads = s.workloads

theorem Undisturbed.refl (s : BuildStore) : s.Undisturbed s := ⟨rfl, fun _ ↦ rfl, rfl, rfl⟩

theorem Undisturbed.trans {s t u : BuildStore} (h : s.Undisturbed t) (h' : t.Undisturbed u) :
    s.Undisturbed u where
  project := by
    rw [h'.project, h.project]
  jobs n := (h'.jobs n).trans (h.jobs n)
  previews := h'.previews.trans h.previews
  workloads := h'.workloads.trans h.workloads

theorem Undisturbed.build {s t : BuildStore} (h : s.Undisturbed t) :
    t.project.build = s.project.build := by
  rw [h.project]
  rfl

theorem Undisturbed.spec {s t : BuildStore} (h : s.Undisturbed t) :
    t.project.spec = s.project.spec := by
  rw [h.project]

theorem Records.mono {s t : BuildStore} {b : BuildStatus} (hr : s.Records b)
    (h : s.Undisturbed t) : t.Records b := by
  rw [Records, h.build]
  exact hr

theorem Records.of_same {s : BuildStore} {b c : BuildStatus} (hr : s.Records b)
    (h : SameBuild b c) : s.Records c := by
  obtain ⟨r, hrec, hsame⟩ := hr
  exact ⟨r, hrec, hsame.trans h⟩

/-- Events leave the store undisturbed. -/
theorem undisturbed_buildEvent {s t : BuildStore} {e : BuildEvent} (h : buildEvent s e = some t) :
    s.Undisturbed t := by
  cases e with
  | annotate a =>
    obtain rfl := Option.some.inj h
    exact ⟨rfl, fun _ ↦ rfl, rfl, rfl⟩
  | reportJob name status =>
    obtain ⟨job, hjob, rfl⟩ := Option.map_eq_some_iff.mp h
    refine ⟨rfl, fun n ↦ ?_, rfl, rfl⟩
    by_cases hn : n = name
    · subst hn
      simp [hjob]
    · simp [Function.update_of_ne hn]
  | reportMigration name status =>
    obtain ⟨job, -, rfl⟩ := Option.map_eq_some_iff.mp h
    exact ⟨rfl, fun _ ↦ rfl, rfl, rfl⟩

/-- The trigger the reconcile read is recorded and its Job is present. -/
def Accepted (s : BuildStore) (app : Project) : Prop :=
  ∃ b, s.project.build = some b ∧ app.annotations.buildTrigger = some b.trigger ∧
    (s.jobs b.jobName).isSome

theorem Accepted.mono {app : Project} {s t : BuildStore} (ha : s.Accepted app)
    (h : s.Undisturbed t) : t.Accepted app := by
  obtain ⟨b, hb, htrigger, hjob⟩ := ha
  exact ⟨b, by rw [h.build, hb], htrigger, by rwa [h.jobs]⟩

/-- The preview deletion the reconcile read is carried out. -/
def PreviewDeleted (s : BuildStore) (app : Project) : Prop :=
  app.annotations.previewAction = some "delete" ∧
    s.previews (previewProjectName app.name (app.annotations.prNumber.getD "")) = none

/-- A new build may be recorded over what the reconcile read once its Job is there. -/
def Accepts (s : BuildStore) (app : Project) (b : BuildStatus) : Prop :=
  deriveNewBuildStatus app = .ok (some b) ∧ (s.jobs b.jobName).isSome ∧
    s.project.build = app.build

/-- The recorded build is recorded again, in a later phase; a production build is recorded as
succeeded only once its image is applied. -/
def Advances (s : BuildStore) (b : BuildStatus) : Prop :=
  s.Records b ∧ (b.phase = .running ∨ b.phase = .failed ∨
    b.phase = .succeeded ∧ (b.target = .production → s.project.spec.image = b.image))

/-- Why `apply`, having read `app`, sends a request. -/
def Justified (s : BuildStore) (app : Project) : BuildCall → Prop
  | .clearBuildAnnotations =>
    s.Accepted app ∨ ignoredPreviewRequest app ∨ s.PreviewDeleted app
  | .patchBuildStatus b => s.Accepts app b ∨ s.Advances b
  | .clearBuildStatus => ∃ b, s.project.build = some b ∧ b.target = .preview
  | .patchProjectImage image =>
    ∃ b, s.project.build = some b ∧ b.target = .production ∧ b.image = image
  | .applyWorkloads a => a = app ∧ s.project.build = app.build ∧
    ∀ b, app.build = some b → b.phase = .succeeded
  | _ => True

end BuildStore

/-! ## The programs -/

section Programs

variable {app : Project} {α β : Type} {s : BuildStore}

/-- From `s` on every request of the program is justified, and its results satisfy `P`. -/
abbrev Sends (app : Project) (p : BuildProgram α) (s : BuildStore) (P : BuildStore → α → Prop) :
    Prop :=
  p.Yields BuildStore.serve BuildStore.Undisturbed (fun t c _ ↦ t.Justified app c) s P

/-- A request is sent when it stays justified; what it returns is what the server performs. -/
theorem sends_buildApi {c : BuildCall} {P : BuildStore → c.Result → Prop}
    (hj : ∀ t, s.Undisturbed t → t.Justified app c)
    (hok : ∀ t r, s.Undisturbed t → (t.perform c).2 = .ok r → P (t.perform c).1 r) :
    Sends app (buildApi c) s P := by
  intro t ht _ fault
  refine ⟨hj t ht, ?_⟩
  cases fault with
  | true => exact Program.yields_fail
  | false =>
    simp only [BuildStore.serve, Bool.false_eq_true, ↓reduceIte]
    cases hr : (t.perform c).2 with
    | ok r => exact Program.yields_pure (hok t r ht hr)
    | error e => exact Program.yields_fail

theorem sends_ofExcept {r : Except Error α} {P : BuildStore → α → Prop}
    (h : ∀ a, r = .ok a → P s a) : Sends app (ofExcept r) s P := h

/-- Recording a build keeps the set of Jobs. -/
theorem sends_patchBuildStatus {b : BuildStatus}
    (hj : ∀ t, s.Undisturbed t → t.Justified app (.patchBuildStatus b)) :
    Sends app (patchBuildStatus b) s
      fun t _ ↦ t.Records b ∧ ∀ n, (t.jobs n).isSome = (s.jobs n).isSome :=
  sends_buildApi hj fun t _ ht _ ↦
    ⟨⟨_, rfl, (sameBuild_merge t.project.build b).1.symm⟩, ht.jobs⟩

theorem sends_advance {b : BuildStatus} (hr : s.Records b)
    (hphase : b.phase = .running ∨ b.phase = .failed) :
    Sends app (patchBuildStatus b) s fun t _ ↦ t.Records b :=
  (sends_patchBuildStatus fun _ ht ↦ .inr ⟨hr.mono ht, hphase.imp_right .inl⟩).mono
    fun _ _ h ↦ h.1

/-- What a decision of `reconcile_source_build` says of the store. -/
def Concluded (app : Project) (s : BuildStore) : BuildDecision → Prop
  | .noBuild => s.project.build = app.build ∧ ∀ b, app.build = some b → b.phase = .succeeded
  | .succeeded b => s.Records b ∧ b.phase = .succeeded
  | .waiting => True
  | .failed _ => True

theorem sends_decideFromJobState {b : BuildStatus} {state : JobBuildState} (hr : s.Records b) :
    Sends app (decideFromJobState b state) s fun t d ↦ Concluded app t d := by
  cases state with
  | running =>
    exact Program.yields_bind
      ((sends_advance (hr.of_same (sameBuild_transition ..)) (.inl rfl)).mono
      fun _ _ _ ↦ Program.yields_pure trivial)
  | succeeded => exact Program.yields_pure ⟨hr.of_same (sameBuild_transition ..), rfl⟩
  | failed reason message =>
    exact Program.yields_bind
      ((sends_advance (hr.of_same (sameBuild_transition ..)) (.inr rfl)).mono
      fun _ _ _ ↦ Program.yields_pure trivial)

/-- The build derived from what the reconcile read is accepted once its Job is there. -/
theorem sends_acceptNewBuild {b : BuildStatus} {job : Job}
    (hb : deriveNewBuildStatus app = .ok (some b)) (hjob : (s.jobs b.jobName).isSome)
    (hs : s.project.build = app.build) :
    Sends app (acceptNewBuild b job) s fun t d ↦ Concluded app t d := by
  refine Program.yields_bind ((sends_patchBuildStatus fun t ht ↦
    .inl ⟨hb, by rwa [ht.jobs], ht.build.trans hs⟩).mono fun t _ ht ↦ ?_)
  obtain ⟨⟨r, hrec, hsame⟩, hjobs⟩ := ht
  have hacc : t.Accepted app :=
    ⟨r, hrec, by rw [(derivedBuild_of_derive hb).trigger, hsame.trigger],
      by rwa [← hsame.jobName, hjobs]⟩
  refine Program.yields_bind ((sends_buildApi (c := .clearBuildAnnotations)
    (P := fun u _ ↦ u.Records b) (fun u hu ↦ .inl (hacc.mono hu)) fun u _ hu _ ↦ ?_).mono
    fun u _ hu ↦ sends_decideFromJobState hu)
  have hrecords : t.Records b := ⟨r, hrec, hsame⟩
  have hu' : u.Records b := hrecords.mono hu
  exact hu'

theorem sends_reconcileNewBuild {b : BuildStatus} (hb : deriveNewBuildStatus app = .ok (some b))
    (hs : s.project.build = app.build) :
    Sends app (reconcileNewBuild app b) s fun t d ↦ Concluded app t d := by
  refine Program.yields_bind ((sends_buildApi (c := .getJob b.jobName)
    (P := fun t r ↦ r = t.jobs b.jobName ∧ t.project.build = app.build) (fun _ _ ↦ trivial)
    fun t r ht hr ↦ ⟨(Except.ok.inj hr).symm, ht.build.trans hs⟩).mono fun t r ht ↦ ?_)
  obtain ⟨hr, ht⟩ := ht
  cases r with
  | some job => exact sends_acceptNewBuild hb (by simp [← hr]) ht
  | none =>
    refine Program.yields_bind (sends_ofExcept fun expected hexpected ↦ ?_)
    refine Program.yields_bind ((sends_buildApi (c := .createJob expected)
      (P := fun t _ ↦ (t.jobs b.jobName).isSome ∧ t.project.build = app.build)
      (fun _ _ ↦ trivial) fun u r hu hr ↦ ?_).mono fun u r hu ↦ sends_acceptNewBuild hb hu.1 hu.2)
    have hname : expected.name = b.jobName :=
      (buildJobForStatus_name hexpected).trans (derivedBuild_of_derive hb).jobName.symm
    have hbuild : u.project.build = app.build := hu.build.trans ht
    simp only [BuildStore.perform] at hr ⊢
    split at hr
    · cases hr
    · next hfree =>
      rw [hname] at hfree
      simp [hname, hfree, hbuild]

theorem sends_reconcileActiveBuild {b : BuildStatus} (hr : s.Records b) :
    Sends app (reconcileActiveBuild b) s fun t d ↦ Concluded app t d := by
  refine Program.yields_bind ((sends_buildApi (c := .getJob b.jobName)
    (P := fun t _ ↦ t.Records b) (fun _ _ ↦ trivial) fun t _ ht _ ↦ hr.mono ht).mono
    fun t r ht ↦ ?_)
  cases r with
  | some job => exact sends_decideFromJobState ht
  | none =>
    exact Program.yields_bind
      ((sends_advance (ht.of_same (sameBuild_transition ..)) (.inr rfl)).mono
      fun _ _ _ ↦ Program.yields_pure trivial)

/-- Without a derived build the recorded one is followed. -/
theorem sends_reconcileRecordedBuild (hs : s.project.build = app.build) :
    Sends app (reconcileRecordedBuild app) s fun t d ↦ Concluded app t d := by
  unfold reconcileRecordedBuild
  split
  · exact Program.yields_pure trivial
  · next hfailed =>
    split
    · next b hb =>
      have hrec : app.build = some b := (Option.filter_eq_some_iff.mp hb).1
      exact sends_reconcileActiveBuild ⟨b, by rw [hs, hrec], .refl b⟩
    · next hactive =>
      refine Program.yields_pure ⟨hs, fun b hb ↦ ?_⟩
      have hnf := Option.filter_eq_none_iff.mp hfailed b hb
      have hna := Option.filter_eq_none_iff.mp hactive b hb
      simp only [decide_eq_true_eq, Bool.or_eq_true, not_or] at hnf hna
      cases hp : b.phase with
      | pending => exact absurd hp hna.1
      | running => exact absurd hp hna.2
      | succeeded => rfl
      | failed => exact absurd hp hnf

theorem sends_reconcileSourceBuild (hs : s.project.build = app.build) :
    Sends app (reconcileSourceBuild app) s fun t d ↦ Concluded app t d := by
  unfold reconcileSourceBuild
  split
  · next hignored =>
    exact Program.yields_bind ((sends_buildApi (c := .clearBuildAnnotations)
      (P := fun t _ ↦ t.project.build = app.build) (fun _ _ ↦ .inr (.inl hignored))
      fun t _ ht _ ↦ ht.build.trans hs).mono fun t _ ht ↦ sends_reconcileRecordedBuild ht)
  · refine Program.yields_bind (sends_ofExcept fun d hd ↦ ?_)
    cases d with
    | some b => exact sends_reconcileNewBuild hd hs
    | none => exact sends_reconcileRecordedBuild hs

/-- Only a recorded preview build is dropped for a preview deletion. -/
theorem sends_clearPreviewBuildForDelete {prNumber previewName : String}
    (hs : s.project.build = app.build) :
    Sends app (clearPreviewBuildForDelete app prNumber previewName) s fun _ _ ↦ True := by
  unfold clearPreviewBuildForDelete
  split
  · exact Program.yields_pure trivial
  · next b hb =>
    obtain ⟨hrec, hmatch⟩ := Option.filter_eq_some_iff.mp hb
    have htarget : b.target = .preview := by
      simp only [Bool.and_eq_true, decide_eq_true_eq] at hmatch
      exact hmatch.1
    have hclear : ∀ t : BuildStore, t.project.build = app.build →
        Sends app (buildApi .clearBuildStatus) t fun _ _ ↦ True := fun t ht ↦
      sends_buildApi (fun u hu ↦ ⟨b, (hu.build.trans ht).trans hrec, htarget⟩)
        fun _ _ _ _ ↦ trivial
    split
    · exact hclear s hs
    · intro t ht _ fault
      refine ⟨trivial, hclear _ ?_⟩
      cases fault with
      | true => exact ht.build.trans hs
      | false =>
        simp only [BuildStore.serve, BuildStore.perform, Bool.false_eq_true, ↓reduceIte]
        split <;> exact ht.build.trans hs

theorem sends_reconcilePreviewDeleteAction (hs : s.project = app) :
    Sends app (reconcilePreviewDeleteAction app) s
      fun t deleted ↦ deleted = false → t.project = app := by
  unfold reconcilePreviewDeleteAction
  split
  · next haction =>
    refine Program.yields_bind ((sends_clearPreviewBuildForDelete (by rw [hs])).mono fun t _ _ ↦ ?_)
    rintro u hu - fault
    refine ⟨trivial, ?_⟩
    cases fault with
    | true => exact Program.yields_fail
    | false =>
      have hclear : ∀ v : BuildStore, v.previews (previewProjectName app.name
          (app.annotations.prNumber.getD "")) = none →
          Sends app (clearBuildAnnotations.bind fun _ ↦ pure true) v
            fun t deleted ↦ deleted = false → t.project = app := fun v hv ↦
        Program.yields_bind ((sends_buildApi (c := .clearBuildAnnotations) (P := fun _ _ ↦ True)
          (fun w hw ↦ .inr (.inr ⟨haction, by rw [hw.previews, hv]⟩)) fun _ _ _ _ ↦ trivial).mono
          fun _ _ _ ↦ Program.yields_pure fun h ↦ by cases h)
      by_cases habsent : (u.previews (previewProjectName app.name
        (app.annotations.prNumber.getD ""))).isNone
      · simp only [BuildStore.serve, BuildStore.perform, Bool.false_eq_true, ↓reduceIte, habsent]
        exact hclear u (Option.isNone_iff_eq_none.mp habsent)
      · simp only [BuildStore.serve, BuildStore.perform, Bool.false_eq_true, ↓reduceIte, habsent]
        exact hclear _ (Function.update_self ..)
  · exact Program.yields_pure fun _ ↦ hs

/-- Applying a preview leaves the recorded build alone. -/
theorem sends_reconcilePreviewFromBuild {b : BuildStatus} (hr : s.Records b) :
    Sends app (reconcilePreviewFromBuild app b) s fun t _ ↦ t.Records b := by
  unfold reconcilePreviewFromBuild
  split
  · exact Program.yields_fail
  · exact Program.yields_fail
  · exact Program.yields_fail
  · exact Program.yields_fail
  · refine sends_buildApi (fun _ _ ↦ trivial) fun t _ ht _ ↦ ?_
    have hr' : t.Records b := hr.mono ht
    exact hr'

/-- After the source build gate has decided. -/
theorem sends_sourceBuildGate {d : BuildDecision} (hd : Concluded app s d) :
    Sends app (sourceBuildGate app d) s fun _ _ ↦ True := by
  cases d with
  | noBuild =>
    exact sends_buildApi (fun t ht ↦ ⟨rfl, ht.build.trans hd.1, hd.2⟩) fun _ _ _ _ ↦ trivial
  | waiting => exact Program.yields_pure trivial
  | failed b => exact Program.yields_pure trivial
  | succeeded b =>
    obtain ⟨hrec, hphase⟩ := hd
    cases htarget : b.target with
    | production =>
      simp only [sourceBuildGate, htarget]
      refine Program.yields_bind ((sends_buildApi (c := .patchProjectImage b.image)
        (P := fun t _ ↦ t.Records b ∧ t.project.spec.image = b.image) (fun t ht ↦ ?_)
        fun t _ ht _ ↦ ?_).mono fun t _ ht ↦ ?_)
      · obtain ⟨r, hr, hsame⟩ := hrec.mono ht
        exact ⟨r, hr, by rw [← hsame.target, htarget], hsame.image.symm⟩
      · have hrec' : t.Records b := hrec.mono ht
        exact ⟨hrec', rfl⟩
      · exact (sends_patchBuildStatus fun u hu ↦ .inr ⟨ht.1.mono hu, .inr (.inr ⟨hphase, fun _ ↦
          by rw [hu.spec, ht.2]⟩)⟩).mono fun _ _ _ ↦ trivial
    | preview =>
      simp only [sourceBuildGate, htarget]
      refine Program.yields_bind ((sends_reconcilePreviewFromBuild hrec).mono fun t _ ht ↦ ?_)
      exact (sends_patchBuildStatus fun u hu ↦ .inr ⟨ht.mono hu, .inr (.inr ⟨hphase, fun h ↦ by
        rw [htarget] at h; cases h⟩)⟩).mono fun _ _ _ ↦ trivial

/-- Every request of `apply` is justified by what it read. -/
theorem sends_applyProject (hs : s.project = app) :
    Sends app (applyProject app) s fun _ _ ↦ True := by
  refine Program.yields_bind ((sends_reconcilePreviewDeleteAction hs).mono fun t deleted ht ↦ ?_)
  cases deleted with
  | true => exact Program.yields_pure trivial
  | false =>
    have hbuild : t.project.build = app.build := by rw [ht rfl]
    exact Program.yields_bind ((sends_reconcileSourceBuild hbuild).mono
      fun u d hd ↦ sends_sourceBuildGate hd)

end Programs

/-! ## Every run -/

/-- The contract of a reconcile that read `app`. -/
abbrev applyContract (app : Project) : Contract BuildStore BuildCall Error Unit :=
  Program.yielding BuildStore.Undisturbed (fun t c _ ↦ t.Justified app c) fun _ _ ↦ True

theorem apply_disciplined (admitted : Project → Prop) :
    Solo.Disciplined BuildStore.serve buildEvent BuildStore.project applyProject applyContract
      admitted where
  refl _ s := .refl s
  trans _ _ _ _ h h' := h.trans h'
  pre _ _ _ := trivial
  interfere _ _ _ _ h := BuildStore.undisturbed_buildEvent h
  start _ _ := sends_applyProject rfl

/-- What a transition does, when every running reconcile read something `admitted`: an event
happens, a reconcile starts, or a justified request is served. -/
abbrev JustifiedTurn (admitted : Project → Prop) (x : BuildTransition) : Prop :=
  Solo.Accounted BuildStore.serve buildEvent applyContract admitted x

/-- In every run each request of the operator is justified by what its reconcile read. -/
theorem requests_justified (admitted : Project → Prop) {init : BuildStore}
    {tr : List BuildTransition} {s : BuildState} (h : Run buildStep ⟨init, none⟩ tr s)
    (hc : ∀ x ∈ tr, x.action = .start → admitted x.before.store.project) :
    ∀ x ∈ tr, JustifiedTurn admitted x :=
  (apply_disciplined admitted).run h hc

end ReinhardtCloud.Operator

import ReinhardtCloud.Operator.PreviewCleanup
import ReinhardtCloud.Operator.Teardown

/-!
# Teardowns that finish

Library `Operator`. What a cleanup has left once it has removed the Project's finalizer, and that
one that is left alone removes it.
-/

namespace ReinhardtCloud.Operator.Teardown

open ReinhardtCloud.Base

variable {sha256 : List UInt8 → List UInt8} {lifecycle : Bool} {ns : String} {app : Project}
  {s t : Teardown} {quiet : Prop} {earlier : List (Transition Teardown TeardownAction)}

/-! ## What a cleanup that succeeds has left -/

/-- The parent whose previews a cleanup removes. -/
def parentOf (ns : String) (app : Project) : Previews.Parent := ⟨ns, app.name, app.uid⟩

/-- Nothing of the step is left: no object that `cleanup` would delete, except where it passed over
the failure of the delete; no Job; no owner of the kept Redis Secret that would take it along; and a
preview namespace that is being deleted, or is one to keep and without previews. -/
def Settled (sha256 : List UInt8 → List UInt8) (lifecycle : Bool) (ns : String) (app : Project)
    (s : Teardown) : CleanupStep → Prop
  | .operation op => ∀ o, s.cluster.object op.kind (op.name.resolve app.name) = some o →
      op.onExisting sha256 app s.cluster o ≠ .issue ∨ op.access.lenient = true ∧ op ∈ s.refused
  | .jobs component lenient => ∀ job ∈ s.jobs.jobs, job.isOf app.name component = true →
      lenient = true ∧ job.name ∈ s.refusedJobs
  | .retainRedis => ∀ secret, s.cluster.object .secret (app.name ++ "-redis-credentials") =
      some (.secret secret) → (redisCredentialsSecretProvenance sha256 secret app).isSome →
        ∀ r ∈ secret.ownerReferences.getD [], app.uid ≠ some r.uid
  | .previews => Previews.Tidy lifecycle (parentOf ns app) s.previews

/-- If the preview part succeeds from here on, undisturbed, it leaves its namespace tidy. -/
def Tidies (lifecycle : Bool) (ns : String) (app : Project)
    (program : Previews.PreviewProgram Unit) (s : Previews.PreviewCluster) : Prop :=
  ∀ service t, Previews.Undisturbed service →
    program.run Previews.serve service s = (t, .ok ()) → Previews.Tidy lifecycle (parentOf ns app) t

/-- The step is still to be done, or is being done. -/
def Pending (s : Teardown) (run : CleanupRun) (step : CleanupStep) : Prop :=
  match run.phase with
  | .steps todo => step ∈ todo
  | .delete op _ todo => step = .operation op ∨ step ∈ todo
  | .deleteJob name names lenient todo =>
    (∃ component, step = .jobs component lenient ∧ ∀ job ∈ s.jobs.jobs,
      job.isOf run.app.name component = true →
        job.name ∈ name :: names ∨ lenient = true ∧ job.name ∈ s.refusedJobs) ∨ step ∈ todo
  | .patch _ todo => step = .retainRedis ∨ step ∈ todo
  | .previews _ todo => step = .previews ∨ step ∈ todo

/-- A preview part that is under way keeps its promise. -/
def Promises (lifecycle : Bool) (ns : String) (s : Teardown) (run : CleanupRun) : Prop :=
  match run.phase with
  | .previews program _ => Tidies lifecycle ns run.app program s.previews
  | _ => True

/-- Every step of the cleanup under way is pending or settled. -/
def Going (sha256 : List UInt8 → List UInt8) (lifecycle : Bool) (ns : String) (app : Project)
    (s : Teardown) : Prop :=
  ∀ run, s.run = some run → s.Promises lifecycle ns run ∧ ∀ step ∈ cleanupSteps app,
    s.Pending run step ∨ s.Settled sha256 lifecycle ns app step

/-- Objects and Jobs only go, and what was passed over stays on record. -/
structure Advances (s t : Teardown) : Prop where
  object : ∀ kind name o, t.cluster.object kind name = some o →
    s.cluster.object kind name = some o
  jobs : ∀ job ∈ t.jobs.jobs, job ∈ s.jobs.jobs
  previews : t.previews = s.previews
  refused : ∀ op ∈ s.refused, op ∈ t.refused
  refusedJobs : ∀ name ∈ s.refusedJobs, name ∈ t.refusedJobs

theorem Settled.advance {step : CleanupStep} (h : s.Settled sha256 lifecycle ns app step)
    (hmem : step ∈ cleanupSteps app) (hadvance : s.Advances t) :
    t.Settled sha256 lifecycle ns app step := by
  cases step with
  | operation op =>
    intro o ho
    rcases h o (hadvance.object _ _ o ho) with hverdict | ⟨hlenient, hrefused⟩
    · rw [onExisting_congr hmem s.cluster t.cluster] at hverdict
      exact .inl hverdict
    · exact .inr ⟨hlenient, hadvance.refused op hrefused⟩
  | jobs component lenient =>
    intro job hjob hof
    obtain ⟨hlenient, hrefused⟩ := h job (hadvance.jobs job hjob) hof
    exact ⟨hlenient, hadvance.refusedJobs _ hrefused⟩
  | retainRedis => exact fun secret hsecret ↦ h secret (hadvance.object _ _ _ hsecret)
  | previews =>
    show Previews.Tidy lifecycle (parentOf ns app) t.previews
    rw [hadvance.previews]
    exact h

theorem advances_refl (s : Teardown) (run : Option CleanupRun) :
    s.Advances { s with run := run } :=
  ⟨fun _ _ _ h ↦ h, fun _ h ↦ h, rfl, fun _ h ↦ h, fun _ h ↦ h⟩

theorem advances_erase (s : Teardown) (kind : ObjectKind) (name : String)
    (run : Option CleanupRun) :
    s.Advances { s with cluster := s.cluster.erase kind name, run := run } := by
  refine ⟨?_, fun _ h ↦ h, rfl, fun _ h ↦ h, fun _ h ↦ h⟩
  intro kind' name' o ho
  rw [object_erase] at ho
  split at ho
  · cases ho
  · exact ho

theorem going_stop : s.stop.Going sha256 lifecycle ns app := fun _ h ↦ by cases h

/-- The cleanup goes on with its next step once all before are settled. -/
theorem going_steps {todo : List CleanupStep}
    (h : ∀ step ∈ cleanupSteps app, step ∈ todo ∨ s.Settled sha256 lifecycle ns app step) :
    (s.goOn app (.steps todo)).Going sha256 lifecycle ns app := by
  intro run hrun
  obtain rfl := Option.some.inj hrun
  refine ⟨trivial, ?_⟩
  intro step hstep
  exact (h step hstep).imp id fun hsettled ↦ hsettled.advance hstep (advances_refl s _)

/-- Every step but one is still to be done or settled. -/
def AllBut (sha256 : List UInt8 → List UInt8) (lifecycle : Bool) (ns : String) (app : Project)
    (s : Teardown) (first : CleanupStep) (todo : List CleanupStep) : Prop :=
  ∀ step ∈ cleanupSteps app, step = first ∨ step ∈ todo ∨ s.Settled sha256 lifecycle ns app step

variable {first : CleanupStep} {todo : List CleanupStep}

/-- The one step is settled by what the request has done. -/
theorem AllBut.going (h : AllBut sha256 lifecycle ns app s first todo) (hadvance : s.Advances t)
    (hfirst : t.Settled sha256 lifecycle ns app first) :
    (t.goOn app (.steps todo)).Going sha256 lifecycle ns app := by
  apply going_steps
  intro step hstep
  rcases h step hstep with rfl | htodo | hsettled
  · exact .inr hfirst
  · exact .inl htodo
  · exact .inr (hsettled.advance hstep hadvance)

theorem AllBut.going_deleteObject {op : Operation}
    (h : AllBut sha256 lifecycle ns app s (.operation op) todo) (uid : Option Uid)
    (answered : Bool) :
    (s.deleteObject app op uid todo answered).Going sha256 lifecycle ns app := by
  rcases @deleteObject_cases app s op uid todo answered with
    ⟨o, -, -, heq⟩ | ⟨hnone, heq⟩ | ⟨hlenient, heq⟩ | heq
  · rw [heq]
    refine h.going (advances_erase s _ _ s.run) ?_
    intro o' ho'
    rw [object_erase, if_pos ⟨rfl, rfl⟩] at ho'
    cases ho'
  · rw [heq]
    refine h.going (advances_refl s s.run) ?_
    intro o ho
    rw [hnone] at ho
    cases ho
  · rw [heq]
    refine h.going ?_ fun o _ ↦ .inr ⟨hlenient, List.mem_cons_self⟩
    exact ⟨fun _ _ _ h ↦ h, fun _ h ↦ h, rfl, fun _ h ↦ List.mem_cons_of_mem op h, fun _ h ↦ h⟩
  · rw [heq]
    exact going_stop

theorem AllBut.going_startOperation {op : Operation}
    (h : AllBut sha256 lifecycle ns app s (.operation op) todo) (answered : Bool) :
    (s.startOperation sha256 app op todo answered).Going sha256 lifecycle ns app := by
  rw [startOperation]
  split
  · exact h.going_deleteObject none answered
  · split
    · split
      · next hnone =>
        refine h.going (advances_refl s s.run) ?_
        intro o ho
        rw [hnone] at ho
        cases ho
      · next o hobject =>
        split
        · intro run hrun
          obtain rfl := Option.some.inj hrun
          refine ⟨trivial, ?_⟩
          intro step hstep
          rcases h step hstep with rfl | htodo | hsettled
          · exact .inl (.inl rfl)
          · exact .inl (.inr htodo)
          · exact .inr (hsettled.advance hstep (advances_refl s _))
        · next hverdict =>
          refine h.going (advances_refl s s.run) ?_
          intro o' ho'
          rw [hobject] at ho'
          obtain rfl := Option.some.inj ho'
          exact .inl hverdict
    · exact going_stop

/-- The Jobs of the component that are left to delete, or passed over. -/
def JobsLeft (s : Teardown) (app : Project) (component : String) (names : List String)
    (lenient : Bool) : Prop :=
  ∀ job ∈ s.jobs.jobs, job.isOf app.name component = true →
    job.name ∈ names ∨ lenient = true ∧ job.name ∈ s.refusedJobs

/-- The cleanup goes on with the Jobs that are left, or with its next step. -/
theorem going_jobsPhase {names : List String} {lenient : Bool}
    (h : ∀ step ∈ cleanupSteps app, (∃ component, step = .jobs component lenient ∧
      s.JobsLeft app component names lenient) ∨ step ∈ todo ∨
        s.Settled sha256 lifecycle ns app step) :
    (s.goOn app (jobsPhase names lenient todo)).Going sha256 lifecycle ns app := by
  cases names with
  | nil =>
    apply going_steps
    intro step hstep
    rcases h step hstep with ⟨component, rfl, hleft⟩ | hrest
    · exact .inr fun job hjob hof ↦ (hleft job hjob hof).resolve_left List.not_mem_nil
    · exact hrest
  | cons name names =>
    intro run hrun
    obtain rfl := Option.some.inj hrun
    refine ⟨trivial, ?_⟩
    intro step hstep
    rcases h step hstep with hleft | htodo | hsettled
    · exact .inl (.inl hleft)
    · exact .inl (.inr htodo)
    · exact .inr (hsettled.advance hstep (advances_refl s _))

theorem going_deleteJob {name : String} {names : List String} {lenient : Bool} {answered : Bool}
    (h : ∀ step ∈ cleanupSteps app, (∃ component, step = .jobs component lenient ∧
      s.JobsLeft app component (name :: names) lenient) ∨ step ∈ todo ∨
        s.Settled sha256 lifecycle ns app step) :
    (s.deleteJob app name names lenient todo answered).Going sha256 lifecycle ns app := by
  rw [deleteJob]
  split
  · refine going_jobsPhase (s := { s with jobs := s.jobs.erase name }) ?_
    intro step hstep
    rcases h step hstep with ⟨component, rfl, hleft⟩ | htodo | hsettled
    · refine .inl ⟨component, rfl, ?_⟩
      intro job hjob hof
      obtain ⟨hjob', hname⟩ := List.mem_filter.mp hjob
      refine (hleft job hjob' hof).imp_left ?_
      intro hmem
      exact (List.mem_cons.mp hmem).resolve_left (of_decide_eq_true hname)
    · exact .inr (.inl htodo)
    · refine .inr (.inr (hsettled.advance hstep ?_))
      exact ⟨fun _ _ _ h ↦ h, fun _ h ↦ (List.mem_filter.mp h).1, rfl, fun _ h ↦ h, fun _ h ↦ h⟩
  · split
    · next hlenient =>
      refine going_jobsPhase (s := { s with refusedJobs := name :: s.refusedJobs }) ?_
      intro step hstep
      rcases h step hstep with ⟨component, rfl, hleft⟩ | htodo | hsettled
      · refine .inl ⟨component, rfl, ?_⟩
        intro job hjob hof
        rcases hleft job hjob hof with hmem | ⟨-, hrefused⟩
        · rcases List.mem_cons.mp hmem with hname | hmem
          · exact .inr ⟨hlenient, hname ▸ List.mem_cons_self⟩
          · exact .inl hmem
        · exact .inr ⟨hlenient, List.mem_cons_of_mem _ hrefused⟩
      · exact .inr (.inl htodo)
      · refine .inr (.inr (hsettled.advance hstep ?_))
        exact ⟨fun _ _ _ h ↦ h, fun _ h ↦ h, rfl, fun _ h ↦ h, fun _ h ↦ List.mem_cons_of_mem _ h⟩
    · exact going_stop

/-- Nothing to patch means that the Project is no owner. -/
theorem not_owner_of_isNone (secret : Secret) (h : (retainedOwnersPatch app secret).isNone)
    {r : OwnerReference} (hr : r ∈ secret.ownerReferences.getD []) : app.uid ≠ some r.uid := by
  intro huid
  rw [retainedOwnersPatch, huid, Option.bind_some] at h
  have hlength : ((secret.ownerReferences.getD []).filter fun owner ↦ owner.uid ≠ r.uid).length =
      (secret.ownerReferences.getD []).length := by
    by_contra hne
    rw [if_pos hne] at h
    cases h
  have hall := List.length_filter_eq_length_iff.mp hlength r hr
  exact of_decide_eq_true hall rfl

/-- After the patch the Project is no owner. -/
theorem not_owner_patchedSecret {secret : Secret} {r : OwnerReference}
    (hr : r ∈ (patchedSecret app secret).ownerReferences.getD []) : app.uid ≠ some r.uid := by
  cases hpatch : retainedOwnersPatch app secret with
  | none =>
    refine not_owner_of_isNone secret (by rw [hpatch]; rfl) ?_
    exact mem_ownerReferences_patchedSecret hr
  | some retained =>
    rw [patchedSecret, hpatch] at hr
    obtain ⟨projectUid, huid, hretained⟩ := Option.bind_eq_some_iff.mp hpatch
    obtain ⟨-, hfilter⟩ := Option.ite_none_right_eq_some.mp hretained
    rw [← Option.some.inj hfilter] at hr
    rw [huid]
    intro heq
    exact of_decide_eq_true (List.mem_filter.mp hr).2 (Option.some.inj heq).symm

theorem AllBut.going_startRetain (h : AllBut sha256 lifecycle ns app s .retainRedis todo)
    (answered : Bool) :
    (s.startRetain sha256 app todo answered).Going sha256 lifecycle ns app := by
  rw [startRetain]
  split
  · split
    · next secret hobject =>
      split
      · next hkept =>
        refine h.going (advances_refl s s.run) ?_
        intro secret' hsecret' hprovenance r hr
        rw [hobject] at hsecret'
        obtain rfl := Object.secret.inj (Option.some.inj hsecret')
        rcases hkept with hnone | ⟨hnone, -⟩
        · rw [← Option.not_isNone, hnone] at hprovenance
          cases hprovenance
        · exact not_owner_of_isNone secret hnone hr
      · split
        · exact going_stop
        · intro run hrun
          obtain rfl := Option.some.inj hrun
          refine ⟨trivial, ?_⟩
          intro step hstep
          rcases h step hstep with rfl | htodo | hsettled
          · exact .inl (.inl rfl)
          · exact .inl (.inr htodo)
          · exact .inr (hsettled.advance hstep (advances_refl s _))
    · next hother =>
      refine h.going (advances_refl s s.run) ?_
      intro secret hsecret
      exact absurd hsecret (hother secret)
  · exact going_stop

theorem AllBut.going_patchRedis (h : AllBut sha256 lifecycle ns app s .retainRedis todo)
    (hmem : .retainRedis ∈ cleanupSteps app) (secret : Secret) (answered : Bool) :
    (s.patchRedis app secret todo answered).Going sha256 lifecycle ns app := by
  rw [patchRedis]
  split
  · next hstored =>
    apply going_steps
    intro step hstep
    have hretained : ({ s with cluster := s.cluster.patchSecret app _ secret hstored.2 } :
        Teardown).Settled sha256 lifecycle ns app .retainRedis := by
      intro secret' hsecret' _ r hr
      have hnow : some (Object.secret (patchedSecret app secret)) = some (.secret secret') :=
        (if_pos ⟨rfl, rfl⟩).symm.trans hsecret'
      obtain rfl := Object.secret.inj (Option.some.inj hnow)
      exact not_owner_patchedSecret hr
    rcases h step hstep with rfl | htodo | hsettled
    · exact .inr hretained
    · exact .inl htodo
    · refine .inr ?_
      cases step with
      | operation op =>
        intro o ho
        have hkind := (kind_of_retain (retain_of_mem hmem) (operation_mem_cleanupSteps.mp hstep)).1
        have hother : ¬ (op.kind = .secret ∧
            op.name.resolve app.name = app.name ++ "-redis-credentials") := fun heq ↦ hkind heq.1
        have ho' : s.cluster.object op.kind (op.name.resolve app.name) = some o := by
          rw [← ho]
          exact (if_neg hother).symm
        refine (hsettled o ho').imp_left ?_
        intro hverdict
        rwa [← onExisting_congr hstep s.cluster]
      | jobs component lenient => exact hsettled
      | retainRedis => exact hretained
      | previews => exact hsettled
  · exact going_stop

/-- The preview part has been served a request; all other steps are as they were. -/
theorem AllBut.of_previews (h : AllBut sha256 lifecycle ns app s .previews todo)
    (previews : Previews.PreviewCluster) :
    AllBut sha256 lifecycle ns app { s with previews := previews } .previews todo := by
  intro step hstep
  rcases h step hstep with rfl | htodo | hsettled
  · exact .inl rfl
  · exact .inr (.inl htodo)
  · cases step with
    | previews => exact .inl rfl
    | operation op => exact .inr (.inr hsettled)
    | jobs component lenient => exact .inr (.inr hsettled)
    | retainRedis => exact .inr (.inr hsettled)

theorem AllBut.going_goOnPreviews (h : AllBut sha256 lifecycle ns app s .previews todo)
    {program : Previews.PreviewProgram Unit}
    (htidies : Tidies lifecycle ns app program s.previews) :
    (s.goOnPreviews app program todo).Going sha256 lifecycle ns app := by
  cases program with
  | done result =>
    cases result with
    | ok _ => exact h.going (advances_refl s s.run) (htidies (fun _ ↦ .calm) _ (fun _ ↦ rfl) rfl)
    | error _ => exact going_stop
  | call c next =>
    intro run hrun
    obtain rfl := Option.some.inj hrun
    refine ⟨htidies, ?_⟩
    intro step hstep
    rcases h step hstep with rfl | htodo | hsettled
    · exact .inl (.inl rfl)
    · exact .inl (.inr htodo)
    · exact .inr (hsettled.advance hstep (advances_refl s _))

theorem AllBut.going_servePreviews (h : AllBut sha256 lifecycle ns app s .previews todo)
    {program : Previews.PreviewProgram Unit}
    (htidies : Tidies lifecycle ns app program s.previews) (answered : Bool) :
    (s.servePreviews app program todo answered).Going sha256 lifecycle ns app := by
  cases program with
  | done result => exact h.going_goOnPreviews htidies
  | call c next =>
    refine (h.of_previews _).going_goOnPreviews ?_
    intro service t hcalm hrun
    -- the request that has just been served comes before those of the rest
    let services : Nat → Previews.Service
      | 0 => ⟨[], !answered⟩
      | n + 1 => service n
    have hservices : Previews.Undisturbed services := by
      intro n
      cases n with
      | zero => rfl
      | succ n => exact hcalm n
    exact htidies services t hservices hrun

/-- A request of a sound cleanup leaves every step pending or settled. -/
theorem Going.request {run : CleanupRun} (h : s.Going sha256 lifecycle ns run.app)
    (hsound : s.Sound sha256 ns quiet earlier run) (hrun : s.run = some run) (answered : Bool) :
    (s.request sha256 lifecycle ns run answered).Going sha256 lifecycle ns run.app := by
  obtain ⟨hpromises, hpending⟩ := h run hrun
  obtain ⟨app, phase⟩ := run
  cases phase with
  | steps todo =>
    cases todo with
    | nil =>
      show Going sha256 lifecycle ns app (if answered then _ else _)
      split
      · intro run hnone
        cases hnone
      · exact going_stop
    | cons first todo =>
      have hbut : AllBut sha256 lifecycle ns app s first todo := by
        intro step hstep
        rcases hpending step hstep with hmem | hsettled
        · exact (List.mem_cons.mp hmem).imp_right .inl
        · exact .inr (.inr hsettled)
      cases first with
      | operation op => exact hbut.going_startOperation answered
      | jobs component lenient =>
        show Going sha256 lifecycle ns app (if answered then _ else _)
        split
        · apply going_jobsPhase
          intro step hstep
          rcases hbut step hstep with rfl | hrest
          · refine .inl ⟨component, rfl, ?_⟩
            intro job hjob hof
            exact .inl (List.mem_map_of_mem (List.mem_filter.mpr ⟨hjob, hof⟩))
          · exact .inr hrest
        · exact going_stop
      | retainRedis => exact hbut.going_startRetain answered
      | previews =>
        have henabled := previewsEnabled_of_mem (hsound.subset List.mem_cons_self)
        refine hbut.going_servePreviews ?_ answered
        exact fun _ _ hcalm ↦
          Previews.tidy_of_cleanupPreviews (P := parentOf ns app) rfl rfl henabled hcalm
  | delete op uid todo =>
    have hbut : AllBut sha256 lifecycle ns app s (.operation op) todo := by
      intro step hstep
      exact (hpending step hstep).elim (fun hmem ↦ hmem.imp_right .inl) fun h ↦ .inr (.inr h)
    exact hbut.going_deleteObject uid answered
  | deleteJob name names lenient todo =>
    apply going_deleteJob
    intro step hstep
    rcases hpending step hstep with (hleft | htodo) | hsettled
    · exact .inl hleft
    · exact .inr (.inl htodo)
    · exact .inr (.inr hsettled)
  | patch secret todo =>
    have hbut : AllBut sha256 lifecycle ns app s .retainRedis todo := by
      intro step hstep
      exact (hpending step hstep).elim (fun hmem ↦ hmem.imp_right .inl) fun h ↦ .inr (.inr h)
    exact hbut.going_patchRedis (hsound.1.subset List.mem_cons_self) secret answered
  | previews program todo =>
    have hbut : AllBut sha256 lifecycle ns app s .previews todo := by
      intro step hstep
      exact (hpending step hstep).elim (fun hmem ↦ hmem.imp_right .inl) fun h ↦ .inr (.inr h)
    exact hbut.going_servePreviews hpromises answered

theorem finalizer_servePreviews (program : Previews.PreviewProgram Unit) (answered : Bool) :
    (s.servePreviews app program todo answered).finalizer = s.finalizer := by
  cases program with
  | done result => exact finalizer_goOnPreviews _ _
  | call c next => exact finalizer_goOnPreviews _ _

theorem finalizer_deleteObject (op : Operation) (uid : Option Uid) (answered : Bool) :
    (s.deleteObject app op uid todo answered).finalizer = s.finalizer := by
  rcases @deleteObject_cases app s op uid todo answered with ⟨o, -, -, heq⟩ | ⟨-, heq⟩ | ⟨-, heq⟩ |
    heq
  · rw [heq]; rfl
  · rw [heq]; rfl
  · rw [heq]; rfl
  · rw [heq]; rfl

/-- The finalizer is removed after the last step, and by nothing else. -/
theorem finalizer_request (run : CleanupRun) (answered : Bool) :
    (s.request sha256 lifecycle ns run answered).finalizer = s.finalizer ∨ run.phase = .steps [] ∧
      s.request sha256 lifecycle ns run answered =
        { s with finalizer := false, run := none } := by
  obtain ⟨app, phase⟩ := run
  cases phase with
  | steps todo =>
    cases todo with
    | nil =>
      cases answered with
      | false => exact .inl rfl
      | true => exact .inr ⟨rfl, rfl⟩
    | cons first todo =>
      refine .inl ?_
      cases first with
      | operation op =>
        show (s.startOperation sha256 app op todo answered).finalizer = s.finalizer
        rw [startOperation]
        split
        · exact finalizer_deleteObject op none answered
        · split
          · split
            · rfl
            · split
              · rfl
              · rfl
          · rfl
      | jobs component lenient => cases answered <;> rfl
      | retainRedis =>
        show (s.startRetain sha256 app todo answered).finalizer = s.finalizer
        rw [startRetain]
        split
        · split
          · split
            · rfl
            · split
              · rfl
              · rfl
          · rfl
        · rfl
      | previews => exact finalizer_servePreviews _ answered
  | delete op uid todo => exact .inl (finalizer_deleteObject op uid answered)
  | deleteJob name names lenient todo =>
    refine .inl ?_
    show (s.deleteJob app name names lenient todo answered).finalizer = s.finalizer
    rw [deleteJob]
    split
    · rfl
    · split
      · rfl
      · rfl
  | patch secret todo =>
    refine .inl ?_
    show (s.patchRedis app secret todo answered).finalizer = s.finalizer
    rw [patchRedis]
    split
    · rfl
    · rfl
  | previews program todo => exact .inl (finalizer_servePreviews program answered)

/-- Once the finalizer is gone, every step of the cleanup that removed it is settled. -/
def Complete (sha256 : List UInt8 → List UInt8) (lifecycle : Bool) (ns : String) (app : Project)
    (s : Teardown) : Prop :=
  s.finalizer = false → s.run = none ∧
    ∀ step ∈ cleanupSteps app, s.Settled sha256 lifecycle ns app step

/-- A request of a sound cleanup keeps that. -/
theorem Complete.request {run : CleanupRun} (h : s.Complete sha256 lifecycle ns run.app)
    (hgoing : s.Going sha256 lifecycle ns run.app) (hrun : s.run = some run) (answered : Bool) :
    (s.request sha256 lifecycle ns run answered).Complete sha256 lifecycle ns run.app := by
  intro hgone
  rcases finalizer_request run answered with hsame | ⟨hphase, heq⟩
  · rw [hsame] at hgone
    rw [(h hgone).1] at hrun
    cases hrun
  · refine ⟨by rw [heq], ?_⟩
    intro step hstep
    have hpending := (hgoing run hrun).2 step hstep
    rw [Pending, hphase] at hpending
    rw [heq]
    exact (hpending.resolve_left List.not_mem_nil).advance hstep
      ⟨fun _ _ _ h ↦ h, fun _ h ↦ h, rfl, fun _ h ↦ h, fun _ h ↦ h⟩

/-- From whatever state a cleanup starts: if nobody else acts and it gets to remove the finalizer,
however its requests end, then every step is settled. -/
theorem teardown_complete {tr : List (Transition Teardown TeardownAction)} {u : Teardown}
    (hstart : step sha256 lifecycle ns s (.start app) = some t)
    (h : Run (step sha256 lifecycle ns) t tr u)
    (hrequests : ∀ x ∈ tr, ∃ answered, x.action = .request answered)
    (hgone : u.finalizer = false) :
    ∀ step ∈ cleanupSteps app, u.Settled sha256 lifecycle ns app step := by
  obtain ⟨hfinalizer, heq⟩ := Option.ite_none_right_eq_some.mp hstart
  obtain rfl := Option.some.inj heq
  have hinvariant := Run.safe_of_condition (C := fun x ↦ ∃ answered, x.action = .request answered)
    (P := fun _ ↦ True)
    (I := fun s : Teardown ↦ (∃ earlier, s.WellSound sha256 ns False earlier app) ∧
      s.Going sha256 lifecycle ns app ∧ s.Complete sha256 lifecycle ns app)
    ⟨⟨[], ?_⟩, ?_, ?_⟩ ?_ h hrequests
  · exact (hinvariant.1.2.2 hgone).2
  · intro run hrun
    obtain rfl := Option.some.inj hrun
    exact ⟨rfl, List.suffix_refl _⟩
  · intro run hrun
    obtain rfl := Option.some.inj hrun
    exact ⟨trivial, fun step hstep ↦ .inl hstep⟩
  · intro hfalse
    rw [show s.finalizer = false from hfalse] at hfinalizer
    cases hfinalizer
  · intro s a t hs ha hx
    refine ⟨?_, trivial⟩
    obtain ⟨answered, rfl⟩ := hx
    obtain ⟨run, hrun, rfl⟩ := Option.map_eq_some_iff.mp ha
    obtain ⟨⟨earlier, hwell⟩, hgoing, hcomplete⟩ := hs
    obtain ⟨rfl, hsound⟩ := hwell run hrun
    refine ⟨⟨earlier ++ [⟨s, .request answered, s⟩], ?_⟩, hgoing.request hsound hrun answered,
      hcomplete.request hgoing hrun answered⟩
    exact (hsound.later fun y hy ↦ List.mem_append_left _ hy).request
      ⟨_, List.mem_append_right _ List.mem_cons_self, rfl, rfl⟩ lifecycle

/-- Under `Retain`, with a delete of the build Job that fails. -/
def shopRetained : List TeardownAction :=
  List.replicate 13 (.request true) ++ .request false :: List.replicate 9 (.request true)

/-- The cleanup of `shop` removes the finalizer. The build Job that it could not delete is left, the
Secret is kept without the Project as an owner. -/
theorem teardown_complete_shop : ∃ t u,
    step id false "team" (init (shopNamespace 10) shopJobs shopPreviews)
      (.start (shopDeleted .retain)) = some t ∧
    execute (step id false "team") t shopRetained = some u ∧ u.finalizer = false ∧
    u.refusedJobs = ["shop-build-1"] ∧
    u.jobs.jobs = [jobOf "shop" "build" "shop-build-1", jobOf "blog" "build" "blog-build-1"] ∧
    (∃ secret, u.cluster.object .secret "shop-redis-credentials" = some (.secret secret) ∧
      secret.ownerReferences = some []) ∧
    ∀ step ∈ cleanupSteps (shopDeleted .retain),
      u.Settled id false "team" (shopDeleted .retain) step := by
  refine ⟨_, _, rfl, rfl, rfl, rfl, rfl, ⟨_, rfl, rfl⟩, ?_⟩
  refine teardown_complete (s := init (shopNamespace 10) shopJobs shopPreviews) rfl
    (Run.of_execute shopRetained rfl) ?_ rfl
  intro x hx
  have haction := action_mem_of_mem_transitions hx
  simp only [shopRetained, List.mem_append, List.mem_cons, List.mem_replicate] at haction
  rcases haction with ⟨-, h⟩ | h | ⟨-, h⟩
  · exact ⟨true, h⟩
  · exact ⟨false, h⟩
  · exact ⟨true, h⟩

/-! ## A cleanup that is left alone -/

/-- Enough answered requests remove the finalizer, and none of them is passed over. -/
def Finishes (sha256 : List UInt8 → List UInt8) (lifecycle : Bool) (ns : String) (s : Teardown) :
    Prop :=
  ∃ n u, execute (step sha256 lifecycle ns) s (List.replicate n (.request true)) = some u ∧
    u.finalizer = false ∧ u.refused = s.refused ∧ u.refusedJobs = s.refusedJobs

/-- One request more. -/
theorem Finishes.of_request {run : CleanupRun} (hrun : s.run = some run)
    (hrefused : (s.request sha256 lifecycle ns run true).refused = s.refused)
    (hrefusedJobs : (s.request sha256 lifecycle ns run true).refusedJobs = s.refusedJobs)
    (h : (s.request sha256 lifecycle ns run true).Finishes sha256 lifecycle ns) :
    s.Finishes sha256 lifecycle ns := by
  obtain ⟨n, u, hu, hgone, hsame, hsameJobs⟩ := h
  refine ⟨n + 1, u, ?_, hgone, hsame.trans hrefused, hsameJobs.trans hrefusedJobs⟩
  rw [List.replicate_succ, execute, step, hrun]
  exact hu

/-- The Redis Secret of the namespace has the version that the API server gives every object. -/
def Versioned (app : Project) (s : Teardown) : Prop :=
  ∀ secret, s.cluster.object .secret (app.name ++ "-redis-credentials") = some (.secret secret) →
    secret.resourceVersion.isSome

theorem Versioned.erase (h : s.Versioned app) (kind : ObjectKind) (name : String)
    (run : Option CleanupRun) :
    ({ s with cluster := s.cluster.erase kind name, run := run } : Teardown).Versioned app :=
  fun secret hsecret ↦ h secret ((advances_erase s kind name run).object _ _ _ hsecret)

/-- The precondition of a delete is the UID of the object that was looked at. -/
theorem precondition_cases (access : Access) (o : Object) :
    (access.precondition o).isNone ∨ access.precondition o = o.uid := by
  cases access with
  | deleteRedisIfManaged =>
    cases o with
    | secret secret => exact .inr rfl
    | resource owners revision => exact .inl rfl
  | _ => exact .inl rfl

/-- Whatever the namespace is, the steps that are left come to an end if no preview has to be waited
for. -/
def StepsFinish (sha256 : List UInt8 → List UInt8) (lifecycle : Bool) (ns : String) (app : Project)
    (todo : List CleanupStep) : Prop :=
  ∀ s : Teardown, s.run = some ⟨app, .steps todo⟩ → s.Versioned app →
    (.previews ∈ todo → Previews.NoneToAwait lifecycle (parentOf ns app) s.previews) →
      s.Finishes sha256 lifecycle ns

/-- A delete of an object under the UID that was read, or without one. -/
theorem finishes_delete {op : Operation} {o : Object} {uid : Option Uid} {phase : CleanupPhase}
    (hrest : StepsFinish sha256 lifecycle ns app todo) (hrun : s.run = some ⟨app, phase⟩)
    (hrequest : s.request sha256 lifecycle ns ⟨app, phase⟩ true =
      s.deleteObject app op uid todo true)
    (hobject : s.cluster.object op.kind (op.name.resolve app.name) = some o)
    (huid : uid.isNone ∨ uid = o.uid) (hversioned : s.Versioned app)
    (hnone : .previews ∈ todo → Previews.NoneToAwait lifecycle (parentOf ns app) s.previews) :
    s.Finishes sha256 lifecycle ns := by
  have heq : s.request sha256 lifecycle ns ⟨app, phase⟩ true =
      { s with cluster := s.cluster.erase op.kind (op.name.resolve app.name) }.goOn app
        (.steps todo) := by
    rw [hrequest, deleteObject, if_pos rfl, hobject]
    exact if_pos huid
  apply Finishes.of_request hrun
  · rw [heq]
    rfl
  · rw [heq]
    rfl
  · rw [heq]
    exact hrest _ rfl (hversioned.erase _ _ _) hnone

/-- A request that changes nothing but the phase. -/
theorem finishes_goOn {phase phase' : CleanupPhase} (hrun : s.run = some ⟨app, phase⟩)
    (heq : s.request sha256 lifecycle ns ⟨app, phase⟩ true = s.goOn app phase')
    (h : (s.goOn app phase').Finishes sha256 lifecycle ns) : s.Finishes sha256 lifecycle ns := by
  apply Finishes.of_request hrun
  · rw [heq]
    rfl
  · rw [heq]
    rfl
  · rw [heq]
    exact h

theorem finishes_operation {op : Operation} (hrest : StepsFinish sha256 lifecycle ns app todo) :
    StepsFinish sha256 lifecycle ns app (.operation op :: todo) := by
  intro s hrun hversioned hnone
  have hnone' := fun hmem ↦ hnone (List.mem_cons_of_mem _ hmem)
  have hrequest : s.request sha256 lifecycle ns ⟨app, .steps (.operation op :: todo)⟩ true =
      s.startOperation sha256 app op todo true := rfl
  cases hobject : s.cluster.object op.kind (op.name.resolve app.name) with
  | none =>
    refine finishes_goOn hrun ?_ (hrest (s.goOn app (.steps todo)) rfl hversioned hnone')
    rw [hrequest, startOperation]
    split
    · next haccess =>
      rw [deleteObject, if_pos rfl, hobject, haccess]
      rfl
    · rw [if_pos rfl, hobject]
  | some o =>
    by_cases haccess : op.access = .delete
    · have huid : (none : Option Uid).isNone ∨ none = o.uid := .inl rfl
      refine finishes_delete hrest hrun ?_ hobject huid hversioned hnone'
      rw [hrequest, startOperation, if_pos haccess]
    · by_cases hissue : op.onExisting sha256 app s.cluster o = .issue
      · have hlooked : s.request sha256 lifecycle ns ⟨app, .steps (.operation op :: todo)⟩ true =
            s.goOn app (.delete op (op.access.precondition o) todo) := by
          rw [hrequest, startOperation, if_neg haccess, if_pos rfl, hobject]
          exact if_pos hissue
        exact finishes_goOn hrun hlooked
          (finishes_delete hrest rfl rfl hobject (precondition_cases op.access o) hversioned hnone')
      · refine finishes_goOn hrun ?_ (hrest (s.goOn app (.steps todo)) rfl hversioned hnone')
        rw [hrequest, startOperation, if_neg haccess, if_pos rfl, hobject]
        exact if_neg hissue

/-- Jobs that are there, each listed once, are deleted one after the other. -/
theorem finishes_jobsPhase {names : List String} {lenient : Bool}
    (hrest : StepsFinish sha256 lifecycle ns app todo) (hnodup : names.Nodup)
    (hnames : ∀ name ∈ names, name ∈ s.jobs.jobs.map (·.name))
    (hrun : s.run = some ⟨app, jobsPhase names lenient todo⟩) (hversioned : s.Versioned app)
    (hnone : .previews ∈ todo → Previews.NoneToAwait lifecycle (parentOf ns app) s.previews) :
    s.Finishes sha256 lifecycle ns := by
  induction names generalizing s with
  | nil => exact hrest s hrun hversioned hnone
  | cons name names ih =>
    obtain ⟨hfresh, hnodup⟩ := List.nodup_cons.mp hnodup
    have heq : s.request sha256 lifecycle ns ⟨app, jobsPhase (name :: names) lenient todo⟩ true =
        { s with jobs := s.jobs.erase name }.goOn app (jobsPhase names lenient todo) :=
      if_pos ⟨rfl, hnames name List.mem_cons_self⟩
    apply Finishes.of_request hrun
    · rw [heq]
      rfl
    · rw [heq]
      rfl
    · rw [heq]
      refine ih hnodup ?_ rfl hversioned hnone
      intro other hother
      obtain ⟨job, hjob, rfl⟩ := List.mem_map.mp (hnames other (List.mem_cons_of_mem _ hother))
      refine List.mem_map_of_mem (List.mem_filter.mpr ⟨hjob, decide_eq_true ?_⟩)
      rintro rfl
      exact hfresh hother

theorem finishes_jobs {component : String} {lenient : Bool}
    (hrest : StepsFinish sha256 lifecycle ns app todo) :
    StepsFinish sha256 lifecycle ns app (.jobs component lenient :: todo) := by
  intro s hrun hversioned hnone
  have hnone' := fun hmem ↦ hnone (List.mem_cons_of_mem _ hmem)
  refine finishes_goOn hrun rfl (finishes_jobsPhase hrest ?_ ?_ rfl hversioned hnone')
  · exact s.jobs.nodup.sublist (List.Sublist.map _ List.filter_sublist)
  · intro name hname
    obtain ⟨job, hjob, rfl⟩ := List.mem_map.mp hname
    exact List.mem_map_of_mem (List.mem_filter.mp hjob).1

theorem finishes_retainRedis (hrest : StepsFinish sha256 lifecycle ns app todo) :
    StepsFinish sha256 lifecycle ns app (.retainRedis :: todo) := by
  intro s hrun hversioned hnone
  have hnone' := fun hmem ↦ hnone (List.mem_cons_of_mem _ hmem)
  have hrequest : s.request sha256 lifecycle ns ⟨app, .steps (.retainRedis :: todo)⟩ true =
      s.startRetain sha256 app todo true := rfl
  rw [startRetain, if_pos rfl] at hrequest
  split at hrequest
  · next secret hobject =>
    split at hrequest
    · exact finishes_goOn hrun hrequest (hrest (s.goOn app (.steps todo)) rfl hversioned hnone')
    · have hversion : ¬ secret.resourceVersion.isNone = true := by
        intro hnone
        have hsome := hversioned secret hobject
        rw [Option.isNone_iff_eq_none.mp hnone] at hsome
        cases hsome
      rw [if_neg hversion] at hrequest
      refine finishes_goOn hrun hrequest ?_
      have heq : (s.goOn app (.patch secret todo)).request sha256 lifecycle ns
          ⟨app, .patch secret todo⟩ true =
          { s with cluster := s.cluster.patchSecret app _ secret hobject }.goOn app (.steps todo) :=
        dif_pos ⟨rfl, hobject⟩
      have hpatching : (s.goOn app (.patch secret todo)).run = some ⟨app, .patch secret todo⟩ := rfl
      apply Finishes.of_request hpatching
      · rw [heq]
        rfl
      · rw [heq]
        rfl
      · rw [heq]
        refine hrest _ rfl ?_ hnone'
        intro secret' hsecret'
        have hnow : some (Object.secret (patchedSecret app secret)) = some (.secret secret') :=
          (if_pos ⟨rfl, rfl⟩).symm.trans hsecret'
        obtain rfl := Object.secret.inj (Option.some.inj hnow)
        show (secret.resourceVersion.map _).isSome
        rw [Option.isSome_map]
        exact hversioned secret hobject
  · exact finishes_goOn hrun hrequest (hrest (s.goOn app (.steps todo)) rfl hversioned hnone')

/-- A preview part that succeeds when every request is answered comes to an end; it is the last. -/
theorem finishes_servePreviews {phase : CleanupPhase}
    (hrest : StepsFinish sha256 lifecycle ns app todo) (hlast : .previews ∉ todo)
    (program : Previews.PreviewProgram Unit) (hrun : s.run = some ⟨app, phase⟩)
    (hrequest : s.request sha256 lifecycle ns ⟨app, phase⟩ true =
      s.servePreviews app program todo true)
    (hok : (program.run Previews.serve (fun _ ↦ .calm) s.previews).2 = .ok ())
    (hversioned : s.Versioned app) : s.Finishes sha256 lifecycle ns := by
  induction program generalizing s phase with
  | done result =>
    obtain rfl : result = .ok () := hok
    have hsteps := hrest (s.goOn app (.steps todo)) rfl hversioned fun hmem ↦ absurd hmem hlast
    exact finishes_goOn hrun hrequest hsteps
  | call c next ih =>
    have hnext := @ih (Previews.serve s.previews .calm c).2
    have hserved : s.request sha256 lifecycle ns ⟨app, phase⟩ true =
        ({ s with previews := (Previews.serve s.previews .calm c).1 } : Teardown).goOnPreviews app
          (next (Previews.serve s.previews .calm c).2) todo := hrequest
    apply Finishes.of_request hrun
    · rw [hserved, refused_goOnPreviews]
    · rw [hserved, refusedJobs_goOnPreviews]
    · rw [hserved]
      replace hok : ((next (Previews.serve s.previews .calm c).2).run Previews.serve
        (fun _ ↦ .calm) (Previews.serve s.previews .calm c).1).2 = .ok () := hok
      cases hprogram : next (Previews.serve s.previews .calm c).2 with
      | done result =>
        rw [hprogram] at hok
        obtain rfl : result = .ok () := hok
        exact hrest _ rfl hversioned fun hmem ↦ absurd hmem hlast
      | call c' next' =>
        rw [hprogram] at hnext hok
        exact hnext rfl rfl hok hversioned

theorem finishes_previews (hrest : StepsFinish sha256 lifecycle ns app todo)
    (hlast : .previews ∉ todo) : StepsFinish sha256 lifecycle ns app (.previews :: todo) := by
  intro s hrun hversioned hnone
  refine finishes_servePreviews hrest hlast _ hrun rfl ?_ hversioned
  exact Previews.cleanupPreviews_calm (P := parentOf ns app) rfl rfl (hnone List.mem_cons_self)

theorem finishes_steps {todo : List CleanupStep} (hnodup : todo.Nodup) :
    StepsFinish sha256 lifecycle ns app todo := by
  induction todo with
  | nil =>
    intro s hrun _ _
    refine ⟨1, { s with finalizer := false, run := none }, ?_, rfl, rfl, rfl⟩
    show (step sha256 lifecycle ns s (.request true)).bind _ = _
    rw [step, hrun]
    rfl
  | cons first todo ih =>
    obtain ⟨hfresh, hrest⟩ := List.nodup_cons.mp hnodup
    cases first with
    | operation op => exact finishes_operation (ih hrest)
    | jobs component lenient => exact finishes_jobs (ih hrest)
    | retainRedis => exact finishes_retainRedis (ih hrest)
    | previews => exact finishes_previews (ih hrest) hfresh

theorem nodup_cleanupSteps : (cleanupSteps app).Nodup := by
  cases hpolicy : app.spec.deletionPolicy <;>
    by_cases hpreviews : previewsEnabled app = true <;>
      simp only [cleanupSteps, hpolicy, hpreviews, if_true, if_false, Bool.false_eq_true] <;>
        decide

/-- From whatever state a reconcile of the deleted Project starts, if nobody else acts, every
request is answered and no preview Project has to be waited for, finitely many requests remove the
finalizer. No delete is passed over then, and nothing of any step is left. -/
theorem teardown_finishes (hfinalizer : s.finalizer = true) (hversioned : s.Versioned app)
    (hnone : previewsEnabled app = true →
      Previews.NoneToAwait lifecycle (parentOf ns app) s.previews) :
    ∃ n u, execute (step sha256 lifecycle ns) s
        (.start app :: List.replicate n (.request true)) = some u ∧
      u.finalizer = false ∧ u.refused = [] ∧ u.refusedJobs = [] ∧
      ∀ step ∈ cleanupSteps app, u.Settled sha256 lifecycle ns app step := by
  have hstart : step sha256 lifecycle ns s (.start app) = some { s with
      run := some ⟨app, .steps (cleanupSteps app)⟩, refused := [], refusedJobs := [] } :=
    if_pos hfinalizer
  obtain ⟨n, u, hu, hgone, hrefused, hrefusedJobs⟩ :=
    finishes_steps nodup_cleanupSteps { s with
      run := some ⟨app, .steps (cleanupSteps app)⟩, refused := [], refusedJobs := [] } rfl
      hversioned fun hmem ↦ hnone (previewsEnabled_of_mem hmem)
  refine ⟨n, u, ?_, hgone, hrefused, hrefusedJobs, ?_⟩
  · rw [execute, hstart]
    exact hu
  · refine teardown_complete hstart (Run.of_execute _ hu) ?_ hgone
    intro x hx
    exact ⟨true, List.eq_of_mem_replicate (action_mem_of_mem_transitions hx)⟩

/-- The deletion of `shop` comes to an end next to a preview namespace that holds no preview. -/
theorem teardown_finishes_shop : ∃ n u,
    execute (step id false "team") (init (shopNamespace 10) shopJobs shopPreviews)
        (.start (shopDeleted .delete) :: List.replicate n (.request true)) = some u ∧
      u.finalizer = false ∧ u.refused = [] ∧ u.refusedJobs = [] ∧
      ∀ step ∈ cleanupSteps (shopDeleted .delete),
        u.Settled id false "team" (shopDeleted .delete) step := by
  refine teardown_finishes rfl ?_ fun _ ↦ ?_
  · intro secret hsecret
    obtain rfl := Object.secret.inj (Option.some.inj hsecret)
    rfl
  · intro n hn
    obtain rfl := Option.some.inj hn
    exact .inr (by decide)

end ReinhardtCloud.Operator.Teardown

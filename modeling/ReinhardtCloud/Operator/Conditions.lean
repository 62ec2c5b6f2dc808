import ReinhardtCloud.Base.Keyed
import ReinhardtCloud.Operator.SourceBuild

/-!
# Status conditions

Library `Operator`. The writers of `status.conditions`: `build_status` and
`build_degraded_status_patch` (`crates/reinhardt-cloud-operator/src/reconciler.rs:2888–2905,
3505–3630`), `build_status_patch` and `clear_preview_build_status_patch`
(`source_build.rs:182–282,409–449`). Merge patch replaces the list as a whole, so a writer has to
send every condition it means to keep.
-/

namespace ReinhardtCloud.Operator

open ReinhardtCloud.Base

/-- `ConditionType`, `status.rs:13–32`. -/
inductive ConditionType where
  | ready
  | progressing
  | degraded
  | migrationReady
  | databaseReady
  | cacheReady
  | workerReady
  | ingressReady
  | tlsReady
  | autoscalerReady
  deriving DecidableEq

/-- `ConditionStatus`, `status.rs:35–39`. -/
inductive ConditionStatus where
  | true
  | false
  | unknown
  deriving DecidableEq

/-- `ProjectCondition`, `status.rs:104–118`. -/
structure ProjectCondition where
  type_ : ConditionType
  status : ConditionStatus
  reason : String
  message : String
  lastTransitionTime : Option String
  observedGeneration : Option Int
  deriving DecidableEq

/-- `ProjectPhase`, `enums.rs`. -/
inductive ProjectPhase where
  | pending
  | provisioning
  | deploying
  | running
  | degraded
  | failed
  | terminating
  deriving DecidableEq

/-- `MigrationGateState`, `reconciler.rs:1148–1153`. -/
inductive MigrationGateState where
  | notRequired
  | running
  | succeeded
  | failed
  deriving DecidableEq

/-- A Project with its generation and the conditions of its status, none without a status. -/
structure ConditionedProject extends Project where
  generation : Option Int
  conditions : List ProjectCondition

/-- The status fields a payload sends; an absent `conditions` or `phase` is not sent, a `build`
of `some none` is `null`. -/
structure StatusPatch where
  phase : Option ProjectPhase
  conditions : Option (List ProjectCondition)
  observedGeneration : Option Int
  readyReplicas : Option Int := none
  build : Option (Option BuildStatus) := none
  databaseCredentialsSecret : Option String := none
  deriving DecidableEq

/-- The conditions after a JSON merge patch: a sent list replaces the old one. -/
def mergeConditions (old : List ProjectCondition) (patch : StatusPatch) : List ProjectCondition :=
  patch.conditions.getD old

/-- When each condition is built, in RFC 3339. -/
abbrev Clock := ConditionType → String

/-- `skip_serializing_if = "Vec::is_empty"`. -/
def sentConditions (conditions : List ProjectCondition) : Option (List ProjectCondition) :=
  if conditions.isEmpty then none else some conditions

/-- `upsert_condition`, `source_build.rs:182–191`, and `upsert_project_condition`,
`reconciler.rs:3746–3755`. -/
def upsertCondition (next : ProjectCondition) (conditions : List ProjectCondition) :
    List ProjectCondition :=
  upsert ProjectCondition.type_ next conditions

/-- Upsert a condition where there is one. -/
def upsertOption (next : Option ProjectCondition) (conditions : List ProjectCondition) :
    List ProjectCondition :=
  match next with
  | some condition => upsertCondition condition conditions
  | none => conditions

/-! ## `build_status`, `reconciler.rs` -/

namespace MigrationGateState

/-- `condition_status`, `reconciler.rs:1156–1161`. -/
def conditionStatus : MigrationGateState → ConditionStatus
  | .notRequired | .succeeded => .true
  | .running | .failed => .false

/-- `reason`, `reconciler.rs:1163–1170`. -/
def reason : MigrationGateState → String
  | .notRequired => "MigrationNotRequired"
  | .running => "MigrationRunning"
  | .succeeded => "MigrationSucceeded"
  | .failed => "MigrationFailed"

/-- `message`, `reconciler.rs:1172–1179`. -/
def message : MigrationGateState → String
  | .notRequired => "No database migration is required for this project"
  | .running => "Waiting for the deployment revision migration to complete"
  | .succeeded => "Deployment revision migration completed successfully"
  | .failed => "Deployment revision migration failed; rollout is blocked"

end MigrationGateState

/-- `should_update_transition_time`, `reconciler.rs:3739–3744`. -/
def shouldUpdateTransitionTime (existing : Option ConditionStatus) (next : ConditionStatus) :
    Bool :=
  existing ≠ some next

section

variable (now : Clock) (app : ConditionedProject)

/-- `build_condition`, `reconciler.rs:2960–2992`. -/
def buildCondition (type_ : ConditionType) (status : ConditionStatus) (reason message : String) :
    ProjectCondition :=
  let existing := app.conditions.find? fun condition ↦ condition.type_ = type_
  { type_ := type_
    status := status
    reason := reason
    message := message
    lastTransitionTime :=
      if shouldUpdateTransitionTime (existing.map ProjectCondition.status) status then
        some (now type_)
      else existing.bind ProjectCondition.lastTransitionTime
    observedGeneration := app.generation }

/-- The `Degraded` condition of `build_status`, `reconciler.rs:3575–3613`, if it sets one. -/
def statusDegraded (ready : Bool) (migrationState : MigrationGateState) (reason message : String) :
    Option ProjectCondition :=
  if migrationState = .failed then
    some (buildCondition now app .degraded .true "MigrationFailed"
      "Migration failed for the target deployment revision")
  else if ready then
    (app.conditions.find? fun condition ↦ condition.type_ = .degraded).map fun existing ↦
      { type_ := .degraded
        status := .false
        reason := reason
        message := message
        lastTransitionTime :=
          if shouldUpdateTransitionTime (some existing.status) .false then some (now .degraded)
          else existing.lastTransitionTime
        observedGeneration := app.generation }
  else none

/-- `build_status`, `reconciler.rs:3505–3630`, as it is sent by `update_status`. -/
def buildStatus (ready : Bool) (readyReplicas : Int) (migrationState : MigrationGateState)
    (childConditions : List ProjectCondition) : StatusPatch :=
  let phase :=
    if migrationState = .failed then .degraded else if ready then .running else .deploying
  let status := if ready then .true else .false
  let reason :=
    if ready then "ReconcileSuccess"
    else if migrationState = .failed then "MigrationFailed"
    else "ReconcileInProgress"
  let message :=
    if ready then "Application is ready"
    else if migrationState = .failed then "Migration failed; rollout is blocked"
    else "Waiting for deployment rollout to complete"
  let conditions := upsertCondition (buildCondition now app .ready status reason message)
    app.conditions
  let conditions := upsertCondition (buildCondition now app .migrationReady
    migrationState.conditionStatus migrationState.reason migrationState.message) conditions
  let conditions := upsertOption (statusDegraded now app ready migrationState reason message)
    conditions
  let conditions :=
    childConditions.foldl (fun conditions c ↦ upsertCondition c conditions) conditions
  { phase := some phase
    conditions := sentConditions conditions
    observedGeneration := app.generation
    readyReplicas := some readyReplicas
    build := (app.status.bind fun s ↦ s.build).map some
    databaseCredentialsSecret := app.spec.database.map fun _ ↦ s!"{app.name}-db-credentials" }

/-- `build_degraded_status_patch`, `reconciler.rs:2888–2905`. -/
def buildDegradedStatusPatch (reason message : String) : StatusPatch where
  phase := some .failed
  conditions := some
    [{ type_ := .degraded
       status := .true
       reason := reason
       message := message
       lastTransitionTime := some (now .degraded)
       observedGeneration := app.generation }]
  observedGeneration := app.generation

/-! ## `source_build.rs` -/

/-- `source_build::build_condition`, `source_build.rs:165–180`. -/
def freshCondition (type_ : ConditionType) (status : ConditionStatus) (reason message : String)
    (observedGeneration : Option Int) : ProjectCondition :=
  ⟨type_, status, reason, message, some (now type_), observedGeneration⟩

/-- `preserve_transition_time_for_unchanged_status`, `source_build.rs:193–203`. -/
def preserveTransitionTimeForUnchangedStatus (condition : ProjectCondition) : ProjectCondition :=
  match app.conditions.find? fun existing ↦
      existing.type_ = condition.type_ && existing.status = condition.status with
  | none => condition
  | some existing => { condition with lastTransitionTime := existing.lastTransitionTime }

/-- `has_condition_status`, `source_build.rs:205–212`. -/
def hasConditionStatus (type_ : ConditionType) (status : ConditionStatus) : Bool :=
  app.conditions.any fun condition ↦ condition.type_ = type_ && condition.status = status

/-- `companion_build_condition`, `source_build.rs:214–248`. -/
def companionBuildCondition (condition : ProjectCondition) : Option ProjectCondition :=
  let shouldClearDegraded := condition.type_ = .progressing && condition.status = .true &&
    hasConditionStatus app .degraded .true
  let shouldClearProgressing := condition.type_ = .degraded && condition.status = .true
  let shouldClearDegradedAfterSuccess := condition.type_ = .progressing &&
    condition.status = .false && condition.reason = "BuildSucceeded"
  if shouldClearDegraded || shouldClearDegradedAfterSuccess then
    some (freshCondition now .degraded .false condition.reason condition.message
      condition.observedGeneration)
  else if shouldClearProgressing then
    some (freshCondition now .progressing .false condition.reason condition.message
      condition.observedGeneration)
  else none

/-- `build_status_patch`, `source_build.rs:250–282`. -/
def buildStatusPatch (build : BuildStatus) (condition : ProjectCondition) : StatusPatch :=
  let phase : Option ProjectPhase :=
    match build.phase with
    | .pending | .running => some .deploying
    | .failed => some .degraded
    | .succeeded => none
  let conditions := upsertCondition (preserveTransitionTimeForUnchangedStatus app condition)
    app.conditions
  let conditions := upsertOption ((companionBuildCondition now app condition).map
    (preserveTransitionTimeForUnchangedStatus app)) conditions
  { phase := phase
    conditions := some conditions
    observedGeneration := app.generation
    build := some (some build) }

/-- `clear_preview_build_status_patch`, `source_build.rs:409–449`. -/
def clearPreviewBuildStatusPatch (prNumber previewName : String) : Option StatusPatch :=
  match matchingPreviewBuildStatus app.toProject prNumber previewName with
  | none => none
  | some _ =>
    let message :=
      s!"Preview build for {previewName} was cancelled because the preview was deleted"
    let progressing := freshCondition now .progressing .false "PreviewDeleted" message
      app.generation
    let degraded := freshCondition now .degraded .false "PreviewDeleted" message app.generation
    let conditions := upsertCondition (preserveTransitionTimeForUnchangedStatus app progressing)
      app.conditions
    let conditions := upsertCondition (preserveTransitionTimeForUnchangedStatus app degraded)
      conditions
    some
      { phase := none
        conditions := some conditions
        observedGeneration := app.generation
        build := some none }

/-! ## The payloads and the types they set -/

/-- A child condition `apply` passes to `build_status`: its type, status, reason and message. -/
structure ChildCondition where
  type_ : ConditionType
  status : ConditionStatus
  reason : String
  message : String

/-- The status payloads, with what their writers are given. -/
inductive StatusPayload where
  | status (ready : Bool) (readyReplicas : Int) (migrationState : MigrationGateState)
      (children : List ChildCondition)
  | build (build : BuildStatus) (type_ : ConditionType) (status : ConditionStatus)
      (reason message : String)
  | clearPreviewBuild (prNumber previewName : String)
  | degraded (reason message : String)

/-- The patch of a payload, if there is one. -/
def StatusPayload.patch (payload : StatusPayload) : Option StatusPatch :=
  match payload with
  | .status ready readyReplicas migrationState children =>
    some (buildStatus now app ready readyReplicas migrationState
      (children.map fun c ↦ buildCondition now app c.type_ c.status c.reason c.message))
  | .build b type_ value reason message =>
    some (buildStatusPatch now app b (freshCondition now type_ value reason message app.generation))
  | .clearPreviewBuild prNumber previewName =>
    clearPreviewBuildStatusPatch now app prNumber previewName
  | .degraded reason message => some (buildDegradedStatusPatch now app reason message)

/-- The condition types a payload's writer sets, the last one first. -/
def StatusPayload.written (payload : StatusPayload) : List ConditionType :=
  match payload with
  | .status ready _ migrationState children =>
    (children.map ChildCondition.type_).reverse ++
      ((statusDegraded now app ready migrationState "" "").map ProjectCondition.type_).toList ++
      [.migrationReady, .ready]
  | .build _ type_ value reason message =>
    ((companionBuildCondition now app (freshCondition now type_ value reason message
      app.generation)).map ProjectCondition.type_).toList ++ [type_]
  | .clearPreviewBuild prNumber previewName =>
    match matchingPreviewBuildStatus app.toProject prNumber previewName with
    | some _ => [.degraded, .progressing]
    | none => []
  | .degraded _ _ => [.degraded]

/-- The conditions after the payload, if any, is merged into the status it was computed from. -/
def StatusPayload.conditionsAfter (payload : StatusPayload) : List ProjectCondition :=
  match payload.patch now app with
  | some patch => mergeConditions app.conditions patch
  | none => app.conditions

end

/-- A transition time differs only where the status does. -/
def HonestTime (old new : ProjectCondition) : Prop :=
  new.lastTransitionTime ≠ old.lastTransitionTime → new.status ≠ old.status

/-- The written list carries the one that was read: types stay unique, conditions of types not
set stay, and transition times are honest. -/
abbrev ConditionsCarried (old : List ProjectCondition) (written : List ConditionType)
    (new : List ProjectCondition) : Prop :=
  Carried ProjectCondition.type_ HonestTime old written new

section

variable {now : Clock} {app : ConditionedProject} {old new : List ProjectCondition}
  {written : List ConditionType}

/-- The condition is honest about the one of its type that was read. -/
def HonestSince (old : List ProjectCondition) (next : ProjectCondition) : Prop :=
  ∀ o, entryOf ProjectCondition.type_ next.type_ old = some o → HonestTime o next

/-- `build_condition` keeps the time of an unchanged status. -/
theorem honest_buildCondition {type_ : ConditionType} {status : ConditionStatus}
    {reason message : String} :
    HonestSince app.conditions (buildCondition now app type_ status reason message) := by
  intro o ho
  have hfind : app.conditions.find? (fun c ↦ decide (c.type_ = type_)) = some o := ho
  intro htime hstatus
  apply htime
  have hsame : status = o.status := hstatus
  simp only [buildCondition, hfind, Option.map_some, Option.bind_some, shouldUpdateTransitionTime,
    hsame, ne_eq, not_true_eq_false, decide_false, Bool.false_eq_true, ↓reduceIte]

@[simp] theorem type_preserve {next : ProjectCondition} :
    (preserveTransitionTimeForUnchangedStatus app next).type_ = next.type_ := by
  unfold preserveTransitionTimeForUnchangedStatus
  split <;> rfl

private theorem type_preserve_comp :
    ProjectCondition.type_ ∘ preserveTransitionTimeForUnchangedStatus app =
      ProjectCondition.type_ :=
  funext fun _ ↦ type_preserve

/-- `preserve_transition_time_for_unchanged_status` does too. -/
theorem honest_preserve (next : ProjectCondition) :
    HonestSince app.conditions (preserveTransitionTimeForUnchangedStatus app next) := by
  intro o ho
  have hstatus : (preserveTransitionTimeForUnchangedStatus app next).status = next.status := by
    unfold preserveTransitionTimeForUnchangedStatus
    split <;> rfl
  rw [type_preserve, entryOf] at ho
  intro htime hsame
  apply htime
  -- The first condition of the type has the new status, so it is the one whose time is kept.
  have hfirst : app.conditions.find? (fun existing ↦
      existing.type_ = next.type_ && existing.status = next.status) = some o := by
    obtain ⟨hp, before, after, hlist, hbefore⟩ := List.find?_eq_some_iff_append.mp ho
    refine List.find?_eq_some_iff_append.mpr ⟨?_, before, after, hlist, ?_⟩
    · rw [hp, Bool.true_and, decide_eq_true_eq, ← hsame, hstatus]
    · intro c hc
      have hother := hbefore c hc
      rw [Bool.not_eq_true'] at hother ⊢
      rw [hother, Bool.false_and]
  simp only [preserveTransitionTimeForUnchangedStatus, hfirst]

private theorem HonestTime.refl (c : ProjectCondition) : HonestTime c c := fun h ↦ absurd rfl h

/-- An upsert of an honest condition. -/
private theorem carried_upsert {next : ProjectCondition}
    (h : ConditionsCarried app.conditions written new) (hnext : HonestSince app.conditions next) :
    ConditionsCarried app.conditions (next.type_ :: written) (upsertCondition next new) :=
  h.upsert hnext

private theorem carried_foldl {nexts : List ProjectCondition}
    (h : ConditionsCarried app.conditions written new)
    (hnexts : ∀ next ∈ nexts, HonestSince app.conditions next) :
    ConditionsCarried app.conditions ((nexts.map ProjectCondition.type_).reverse ++ written)
      (nexts.foldl (fun conditions c ↦ upsertCondition c conditions) new) := by
  induction nexts generalizing written new with
  | nil => exact h
  | cons next rest ih =>
    have hrest := ih (carried_upsert h (hnexts next List.mem_cons_self))
      fun c hc ↦ hnexts c (List.mem_cons_of_mem _ hc)
    rw [List.map_cons, List.reverse_cons, List.append_assoc, List.singleton_append]
    exact hrest

private theorem upsert_isEmpty (next : ProjectCondition) (conditions : List ProjectCondition) :
    (upsertCondition next conditions).isEmpty = false := by
  cases conditions with
  | nil => rfl
  | cons c rest =>
    unfold upsertCondition upsert
    split <;> rfl

/-- The `Degraded` condition of `build_status` is honest. -/
private theorem honest_statusDegraded {ready : Bool} {migrationState : MigrationGateState}
    {reason message : String} {degraded : ProjectCondition}
    (h : statusDegraded now app ready migrationState reason message = some degraded) :
    HonestSince app.conditions degraded := by
  unfold statusDegraded at h
  split at h
  · cases h
    exact honest_buildCondition
  · split at h
    · obtain ⟨existing, hfind, rfl⟩ := Option.map_eq_some_iff.mp h
      intro o ho htime hstatus
      obtain rfl := Option.some.inj (hfind.symm.trans ho)
      apply htime
      have hsame : ConditionStatus.false = existing.status := hstatus
      simp only [shouldUpdateTransitionTime, ← hsame, ne_eq, not_true_eq_false, decide_false,
        Bool.false_eq_true, ↓reduceIte]
    · cases h

private theorem map_type_statusDegraded {ready : Bool} {migrationState : MigrationGateState}
    {reason message : String} :
    (statusDegraded now app ready migrationState reason message).map ProjectCondition.type_ =
      (statusDegraded now app ready migrationState "" "").map ProjectCondition.type_ := by
  unfold statusDegraded
  split
  · rfl
  · split
    · rw [Option.map_map, Option.map_map]
      rfl
    · rfl

private theorem carried_option {next : Option ProjectCondition}
    (h : ConditionsCarried app.conditions written new)
    (hnext : ∀ c, next = some c → HonestSince app.conditions c) :
    ConditionsCarried app.conditions ((next.map ProjectCondition.type_).toList ++ written)
      (upsertOption next new) := by
  cases next with
  | none => exact h
  | some c => exact carried_upsert h (hnext c rfl)

private theorem sentConditions_getD {conditions old : List ProjectCondition}
    (h : conditions.isEmpty = false) : (sentConditions conditions).getD old = conditions := by
  rw [sentConditions, h]
  rfl

private theorem foldl_upsert_isEmpty {nexts conditions : List ProjectCondition}
    (h : conditions.isEmpty = false) :
    (nexts.foldl (fun conditions c ↦ upsertCondition c conditions) conditions).isEmpty = false := by
  induction nexts generalizing conditions with
  | nil => exact h
  | cons next rest ih => exact ih (upsert_isEmpty next conditions)

/-- What `build_status` does to the list: its three own conditions, then the children's. -/
private theorem carried_statusUpserts (now : Clock) (app : ConditionedProject) (ready : Bool)
    {status : ConditionStatus} (migrationState : MigrationGateState) {reason message : String}
    (children : List ChildCondition) :
    let build := fun c : ChildCondition ↦ buildCondition now app c.type_ c.status c.reason c.message
    let own := upsertCondition (buildCondition now app .migrationReady
      migrationState.conditionStatus migrationState.reason migrationState.message)
      (upsertCondition (buildCondition now app .ready status reason message) app.conditions)
    let conditions := (children.map build).foldl (fun conditions c ↦ upsertCondition c conditions)
      (upsertOption (statusDegraded now app ready migrationState reason message) own)
    conditions.isEmpty = false ∧ ConditionsCarried app.conditions
      ((children.map ChildCondition.type_).reverse ++
        (((statusDegraded now app ready migrationState "" "").map ProjectCondition.type_).toList ++
          [.migrationReady, .ready])) conditions := by
  intro build own conditions
  have hready : HonestSince app.conditions (buildCondition now app .ready status reason message) :=
    honest_buildCondition
  have hmigration : HonestSince app.conditions (buildCondition now app .migrationReady
      migrationState.conditionStatus migrationState.reason migrationState.message) :=
    honest_buildCondition
  have hdegraded : ∀ c, statusDegraded now app ready migrationState reason message = some c →
      HonestSince app.conditions c := fun c hc ↦ honest_statusDegraded hc
  have hbuilt : ∀ c ∈ children.map build, HonestSince app.conditions c := by
    intro c hc
    obtain ⟨child, -, rfl⟩ := List.mem_map.mp hc
    exact honest_buildCondition
  have hown := carried_upsert
    (carried_upsert (Carried.refl HonestTime.refl app.conditions) hready) hmigration
  have hchildren := carried_foldl (carried_option hown hdegraded) hbuilt
  rw [map_type_statusDegraded, List.map_map] at hchildren
  refine ⟨foldl_upsert_isEmpty ?_, hchildren⟩
  unfold upsertOption
  split
  · exact upsert_isEmpty _ _
  · exact upsert_isEmpty _ _

/-- `build_status` carries the conditions. -/
theorem carried_status (ready : Bool) (readyReplicas : Int) (migrationState : MigrationGateState)
    (children : List ChildCondition) :
    let payload := StatusPayload.status ready readyReplicas migrationState children
    ConditionsCarried app.conditions (payload.written now app)
      (payload.conditionsAfter now app) := by
  intro payload
  obtain ⟨hsent, hcarried⟩ := carried_statusUpserts now app ready migrationState children
  show ConditionsCarried _ _ ((sentConditions _).getD _)
  rw [sentConditions_getD hsent]
  rw [← List.append_assoc] at hcarried
  exact hcarried

/-- `build_status_patch` carries the conditions. -/
theorem carried_build (b : BuildStatus) (type_ : ConditionType) (value : ConditionStatus)
    (reason message : String) :
    let payload := StatusPayload.build b type_ value reason message
    ConditionsCarried app.conditions (payload.written now app)
      (payload.conditionsAfter now app) := by
  intro payload
  have hcondition := carried_upsert (Carried.refl HonestTime.refl app.conditions)
    (honest_preserve (freshCondition now type_ value reason message app.generation))
  have hpreserved : ∀ c, (companionBuildCondition now app (freshCondition now type_ value reason
      message app.generation)).map (preserveTransitionTimeForUnchangedStatus app) = some c →
      HonestSince app.conditions c := by
    intro c hc
    obtain ⟨companion, -, rfl⟩ := Option.map_eq_some_iff.mp hc
    exact honest_preserve companion
  have hcompanion := carried_option hcondition hpreserved
  rw [Option.map_map, type_preserve_comp, type_preserve] at hcompanion
  exact hcompanion

/-- `clear_preview_build_status_patch` carries the conditions. -/
theorem carried_clearPreviewBuild (prNumber previewName : String) :
    let payload := StatusPayload.clearPreviewBuild prNumber previewName
    ConditionsCarried app.conditions (payload.written now app)
      (payload.conditionsAfter now app) := by
  intro payload
  simp only [payload, StatusPayload.conditionsAfter, StatusPayload.written, StatusPayload.patch,
    clearPreviewBuildStatusPatch]
  cases matchingPreviewBuildStatus app.toProject prNumber previewName with
  | none => exact Carried.refl HonestTime.refl app.conditions
  | some b =>
    have hprogressing := carried_upsert (Carried.refl HonestTime.refl app.conditions)
      (honest_preserve (freshCondition now .progressing .false "PreviewDeleted"
        s!"Preview build for {previewName} was cancelled because the preview was deleted"
        app.generation))
    have hdegraded := carried_upsert hprogressing
      (honest_preserve (freshCondition now .degraded .false "PreviewDeleted"
        s!"Preview build for {previewName} was cancelled because the preview was deleted"
        app.generation))
    rw [type_preserve, type_preserve] at hdegraded
    exact hdegraded

/-- `build_degraded_status_patch` carries the conditions exactly when there is nothing but
`Degraded` to carry, and that is not `True` already since another time. -/
theorem carried_degraded_iff (reason message : String) :
    let payload := StatusPayload.degraded reason message
    ConditionsCarried app.conditions (payload.written now app) (payload.conditionsAfter now app) ↔
      (∀ c ∈ app.conditions, c.type_ = .degraded) ∧
        ∀ c, app.conditions.head? = some c → c.status = .true →
          c.lastTransitionTime = some (now .degraded) := by
  intro payload
  have hfirst : (∀ c ∈ app.conditions, c.type_ = .degraded) →
      entryOf ProjectCondition.type_ .degraded app.conditions = app.conditions.head? := by
    intro hall
    cases hc : app.conditions with
    | nil => rfl
    | cons c rest =>
      exact List.find?_cons_of_pos (by simpa using hall c (by simp [hc]))
  constructor
  · rintro ⟨-, hkept, hrelated⟩
    have hall : ∀ c ∈ app.conditions, c.type_ = .degraded := by
      have hnil : app.conditions.filter (fun c ↦ c.type_ ∉ [ConditionType.degraded]) = [] :=
        hkept.symm
      intro c hc
      simpa using List.filter_eq_nil_iff.mp hnil c hc
    refine ⟨hall, ?_⟩
    intro c hc hstatus
    have hhonest := hrelated .degraded c _ ((hfirst hall).trans hc) rfl
    by_contra htime
    exact hhonest (fun h ↦ htime h.symm) hstatus.symm
  · rintro ⟨hall, htime⟩
    refine ⟨fun _ ↦ List.nodup_singleton _, ?_, ?_⟩
    · symm
      apply List.filter_eq_nil_iff.mpr
      intro c hc
      simp [payload, StatusPayload.written, hall c hc]
    · intro k o n ho hn
      have hk : k = .degraded := by
        have htype : o.type_ = k := by simpa using List.find?_some ho
        rw [← htype, hall o (List.mem_of_find?_eq_some ho)]
      subst hk
      obtain rfl := Option.some.inj hn
      intro hdiffers hsame
      exact hdiffers (htime o ((hfirst hall).symm.trans ho) hsame.symm).symm

end

/-- Every payload carries the conditions it was computed from, but for the degraded patch, which
does so exactly when there is nothing but `Degraded` to carry and that is not `True` already. -/
theorem conditions_carried_iff (now : Clock) (app : ConditionedProject) (payload : StatusPayload) :
    ConditionsCarried app.conditions (payload.written now app) (payload.conditionsAfter now app) ↔
      ∀ reason message, payload = .degraded reason message →
        (∀ c ∈ app.conditions, c.type_ = .degraded) ∧
          ∀ c, app.conditions.head? = some c → c.status = .true →
            c.lastTransitionTime = some (now .degraded) := by
  cases payload with
  | status ready readyReplicas migrationState children =>
    exact iff_of_true (carried_status ready readyReplicas migrationState children) (by simp)
  | build b type_ value reason message =>
    exact iff_of_true (carried_build b type_ value reason message) (by simp)
  | clearPreviewBuild prNumber previewName =>
    exact iff_of_true (carried_clearPreviewBuild prNumber previewName) (by simp)
  | degraded reason message =>
    refine (carried_degraded_iff reason message).trans ?_
    constructor
    · intro h _ _ _
      exact h
    · intro h
      exact h reason message rfl

/-- A ready Project whose tenant turns out to be invalid loses its `Ready` condition. -/
theorem conditions_lost :
    ¬ ∀ (now : Clock) (app : ConditionedProject) (payload : StatusPayload),
      ConditionsCarried app.conditions (payload.written now app)
        (payload.conditionsAfter now app) := by
  intro h
  have hkept := (h (fun _ ↦ "2026-01-02T00:00:00Z")
    { name := "shop"
      ns := some "default"
      uid := some 1
      resourceVersion := none
      annotations := ⟨none, none, none, none⟩
      spec := { image := "shop:1", tenant := some ⟨"acme", none⟩ }
      status := none
      generation := some 2
      conditions := [⟨.ready, .true, "ReconcileSuccess", "Application is ready",
        some "2026-01-01T00:00:00Z", some 1⟩] }
    (.degraded "TenantMismatch" "metadata.namespace does not match")).kept
  revert hkept
  decide

end ReinhardtCloud.Operator

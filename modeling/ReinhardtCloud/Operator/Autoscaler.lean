import ReinhardtCloud.Base.Run
import ReinhardtCloud.Base.ServerSideApply
import ReinhardtCloud.Operator.Ports

/-!
# The autoscaler and the operator

Library `Operator`. `resolve_scale` and `build_autoscaler`
(`crates/reinhardt-cloud-operator/src/resources/autoscaler.rs:35–94`), and the replica count of
the Deployment under its two writers: the HorizontalPodAutoscaler and the operator's forced apply
of `build_deployment`.
-/

namespace ReinhardtCloud.Operator

open ReinhardtCloud.Base

/-! ## `build_autoscaler` -/

/-- `ResolvedScale`. -/
structure ResolvedScale where
  minReplicas : Int
  maxReplicas : Int
  metric : ScaleMetric
  targetValue : Int
  deriving DecidableEq

/-- `resolve_scale`, `autoscaler.rs:35–50`. -/
def resolveScale (app : Project) (metric : Option ScaleMetric) : ResolvedScale :=
  let minReplicas := max ((app.spec.scaleMinReplicas.or app.spec.replicas).getD 1) 1
  let maxReplicas := max (app.spec.scaleMaxReplicas.getD (max 6 minReplicas)) minReplicas
  { minReplicas := minReplicas
    maxReplicas := maxReplicas
    metric := metric.getD .cpu
    targetValue := app.spec.scaleTargetValue.getD 70 }

/-- `MetricSpec`: the resource and its target. -/
inductive MetricSpec where
  | cpuUtilization (percent : Int)
  | memoryAverage (quantity : String)
  deriving DecidableEq

/-- A `HorizontalPodAutoscaler`: metadata, target Deployment, bounds and metric. -/
structure HorizontalPodAutoscaler where
  name : String
  ns : String
  owner : Uid
  scaleTarget : String
  minReplicas : Int
  maxReplicas : Int
  metric : MetricSpec
  deriving DecidableEq

/-- `AutoscalerPlan`. -/
inductive AutoscalerPlan where
  | apply (hpa : HorizontalPodAutoscaler)
  | unsupported (reason message : String)
  deriving DecidableEq

/-- `build_metric`, `autoscaler.rs:96–123`; it is not reached for `rps`. -/
def buildMetric (scale : ResolvedScale) : Option MetricSpec :=
  match scale.metric with
  | .cpu => some (.cpuUtilization scale.targetValue)
  | .memory => some (.memoryAverage s!"{scale.targetValue}Mi")
  | .rps => none

/-- `build_autoscaler`, `autoscaler.rs:52–94`. -/
def buildAutoscaler (app : Project) : Except Error (Option AutoscalerPlan) :=
  match app.spec.scale with
  | none => .ok none
  | some metric =>
    let resolved := resolveScale app metric
    match buildMetric resolved with
    | none => .ok (some (.unsupported "UnsupportedMetric"
        ("RPS autoscaling requires custom or external metrics and is not supported by the " ++
          "standard HPA implementation")))
    | some metric => do
      let ns ← requireNamespace app
      let owner ← ownerReference app
      return some (.apply
        { name := app.name
          ns := ns
          owner := owner
          scaleTarget := app.name
          minReplicas := resolved.minReplicas
          maxReplicas := resolved.maxReplicas
          metric := metric })

/-- The bounds of a planned autoscaler are the resolved ones. -/
theorem bounds_of_buildAutoscaler {app : Project} {hpa : HorizontalPodAutoscaler}
    (h : buildAutoscaler app = .ok (some (.apply hpa))) : ∃ metric,
      hpa.minReplicas = (resolveScale app metric).minReplicas ∧
        hpa.maxReplicas = (resolveScale app metric).maxReplicas := by
  unfold buildAutoscaler at h
  cases hscale : app.spec.scale with
  | none => simp [hscale] at h
  | some metric =>
    rw [hscale] at h
    simp only at h
    split at h
    · simp at h
    · simp only [bind_eq_ok] at h
      obtain ⟨ns, -, owner, -, hplan⟩ := h
      obtain rfl := AutoscalerPlan.apply.inj (Option.some.inj (Except.ok.inj hplan))
      exact ⟨metric, rfl, rfl⟩

/-! ## Two writers of one count -/

/-- The writers of `spec.replicas`. -/
inductive ReplicaWriter where
  | operator
  | autoscaler
  deriving DecidableEq

instance : Fintype ReplicaWriter :=
  ⟨{.operator, .autoscaler}, fun w ↦ by cases w <;> decide⟩

/-- The Deployment's `spec.replicas`, and whether the autoscaler has set it before. -/
structure ReplicaState where
  deployment : Managed Unit ReplicaWriter Int
  scaled : Bool

/-- The count, absent without a Deployment. -/
def ReplicaState.replicas (s : ReplicaState) : Option Int := s.deployment.value ()

/-- The autoscaler sets the count, or the operator reconciles. -/
inductive ReplicaEvent where
  | autoscale (replicas : Int)
  | reconcile
  deriving DecidableEq

/-- The autoscaler stays within its bounds; a reconcile applies `build_deployment` with `force`,
unless that fails. -/
def replicaStep (checks : PodChecks) (app : Project) (hpa : HorizontalPodAutoscaler)
    (s : ReplicaState) : ReplicaEvent → Option ReplicaState
  | .autoscale n =>
    if hpa.minReplicas ≤ n ∧ n ≤ hpa.maxReplicas ∧ s.replicas.isSome then
      some ⟨s.deployment.patch .autoscaler fun _ ↦ some (some n), true⟩
    else none
  | .reconcile =>
    match buildDeployment checks app (resolvePagesConfig app) with
    | .ok d => some ⟨s.deployment.apply .operator fun _ ↦ some d.replicas, s.scaled⟩
    | .error _ => some s

/-- The count lies within the autoscaler's bounds. -/
def InBounds (hpa : HorizontalPodAutoscaler) (s : ReplicaState) : Prop :=
  ∃ n, s.replicas = some n ∧ hpa.minReplicas ≤ n ∧ n ≤ hpa.maxReplicas

/-- After the autoscaler's first step the count stays within its bounds and no reconcile changes
it. -/
def LeftToAutoscaler (hpa : HorizontalPodAutoscaler)
    (tr : List (Transition ReplicaState ReplicaEvent)) : Prop :=
  ∀ x ∈ tr, x.before.scaled = true →
    InBounds hpa x.after ∧ (x.action = .reconcile → x.after.replicas = x.before.replicas)

/-! ## When the operator leaves the count alone -/

/-- `spec.replicas` and `spec.scale` leave the autoscaler one count, the operator's. -/
def ReplicasPinned (app : Project) : Prop :=
  1 ≤ app.spec.replicas.getD 1 ∧
    (∀ m, app.spec.scaleMinReplicas = some m → max m 1 = app.spec.replicas.getD 1) ∧
    match app.spec.scaleMaxReplicas with
    | some m => m ≤ app.spec.replicas.getD 1
    | none => 6 ≤ app.spec.replicas.getD 1

theorem replicasPinned_iff {app : Project} (metric : Option ScaleMetric) :
    ReplicasPinned app ↔
      (resolveScale app metric).minReplicas = app.spec.replicas.getD 1 ∧
        (resolveScale app metric).maxReplicas = app.spec.replicas.getD 1 := by
  unfold ReplicasPinned resolveScale
  cases app.spec.scaleMinReplicas <;> cases app.spec.scaleMaxReplicas <;>
    simp <;> omega

private theorem minReplicas_le_maxReplicas {app : Project} {metric : Option ScaleMetric} :
    (resolveScale app metric).minReplicas ≤ (resolveScale app metric).maxReplicas :=
  le_max_right _ _

section

variable {checks : PodChecks} {app : Project} {hpa : HorizontalPodAutoscaler}

/-- A reconcile applies the spec's own count. -/
theorem replicas_of_buildDeployment {pagesConfig : Option ResolvedPagesConfig} {d : Deployment}
    (h : buildDeployment checks app pagesConfig = .ok d) :
    d.replicas = app.spec.replicas.getD 1 := by
  simp only [buildDeployment, bind_eq_ok] at h
  obtain ⟨ns, -, port, -, owner, -, _, -, _, -, _, -, _, -, hd⟩ := h
  obtain rfl := Except.ok.inj hd
  rfl

/-- What a step does to the count. -/
private theorem replicas_of_step {s t : ReplicaState} {e : ReplicaEvent}
    (h : replicaStep checks app hpa s e = some t) :
    (∃ n, e = .autoscale n ∧ hpa.minReplicas ≤ n ∧ n ≤ hpa.maxReplicas ∧ t.replicas = some n ∧
        t.scaled = true) ∨
      e = .reconcile ∧ t.scaled = s.scaled ∧
        ((∃ d, buildDeployment checks app (resolvePagesConfig app) = .ok d) ∧
            t.replicas = some (app.spec.replicas.getD 1) ∨
          (∃ error, buildDeployment checks app (resolvePagesConfig app) = .error error) ∧
            t.replicas = s.replicas) := by
  cases e with
  | autoscale n =>
    left
    simp only [replicaStep] at h
    split at h
    · next hn =>
      obtain rfl := Option.some.inj h
      exact ⟨n, rfl, hn.1, hn.2.1, Managed.patch_value_of_named rfl, rfl⟩
    · cases h
  | reconcile =>
    right
    simp only [replicaStep] at h
    cases hd : buildDeployment checks app (resolvePagesConfig app) with
    | ok d =>
      rw [hd] at h
      obtain rfl := Option.some.inj h
      have hsent : (s.deployment.apply .operator fun _ ↦ some d.replicas).value () =
          some d.replicas := Managed.apply_value_of_sent rfl
      rw [← replicas_of_buildDeployment hd]
      exact ⟨rfl, rfl, .inl ⟨⟨d, rfl⟩, hsent⟩⟩
    | error error =>
      rw [hd] at h
      obtain rfl := Option.some.inj h
      exact ⟨rfl, rfl, .inr ⟨⟨error, rfl⟩, rfl⟩⟩

/-- Where the operator has nothing else to send, every step keeps the count within the bounds and
a reconcile keeps it as it is. -/
private theorem replicas_kept_of_step {s t : ReplicaState} {e : ReplicaEvent}
    (hcond : (∃ error, buildDeployment checks app (resolvePagesConfig app) = .error error) ∨
      hpa.minReplicas = app.spec.replicas.getD 1 ∧ hpa.maxReplicas = app.spec.replicas.getD 1)
    (hs : s.scaled = true → InBounds hpa s) (h : replicaStep checks app hpa s e = some t) :
    (t.scaled = true → InBounds hpa t) ∧ (s.scaled = true →
      InBounds hpa t ∧ (e = .reconcile → t.replicas = s.replicas)) := by
  rcases replicas_of_step h with ⟨n, rfl, hmin, hmax, ht, -⟩ | ⟨rfl, hscaled, hset⟩
  · have hbounds : InBounds hpa t := ⟨n, ht, hmin, hmax⟩
    exact ⟨fun _ ↦ hbounds, fun _ ↦ ⟨hbounds, fun he ↦ nomatch he⟩⟩
  · have hsame : s.scaled = true → t.replicas = s.replicas := by
      intro hbefore
      rcases hset with ⟨⟨d, hd⟩, hset⟩ | ⟨-, hkept⟩
      · rcases hcond with ⟨error, herror⟩ | ⟨hmin, hmax⟩
        · rw [herror] at hd
          cases hd
        · obtain ⟨n, hn, hlow, hhigh⟩ := hs hbefore
          have hcount : app.spec.replicas.getD 1 = n := by omega
          rw [hset, hn, hcount]
      · exact hkept
    have hbounds : s.scaled = true → InBounds hpa t := by
      intro hbefore
      obtain ⟨n, hn, hlow, hhigh⟩ := hs hbefore
      exact ⟨n, (hsame hbefore).trans hn, hlow, hhigh⟩
    rw [hscaled]
    exact ⟨hbounds, fun hbefore ↦ ⟨hbounds hbefore, fun _ ↦ hsame hbefore⟩⟩

/-- The Deployment as the operator first applied it. -/
private def deployed (n : Int) : ReplicaState :=
  ⟨⟨fun _ ↦ some n, fun w _ ↦ decide (w = .operator)⟩, false⟩

/-- A reconcile right after the autoscaler's step sets the operator's count. -/
private theorem reconcile_after_autoscale {d : Deployment} {n : Int}
    (hd : buildDeployment checks app (resolvePagesConfig app) = .ok d)
    (hmin : hpa.minReplicas ≤ n) (hmax : n ≤ hpa.maxReplicas) :
    ∃ tr s x, Run (replicaStep checks app hpa) (deployed (app.spec.replicas.getD 1)) tr s ∧
      x ∈ tr ∧ x.action = .reconcile ∧ x.before.scaled = true ∧ x.before.replicas = some n ∧
        x.after.replicas = some (app.spec.replicas.getD 1) := by
  obtain ⟨s, hs⟩ : ∃ s, replicaStep checks app hpa (deployed (app.spec.replicas.getD 1))
      (.autoscale n) = some s := by
    simp only [replicaStep, hmin, hmax, ReplicaState.replicas, deployed, Option.isSome_some,
      and_self, ↓reduceIte, Option.some.injEq, exists_eq']
  obtain ⟨t, ht⟩ : ∃ t, replicaStep checks app hpa s .reconcile = some t := by
    simp only [replicaStep, hd, Option.some.injEq, exists_eq']
  have hrun : Run (replicaStep checks app hpa) (deployed (app.spec.replicas.getD 1))
      ([] ++ [⟨_, .autoscale n, s⟩] ++ [⟨s, .reconcile, t⟩]) t := .snoc (.snoc .nil hs) ht
  refine ⟨_, t, ⟨s, .reconcile, t⟩, hrun, by simp, rfl, ?_⟩
  rcases replicas_of_step hs with ⟨m, hm, -, -, hcount, hscaled⟩ | ⟨he, -⟩
  · obtain rfl := ReplicaEvent.autoscale.inj hm
    refine ⟨hscaled, hcount, ?_⟩
    rcases replicas_of_step ht with ⟨m, hm, -⟩ | ⟨-, -, ⟨-, hset⟩ | ⟨⟨error, herror⟩, -⟩⟩
    · cases hm
    · exact hset
    · rw [hd] at herror
      cases herror
  · cases he

/-- In every run the operator leaves the count to the autoscaler exactly when it rejects the spec
or the spec leaves the autoscaler no choice. -/
theorem replicas_left_to_autoscaler_iff
    (hplan : buildAutoscaler app = .ok (some (.apply hpa))) :
    (∀ init tr s, init.scaled = false → Run (replicaStep checks app hpa) init tr s →
      LeftToAutoscaler hpa tr) ↔
    (∃ error, buildDeployment checks app (resolvePagesConfig app) = .error error) ∨
      ReplicasPinned app := by
  obtain ⟨metric, hmin, hmax⟩ := bounds_of_buildAutoscaler hplan
  rw [replicasPinned_iff metric, ← hmin, ← hmax]
  constructor
  · intro hleft
    cases hd : buildDeployment checks app (resolvePagesConfig app) with
    | error error => exact .inl ⟨error, rfl⟩
    | ok d =>
      right
      have hsame : ∀ n, hpa.minReplicas ≤ n → n ≤ hpa.maxReplicas →
          n = app.spec.replicas.getD 1 := by
        intro n hlow hhigh
        obtain ⟨tr, s, x, hrun, hx, hact, hbefore, hcount, hafter⟩ :=
          reconcile_after_autoscale hd hlow hhigh
        have hkept := (hleft _ tr s rfl hrun x hx hbefore).2 hact
        rw [hcount, hafter] at hkept
        exact (Option.some.inj hkept).symm
      have hle : hpa.minReplicas ≤ hpa.maxReplicas := by
        rw [hmin, hmax]
        exact minReplicas_le_maxReplicas
      exact ⟨hsame _ le_rfl hle, hsame _ hle le_rfl⟩
  · intro hcond init tr s hinit hrun x hx hbefore
    have hinv := Run.safe_of_condition (C := fun _ ↦ True)
      (P := fun x ↦ x.before.scaled = true →
        InBounds hpa x.after ∧ (x.action = .reconcile → x.after.replicas = x.before.replicas))
      (I := fun s ↦ s.scaled = true → InBounds hpa s)
      (fun hscaled ↦ by rw [hinit] at hscaled; cases hscaled)
      (fun s e t hs ht _ ↦ replicas_kept_of_step hcond hs ht) hrun fun _ _ ↦ trivial
    exact (hinv.2 x hx).2 hbefore

end

/-- A Project with an autoscaler and the given counts. -/
def scaledProject (replicas minReplicas maxReplicas : Option Int) : Project :=
  ⟨"shop", some "team", some 7, none, ⟨none, none, none, none⟩,
    { image := "registry.example/shop:1"
      scale := some none
      replicas := replicas
      scaleMinReplicas := minReplicas
      scaleMaxReplicas := maxReplicas }, none, none⟩

/-- The autoscaler of such a Project. -/
def scaledHpa (minReplicas maxReplicas : Int) : HorizontalPodAutoscaler :=
  ⟨"shop", "team", 7, "shop", minReplicas, maxReplicas, .cpuUtilization 70⟩

/-- With one count everywhere the autoscaler and the operator agree. -/
theorem replicas_left_to_autoscaler_iff_pinned :
    buildAutoscaler (scaledProject (some 3) none (some 3)) = .ok (some (.apply (scaledHpa 3 3))) ∧
      ∀ init tr s, init.scaled = false →
        Run (replicaStep passingChecks (scaledProject (some 3) none (some 3)) (scaledHpa 3 3))
          init tr s → LeftToAutoscaler (scaledHpa 3 3) tr :=
  ⟨by decide, (replicas_left_to_autoscaler_iff (by decide)).mpr
    (.inr ((replicasPinned_iff none).mpr (by decide)))⟩

/-- With the default counts a reconcile takes back what the autoscaler has set. -/
theorem replicas_taken_from_autoscaler :
    ¬ ∀ (checks : PodChecks) (app : Project) (hpa : HorizontalPodAutoscaler),
      buildAutoscaler app = .ok (some (.apply hpa)) →
      ∀ init tr s, init.scaled = false → Run (replicaStep checks app hpa) init tr s →
        LeftToAutoscaler hpa tr := by
  intro h
  obtain ⟨d, hd⟩ : ∃ d, buildDeployment passingChecks (scaledProject none none none)
      (resolvePagesConfig (scaledProject none none none)) = .ok d := ⟨_, rfl⟩
  have hmin : (scaledHpa 1 6).minReplicas ≤ 3 := by decide
  have hmax : 3 ≤ (scaledHpa 1 6).maxReplicas := by decide
  obtain ⟨tr, s, x, hrun, hx, hact, hbefore, hcount, hafter⟩ :=
    reconcile_after_autoscale hd hmin hmax
  have hkept := (h passingChecks (scaledProject none none none) (scaledHpa 1 6) (by decide) _ tr s
    rfl hrun x hx hbefore).2 hact
  rw [hcount, hafter] at hkept
  exact absurd hkept (by decide)

end ReinhardtCloud.Operator

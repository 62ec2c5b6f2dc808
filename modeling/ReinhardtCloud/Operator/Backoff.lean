import ReinhardtCloud.Base.Saturation
import ReinhardtCloud.Operator.Types

/-!
# Retry delays

Library `Operator`. The error classes of `error.rs:190–268`, `compute_backoff`, and how `reconcile`
and `error_policy` keep the failure counters of the objects
(`crates/reinhardt-cloud-operator/src/reconciler.rs:187–211,260–270,3763–3820`). Metrics are left
out.
-/

namespace ReinhardtCloud.Operator

open ReinhardtCloud.Base

/-! ## Error classes, `error.rs` -/

/-- `BackoffClass`. -/
inductive BackoffClass where
  | transient
  | dependencyNotReady
  | permanent
  | ownershipConflict
  deriving DecidableEq

/-- An `Error`, with what `backoff_class` reads of it: the response code of an API error, and of a
finalizer's error the first operator error among its sources. -/
inductive ReconcileError where
  | kube (code : Option Nat)
  | serialization
  | finalizer (source : ReconcileError)
  | finalizerItself
  | missingField
  | missingNamespace
  | ownerReference
  | resourceOwnershipConflict
  | invalidPort
  | invalidProbePeriod
  | invalidStaticRoot
  | conflictingPagesEnv
  | serviceAccountOwnership
  | invalidImagePullSecret
  | databaseProvisioning
  | platformControllerMissing
  | secretGeneration
  | credentialsMissing
  | invalidCredentialsSecret
  | buildFailed
  | pluginConfigRender
  | invalidPluginSpec
  | tenantMismatch
  | invalidTenant
  | invalidIngressHost
  | invalidBudget
  | previewProjectsTerminating
  | namespaceNotProvisioned
  deriving DecidableEq

/-- `kube_status_class`. -/
def kubeStatusClass (code : Option Nat) : BackoffClass :=
  if code = some 404 ∨ code = some 409 then .dependencyNotReady else .transient

/-- `backoff_class`, with `nested_backoff_class`. -/
def backoffClass : ReconcileError → BackoffClass
  | .missingField | .invalidPort | .invalidProbePeriod | .invalidStaticRoot
  | .conflictingPagesEnv | .invalidPluginSpec | .databaseProvisioning | .serviceAccountOwnership
  | .invalidImagePullSecret | .tenantMismatch | .invalidTenant | .invalidBudget
  | .invalidIngressHost | .invalidCredentialsSecret => .permanent
  | .resourceOwnershipConflict => .ownershipConflict
  | .kube code => kubeStatusClass code
  | .previewProjectsTerminating | .namespaceNotProvisioned => .dependencyNotReady
  | .finalizer source => backoffClass source
  | .serialization | .finalizerItself | .missingNamespace | .ownerReference
  | .platformControllerMissing | .secretGeneration | .credentialsMissing | .buildFailed
  | .pluginConfigRender => .transient

/-- The base of a retried class in seconds, `BACKOFF_BASE_TRANSIENT_SECS` and
`BACKOFF_BASE_DEPENDENCY_SECS`; the other classes are not retried with backoff. -/
def BackoffClass.base : BackoffClass → Option Nat
  | .transient => some 30
  | .dependencyNotReady => some 60
  | .permanent => none
  | .ownershipConflict => none

/-! ## Counters -/

/-- `compute_backoff`, in seconds. -/
def computeBackoff (baseSecs attempt : Nat) : Nat :=
  let factor := (checkedShl 64 1 (min attempt 20)).getD (2 ^ 64 - 1)
  min (saturatingMul 64 baseSecs factor) 600

/-- `backoff_key`. -/
def backoffKey (obj : Project) : String × String := (obj.ns.getD "", obj.name)

/-- `backoff_state`: the `u32` counters by key. -/
abbrev BackoffState := String × String → Option Nat

/-- What the controller does with the object next. -/
inductive Action where
  | awaitChange
  | requeue (secs : Nat)
  deriving DecidableEq

/-- `error_policy`, `reconciler.rs:3774–3820`. -/
def errorPolicy (obj : Project) (error : ReconcileError) (s : BackoffState) :
    Action × BackoffState :=
  match backoffClass error with
  | .permanent => (.awaitChange, Function.update s (backoffKey obj) none)
  | .ownershipConflict => (.requeue 300, Function.update s (backoffKey obj) none)
  | .transient | .dependencyNotReady =>
    let attempt := saturatingAdd 32 ((s (backoffKey obj)).getD 0) 1
    let base := if backoffClass error = .dependencyNotReady then 60 else 30
    (.requeue (computeBackoff base (attempt - 1)),
      Function.update s (backoffKey obj) (some attempt))

/-- How a reconciliation ends. -/
inductive Outcome where
  | success
  | failure (error : ReconcileError)
  deriving DecidableEq

/-- What a finished reconciliation does to the counters: `reconcile` resets the object's on success,
`reconciler.rs:262–264`, and the controller calls `error_policy` on a failure. -/
def settle (s : BackoffState) (ended : Project × Outcome) : BackoffState :=
  match ended.2 with
  | .success => Function.update s (backoffKey ended.1) none
  | .failure error => (errorPolicy ended.1 error s).2

/-- The counters after a history of reconciliations, oldest first; there are none at the start. -/
def afterOutcomes (history : List (Project × Outcome)) : BackoffState :=
  history.foldl settle fun _ ↦ none

/-! ## What one reconciliation does -/

/-- A failure that is retried with backoff. -/
def Outcome.isRetried : Outcome → Bool
  | .success => false
  | .failure error => (backoffClass error).base.isSome

/-- The product fits, since the shift is cut off. -/
private theorem product_lt {base : Nat} (hsmall : base < 2 ^ 44) (attempt : Nat) :
    base * 2 ^ min attempt 20 < 2 ^ 64 := by
  have hpow : 2 ^ min attempt 20 ≤ 2 ^ 20 := Nat.pow_le_pow_right (by decide) (by omega)
  calc base * 2 ^ min attempt 20 ≤ base * 2 ^ 20 := Nat.mul_le_mul_left base hpow
    _ < 2 ^ 64 := by omega

/-- The delay of a failure whose counter is read, in unbounded arithmetic. -/
theorem computeBackoff_eq {base : Nat} (hpos : 0 < base) (hsmall : base < 2 ^ 44) (attempt : Nat) :
    computeBackoff base attempt = min (base * 2 ^ attempt) 600 := by
  have hshift := checkedShl_one (show min attempt 20 < 64 by omega)
  simp only [computeBackoff, hshift, Option.getD_some]
  rw [saturatingMul_eq (product_lt hsmall attempt), min_mul_two_pow_min (by omega)]

private theorem base_bounds {c : BackoffClass} {base : Nat} (h : c.base = some base) :
    0 < base ∧ base < 2 ^ 44 := by
  cases c with
  | transient =>
    obtain rfl := Option.some.inj h
    decide
  | dependencyNotReady =>
    obtain rfl := Option.some.inj h
    decide
  | permanent => cases h
  | ownershipConflict => cases h

variable {obj : Project} {error : ReconcileError} {base : Nat} {s : BackoffState}

/-- A retried failure is counted, and delayed by what was counted before it. -/
theorem errorPolicy_of_retried (h : (backoffClass error).base = some base) :
    errorPolicy obj error s =
      (.requeue (computeBackoff base (saturatingAdd 32 ((s (backoffKey obj)).getD 0) 1 - 1)),
        Function.update s (backoffKey obj)
          (some (saturatingAdd 32 ((s (backoffKey obj)).getD 0) 1))) := by
  unfold errorPolicy
  cases hclass : backoffClass error with
  | transient =>
    rw [hclass] at h
    obtain rfl := Option.some.inj h
    rfl
  | dependencyNotReady =>
    rw [hclass] at h
    obtain rfl := Option.some.inj h
    rfl
  | permanent =>
    rw [hclass] at h
    cases h
  | ownershipConflict =>
    rw [hclass] at h
    cases h

/-- Every other end of a reconciliation resets the counter. -/
theorem settle_of_not_retried {outcome : Outcome} (h : outcome.isRetried = false) :
    settle s (obj, outcome) = Function.update s (backoffKey obj) none := by
  cases outcome with
  | success => rfl
  | failure error =>
    have hbase : (backoffClass error).base.isSome = false := h
    show (errorPolicy obj error s).2 = _
    unfold errorPolicy
    cases hclass : backoffClass error with
    | permanent => rfl
    | ownershipConflict => rfl
    | transient =>
      rw [hclass] at hbase
      cases hbase
    | dependencyNotReady =>
      rw [hclass] at hbase
      cases hbase

theorem settle_of_retried {outcome : Outcome} (h : outcome.isRetried = true) :
    settle s (obj, outcome) = Function.update s (backoffKey obj)
      (some (saturatingAdd 32 ((s (backoffKey obj)).getD 0) 1)) := by
  cases outcome with
  | success => cases h
  | failure error =>
    obtain ⟨base, hbase⟩ := Option.isSome_iff_exists.mp h
    show (errorPolicy obj error s).2 = _
    rw [errorPolicy_of_retried hbase]

/-- The counters of the other objects stay. -/
theorem settle_of_ne {ended : Project × Outcome} {key : String × String}
    (h : backoffKey ended.1 ≠ key) : settle s ended key = s key := by
  obtain ⟨obj, outcome⟩ := ended
  by_cases hretried : outcome.isRetried = true
  · rw [settle_of_retried hretried, Function.update_of_ne (Ne.symm h)]
  · rw [settle_of_not_retried (Bool.eq_false_iff.mpr hretried), Function.update_of_ne (Ne.symm h)]

/-! ## Histories -/

/-- How often the object's reconciliations have failed in a retried class since they last ended
otherwise. -/
def failuresSinceReset (key : String × String) (history : List (Project × Outcome)) : Nat :=
  marksAtEnd (fun ended ↦ ended.2.isRetried)
    (history.filter fun ended ↦ backoffKey ended.1 = key)

/-- The counter holds that number, as far as a `u32` can, and is absent at zero. -/
def counterOf (failures : Nat) : Option Nat :=
  if failures = 0 then none else some (min failures (2 ^ 32 - 1))

theorem getD_counterOf (failures : Nat) :
    (counterOf failures).getD 0 = min failures (2 ^ 32 - 1) := by
  unfold counterOf
  by_cases h : failures = 0
  · rw [if_pos h, h]
    rfl
  · rw [if_neg h, Option.getD_some]

theorem afterOutcomes_concat (history : List (Project × Outcome)) (ended : Project × Outcome) :
    afterOutcomes (history ++ [ended]) = settle (afterOutcomes history) ended := by
  rw [afterOutcomes, List.foldl_append]
  rfl

/-- What the counters are after any history. -/
theorem afterOutcomes_eq (history : List (Project × Outcome)) (key : String × String) :
    afterOutcomes history key = counterOf (failuresSinceReset key history) := by
  induction history using List.reverseRecOn with
  | nil => rfl
  | append_singleton history ended ih =>
    obtain ⟨obj, outcome⟩ := ended
    rw [afterOutcomes_concat]
    by_cases hkey : backoffKey obj = key
    · have hown : failuresSinceReset key (history ++ [(obj, outcome)]) =
          if outcome.isRetried = true then failuresSinceReset key history + 1 else 0 := by
        rw [failuresSinceReset, List.filter_append,
          List.filter_cons_of_pos (by simpa using hkey), List.filter_nil, marksAtEnd_concat]
        rfl
      by_cases hretried : outcome.isRetried = true
      · rw [hown, if_pos hretried, settle_of_retried hretried, hkey, Function.update_self, ih,
          getD_counterOf, saturatingAdd_min]
        rfl
      · rw [hown, if_neg hretried, settle_of_not_retried (Bool.eq_false_iff.mpr hretried), hkey,
          Function.update_self]
        rfl
    · rw [settle_of_ne hkey, ih]
      congr 1
      rw [failuresSinceReset, failuresSinceReset, List.filter_append,
        List.filter_cons_of_neg (by simpa using hkey), List.filter_nil, List.append_nil]

/-- The saturated counter gives the delay that the number of failures would. -/
theorem computeBackoff_saturated {base : Nat} (hpos : 0 < base) (hsmall : base < 2 ^ 44) (k : Nat) :
    computeBackoff base (min (k + 1) (2 ^ 32 - 1) - 1) = min (base * 2 ^ k) 600 := by
  have hattempt : min (k + 1) (2 ^ 32 - 1) - 1 = min k (2 ^ 32 - 2) := by omega
  have hcap : 600 ≤ base * 2 ^ (2 ^ 32 - 2) := by
    calc 600 ≤ 1 * 2 ^ 10 := by decide
      _ ≤ base * 2 ^ 10 := Nat.mul_le_mul_right _ hpos
      _ ≤ base * 2 ^ (2 ^ 32 - 2) :=
        Nat.mul_le_mul_left _ (Nat.pow_le_pow_right (by decide) (by omega))
  rw [computeBackoff_eq hpos hsmall, hattempt, min_mul_two_pow_min hcap]

/-- After any history the delay of a retried failure is `base * 2 ^ k` seconds, at most ten minutes,
where `k` failures went before it since the last reset; the counter holds their number in a `u32`,
the shift and the product fit a `u64`, and no other object's counter changes. -/
theorem errorPolicy_delay (history : List (Project × Outcome)) (obj : Project)
    {error : ReconcileError} {base : Nat} (h : (backoffClass error).base = some base) :
    let k := failuresSinceReset (backoffKey obj) history
    let result := errorPolicy obj error (afterOutcomes history)
    result.1 = .requeue (min (base * 2 ^ k) 600) ∧
      result.2 (backoffKey obj) = some (min (k + 1) (2 ^ 32 - 1)) ∧
      (∀ attempt, checkedShl 64 1 (min attempt 20) = some (2 ^ min attempt 20) ∧
        base * 2 ^ min attempt 20 < 2 ^ 64) ∧
      ∀ outcome key, key ≠ backoffKey obj →
        afterOutcomes (history ++ [(obj, outcome)]) key = afterOutcomes history key := by
  intro k result
  obtain ⟨hpos, hsmall⟩ := base_bounds h
  have hcounter : saturatingAdd 32 ((afterOutcomes history (backoffKey obj)).getD 0) 1 =
      min (k + 1) (2 ^ 32 - 1) := by
    rw [afterOutcomes_eq, getD_counterOf, saturatingAdd_min]
  have hresult : result = _ := errorPolicy_of_retried h
  rw [hcounter, computeBackoff_saturated hpos hsmall] at hresult
  refine ⟨?_, ?_, ?_, ?_⟩
  · rw [hresult]
  · rw [hresult]
    exact Function.update_self _ _ _
  · intro attempt
    exact ⟨checkedShl_one (by omega), product_lt hsmall attempt⟩
  · intro outcome key hkey
    rw [afterOutcomes_concat, settle_of_ne (Ne.symm hkey)]

/-- The third failure of an object that has never been reconciled, among failures of another. -/
theorem errorPolicy_delay_third :
    ∃ (shop blog : Project) (history : List (Project × Outcome)),
      failuresSinceReset (backoffKey shop) history = 2 ∧ (blog, .success) ∈ history ∧
        (errorPolicy shop (.kube (some 404)) (afterOutcomes history)).1 = .requeue 240 := by
  let shop : Project := ⟨"shop", some "team", none, none, ⟨none, none, none, none⟩,
    { image := "registry.example/shop:1" }, none, none⟩
  let blog : Project := { shop with name := "blog" }
  let history : List (Project × Outcome) :=
    [(shop, .success), (shop, .failure (.kube (some 503))), (blog, .success),
      (shop, .failure (.finalizer .namespaceNotProvisioned))]
  have h := errorPolicy_delay history shop (rfl : (backoffClass (.kube (some 404))).base = some 60)
  exact ⟨shop, blog, history, by decide, by simp [history], h.1⟩

end ReinhardtCloud.Operator

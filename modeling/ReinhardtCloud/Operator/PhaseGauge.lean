import Mathlib.Algebra.BigOperators.Ring.Finset
import ReinhardtCloud.Base.Keyed
import ReinhardtCloud.Operator.Backoff

/-!
# The gauge of managed apps

Library `Operator`. The phases that the reconciler has last observed, and the gauge that counts
them (`crates/reinhardt-cloud-operator/src/reconciler.rs:3681–3740`). A gauge is a float that moves
by one; here it is an integer. What the map and the gauge should say is read off the history of
calls alone: an object lives with the phase of its last update, unless it was dropped since.
-/

namespace ReinhardtCloud.Operator

open ReinhardtCloud.Base

/-- An object's key and its phase. -/
abbrev PhaseEntry := (String × String) × String

/-- `phase_state`, each key once. -/
structure PhaseState where
  entries : List PhaseEntry
  nodup : (entries.map Prod.fst).Nodup

namespace PhaseState

/-- `DashMap::new`. -/
def empty : PhaseState := ⟨[], .nil⟩

/-- The phase of a key. -/
def get (s : PhaseState) (key : String × String) : Option String :=
  (entryOf Prod.fst key s.entries).map Prod.snd

/-- `DashMap::insert`. -/
def insert (s : PhaseState) (key : String × String) (phase : String) : PhaseState :=
  ⟨upsert Prod.fst (key, phase) s.entries, nodup_map_upsert s.nodup⟩

/-- `DashMap::remove`. -/
def remove (s : PhaseState) (key : String × String) : PhaseState :=
  ⟨s.entries.filter fun entry ↦ entry.1 ≠ key, s.nodup.sublist (List.filter_sublist.map _)⟩

/-- How many keys have a phase. -/
def count (s : PhaseState) (phase : String) : Nat := s.entries.countP fun entry ↦ entry.2 = phase

end PhaseState

/-- `phase_state` and `managed_apps`. -/
structure ManagedApps where
  phaseState : PhaseState
  gauge : String → Int

/-- `with_label_values(&[phase]).inc()`. -/
def ManagedApps.inc (m : ManagedApps) (phase : String) : ManagedApps :=
  { m with gauge := Function.update m.gauge phase (m.gauge phase + 1) }

/-- `with_label_values(&[phase]).dec()`. -/
def ManagedApps.dec (m : ManagedApps) (phase : String) : ManagedApps :=
  { m with gauge := Function.update m.gauge phase (m.gauge phase - 1) }

/-- `update_managed_apps_gauge`. -/
def updateManagedAppsGauge (m : ManagedApps) (app : Project) (newPhase : String) : ManagedApps :=
  let previous := m.phaseState.get (backoffKey app)
  let m := { m with phaseState := m.phaseState.insert (backoffKey app) newPhase }
  let changed : Bool := previous ≠ some newPhase
  let m :=
    match previous with
    | some prev => if changed then m.dec prev else m
    | none => m
  if changed then m.inc newPhase else m

/-- `drop_managed_apps_gauge`. -/
def dropManagedAppsGauge (m : ManagedApps) (app : Project) : ManagedApps :=
  match m.phaseState.get (backoffKey app) with
  | some prev => { m with phaseState := m.phaseState.remove (backoffKey app) }.dec prev
  | none => m

/-- A call on the gauge. -/
inductive GaugeCall where
  | update (app : Project) (newPhase : String)
  | drop (app : Project)

/-- One call. -/
def ManagedApps.call (m : ManagedApps) : GaugeCall → ManagedApps
  | .update app newPhase => updateManagedAppsGauge m app newPhase
  | .drop app => dropManagedAppsGauge m app

/-- The calls of a history, from an empty map and a gauge at zero. -/
def ManagedApps.after (calls : List GaugeCall) : ManagedApps :=
  calls.foldl ManagedApps.call ⟨.empty, fun _ ↦ 0⟩

/-! ## What a history leaves -/

/-- The Project a call is about. -/
def GaugeCall.app : GaugeCall → Project
  | .update app _ => app
  | .drop app => app

/-- What a call leaves of its Project: a phase, or nothing. -/
def GaugeCall.phase : GaugeCall → Option String
  | .update _ newPhase => some newPhase
  | .drop _ => none

/-- The phase a key lives with after a history: what the last call on the key leaves. -/
def livePhase (calls : List GaugeCall) (key : String × String) : Option String :=
  (calls.reverse.find? fun call ↦ backoffKey call.app = key).bind GaugeCall.phase

/-- The keys that live with a phase. -/
def liveKeys (calls : List GaugeCall) (phase : String) : Finset (String × String) :=
  (calls.map fun call ↦ backoffKey call.app).toFinset.filter fun key ↦
    livePhase calls key = some phase

/-- A call decides its own key and leaves the others. -/
theorem livePhase_append_singleton (calls : List GaugeCall) (call : GaugeCall)
    (key : String × String) :
    livePhase (calls ++ [call]) key =
      if backoffKey call.app = key then call.phase else livePhase calls key := by
  rw [livePhase, List.reverse_append, List.reverse_singleton, List.singleton_append]
  by_cases h : backoffKey call.app = key
  · rw [List.find?_cons_of_pos (by simpa using h), if_pos h]
    rfl
  · rw [List.find?_cons_of_neg (by simpa using h), if_neg h]
    rfl

theorem mem_liveKeys {calls : List GaugeCall} {phase : String} {key : String × String} :
    key ∈ liveKeys calls phase ↔ livePhase calls key = some phase := by
  rw [liveKeys, Finset.mem_filter, List.mem_toFinset, and_iff_right_iff_imp]
  intro h
  obtain ⟨call, hcall, -⟩ := Option.bind_eq_some_iff.mp h
  exact List.mem_map.mpr ⟨call, List.mem_reverse.mp (List.mem_of_find?_eq_some hcall),
    by simpa using List.find?_some hcall⟩

/-! ## What a call does to the map -/

theorem get_insert (s : PhaseState) (key other : String × String) (phase : String) :
    (s.insert key phase).get other = if key = other then some phase else s.get other := by
  rw [PhaseState.get, PhaseState.insert]
  by_cases h : key = other
  · subst h
    rw [if_pos rfl]
    have hself : entryOf Prod.fst (key, phase).1 (upsert Prod.fst (key, phase) s.entries) =
        some (key, phase) := entryOf_upsert_self
    exact congrArg (Option.map Prod.snd) hself
  · rw [if_neg h, entryOf_upsert_of_ne h]
    rfl

theorem get_remove (s : PhaseState) (key other : String × String) :
    (s.remove key).get other = if key = other then none else s.get other := by
  rw [PhaseState.get, PhaseState.remove]
  by_cases h : key = other
  · subst h
    rw [if_pos rfl]
    exact congrArg (Option.map Prod.snd) entryOf_remove_self
  · rw [if_neg h, entryOf_remove_of_ne (Ne.symm h)]
    rfl

/-! ## What a call does to the counts -/

/-- The entry of a key counts for its phase. -/
theorem countP_entryOf (s : PhaseState) (key : String × String) (phase : String) :
    ((entryOf Prod.fst key s.entries).toList.countP fun entry ↦ entry.2 = phase) =
      if s.get key = some phase then 1 else 0 := by
  rw [PhaseState.get]
  cases entryOf Prod.fst key s.entries with
  | none => rfl
  | some entry =>
    rw [Option.toList_some, List.countP_singleton, Option.map_some]
    by_cases h : entry.2 = phase
    · rw [if_pos (decide_eq_true h), if_pos (congrArg some h)]
    · rw [if_neg (by simpa using h), if_neg (fun he ↦ h (Option.some.inj he))]

/-- An insertion takes the key out of its old bucket and into the new one. -/
theorem count_insert (s : PhaseState) (key : String × String) (newPhase phase : String) :
    ((s.insert key newPhase).count phase : Int) =
      s.count phase - (if s.get key = some phase then 1 else 0) +
        if newPhase = phase then 1 else 0 := by
  have hcount := @countP_upsert _ _ _ Prod.fst (key, newPhase) s.entries
    fun entry ↦ entry.2 = phase
  rw [countP_entryOf] at hcount
  simp only [decide_eq_true_eq] at hcount
  change (s.insert key newPhase).count phase + _ = s.count phase + _ at hcount
  have hcast := congrArg (Nat.cast : Nat → Int) hcount
  push_cast at hcast
  omega

/-- A removal takes the key out of its bucket. -/
theorem count_remove (s : PhaseState) (key : String × String) (phase : String) :
    ((s.remove key).count phase : Int) =
      s.count phase - if s.get key = some phase then 1 else 0 := by
  have hcount := countP_remove (k := key) (fun entry ↦ decide (entry.2 = phase)) s.nodup
  rw [countP_entryOf] at hcount
  change (s.remove key).count phase + _ = s.count phase at hcount
  have hcast := congrArg (Nat.cast : Nat → Int) hcount
  push_cast at hcast
  omega

/-- Every key has one phase. -/
theorem sum_count (s : PhaseState) {phases : Finset String}
    (hall : ∀ entry ∈ s.entries, entry.2 ∈ phases) :
    ∑ phase ∈ phases, s.count phase = s.entries.length := by
  have hmem : ∀ phase ∈ ((s.entries.map Prod.snd : List String) : Multiset String),
      phase ∈ phases := by
    intro phase hphase
    obtain ⟨entry, hentry, rfl⟩ := List.mem_map.mp (Multiset.mem_coe.mp hphase)
    exact hall entry hentry
  have hsum := Multiset.sum_count_eq_card hmem
  rw [Multiset.coe_card, List.length_map] at hsum
  rw [← hsum]
  apply Finset.sum_congr rfl
  intro phase _
  rw [Multiset.coe_count, List.count, List.countP_map, PhaseState.count]
  congr 1

/-! ## The gauge -/

/-- Each bucket is the number of keys with its phase. -/
def ManagedApps.Counts (m : ManagedApps) : Prop :=
  ∀ phase, m.gauge phase = m.phaseState.count phase

@[simp]
theorem inc_gauge (m : ManagedApps) (moved phase : String) :
    (m.inc moved).gauge phase = m.gauge phase + if moved = phase then 1 else 0 := by
  rw [ManagedApps.inc]
  dsimp only
  by_cases h : moved = phase
  · rw [if_pos h, h, Function.update_self]
  · rw [if_neg h, Function.update_of_ne (Ne.symm h), Int.add_zero]

@[simp]
theorem dec_gauge (m : ManagedApps) (moved phase : String) :
    (m.dec moved).gauge phase = m.gauge phase - if moved = phase then 1 else 0 := by
  rw [ManagedApps.dec]
  dsimp only
  by_cases h : moved = phase
  · rw [if_pos h, h, Function.update_self]
  · rw [if_neg h, Function.update_of_ne (Ne.symm h), Int.sub_zero]

@[simp]
theorem inc_phaseState (m : ManagedApps) (moved : String) :
    (m.inc moved).phaseState = m.phaseState := rfl

@[simp]
theorem dec_phaseState (m : ManagedApps) (moved : String) :
    (m.dec moved).phaseState = m.phaseState := rfl

theorem counts_update {m : ManagedApps} (h : m.Counts) (app : Project) (newPhase : String) :
    (updateManagedAppsGauge m app newPhase).Counts := by
  intro phase
  have hinsert := count_insert m.phaseState (backoffKey app) newPhase phase
  cases hprev : m.phaseState.get (backoffKey app) with
  | none =>
    have hrun : updateManagedAppsGauge m app newPhase =
        ManagedApps.inc { m with phaseState := m.phaseState.insert (backoffKey app) newPhase }
          newPhase := by
      rw [updateManagedAppsGauge, hprev]
      rfl
    rw [hprev, if_neg (Option.some_ne_none _).symm, Int.sub_zero] at hinsert
    rw [hrun, inc_gauge, inc_phaseState, hinsert, h phase]
  | some prev =>
    rw [hprev] at hinsert
    simp only [Option.some.injEq] at hinsert
    by_cases hsame : prev = newPhase
    · -- The phase is the one before: nothing is counted.
      have hrun : updateManagedAppsGauge m app newPhase =
          { m with phaseState := m.phaseState.insert (backoffKey app) newPhase } := by
        rw [updateManagedAppsGauge, hprev, hsame]
        simp
      rw [hsame, Int.sub_add_cancel] at hinsert
      rw [hrun, hinsert, h phase]
    · have hrun : updateManagedAppsGauge m app newPhase =
          (ManagedApps.dec
            { m with phaseState := m.phaseState.insert (backoffKey app) newPhase } prev).inc
              newPhase := by
        rw [updateManagedAppsGauge, hprev]
        simp [hsame]
      rw [hrun, inc_gauge, dec_gauge, inc_phaseState, dec_phaseState, hinsert, h phase]

theorem counts_drop {m : ManagedApps} (h : m.Counts) (app : Project) :
    (dropManagedAppsGauge m app).Counts := by
  intro phase
  have hremove := count_remove m.phaseState (backoffKey app) phase
  rw [dropManagedAppsGauge]
  cases hprev : m.phaseState.get (backoffKey app) with
  | none => exact h phase
  | some prev =>
    rw [hprev] at hremove
    simp only [Option.some.injEq] at hremove
    dsimp only
    rw [dec_gauge, dec_phaseState, hremove, h phase]

theorem counts_after (calls : List GaugeCall) : (ManagedApps.after calls).Counts := by
  rw [ManagedApps.after]
  induction calls using List.reverseRecOn with
  | nil => exact fun _ ↦ rfl
  | append_singleton calls call ih =>
    rw [List.foldl_append, List.foldl_cons, List.foldl_nil]
    cases call with
    | update app newPhase => exact counts_update ih app newPhase
    | drop app => exact counts_drop ih app

theorem phaseState_update (m : ManagedApps) (app : Project) (newPhase : String) :
    (updateManagedAppsGauge m app newPhase).phaseState =
      m.phaseState.insert (backoffKey app) newPhase := by
  rw [updateManagedAppsGauge]
  cases m.phaseState.get (backoffKey app) with
  | none => dsimp only; split <;> rfl
  | some prev => dsimp only; split <;> rfl

/-- A key without a phase stays without one. -/
theorem get_drop (m : ManagedApps) (app : Project) (key : String × String) :
    (dropManagedAppsGauge m app).phaseState.get key =
      if backoffKey app = key then none else m.phaseState.get key := by
  rw [dropManagedAppsGauge]
  cases hprev : m.phaseState.get (backoffKey app) with
  | none =>
    by_cases h : backoffKey app = key
    · rw [if_pos h, ← h]
      exact hprev
    · rw [if_neg h]
  | some prev => exact get_remove m.phaseState _ _

/-- The map holds the live phases. -/
theorem get_after (calls : List GaugeCall) (key : String × String) :
    (ManagedApps.after calls).phaseState.get key = livePhase calls key := by
  rw [ManagedApps.after]
  induction calls using List.reverseRecOn with
  | nil => rfl
  | append_singleton calls call ih =>
    rw [List.foldl_append, List.foldl_cons, List.foldl_nil, livePhase_append_singleton, ← ih]
    cases call with
    | update app newPhase => rw [ManagedApps.call, phaseState_update, get_insert]; rfl
    | drop app => rw [ManagedApps.call, get_drop]; rfl

/-- The entries of a phase are the keys that have it. -/
theorem count_eq_card (s : PhaseState) (phase : String) {keys : Finset (String × String)}
    (hkeys : ∀ key, key ∈ keys ↔ s.get key = some phase) : s.count phase = keys.card := by
  have hnodup : ((s.entries.filter fun entry ↦ entry.2 = phase).map Prod.fst).Nodup :=
    s.nodup.sublist (List.filter_sublist.map _)
  have hset : ((s.entries.filter fun entry ↦ entry.2 = phase).map Prod.fst).toFinset = keys := by
    ext key
    rw [List.mem_toFinset, List.mem_map, hkeys, PhaseState.get, Option.map_eq_some_iff]
    constructor
    · rintro ⟨entry, hentry, rfl⟩
      obtain ⟨hmem, hphase⟩ := List.mem_filter.mp hentry
      exact ⟨entry, (entryOf_eq_some_iff s.nodup).mpr ⟨hmem, rfl⟩, of_decide_eq_true hphase⟩
    · rintro ⟨entry, hentry, hphase⟩
      obtain ⟨hmem, hkey⟩ := (entryOf_eq_some_iff s.nodup).mp hentry
      exact ⟨entry, List.mem_filter.mpr ⟨hmem, decide_eq_true hphase⟩, hkey⟩
  rw [← hset, List.toFinset_card_of_nodup hnodup, List.length_map, ← List.countP_eq_length_filter,
    PhaseState.count]

/-- What the map and the gauge say of the Projects that live after a history. -/
structure ManagedApps.Exact (calls : List GaugeCall) (m : ManagedApps) : Prop where
  tracked : ∀ key, m.phaseState.get key = livePhase calls key
  counts : ∀ phase, m.gauge phase = m.phaseState.count phase
  live : ∀ phase, m.gauge phase = (liveKeys calls phase).card
  nonneg : ∀ phase, 0 ≤ m.gauge phase
  total : ∀ phases : Finset String, (∀ entry ∈ m.phaseState.entries, entry.2 ∈ phases) →
    ∑ phase ∈ phases, m.gauge phase = m.phaseState.entries.length

/-- After every history the map holds the live Projects with their phases, and the gauge counts
them. -/
theorem managedApps_exact (calls : List GaugeCall) :
    (ManagedApps.after calls).Exact calls := by
  have hcounts := counts_after calls
  have hget := get_after calls
  refine ⟨hget, hcounts, fun phase ↦ ?_, fun phase ↦ ?_, fun phases hall ↦ ?_⟩
  · rw [hcounts phase, count_eq_card _ phase fun key ↦ by rw [mem_liveKeys, hget]]
  · rw [hcounts phase]
    exact Int.natCast_nonneg _
  · rw [← sum_count _ hall, Nat.cast_sum]
    exact Finset.sum_congr rfl fun phase _ ↦ hcounts phase

/-- A Project of the namespace `team`. -/
def gaugedProject (name : String) : Project :=
  { name := name, ns := some "team", uid := none, resourceVersion := none,
    annotations := ⟨none, none, none, none⟩, spec := { image := "" }, status := none }

/-- `shop` starts, runs, is seen running again, is dropped and comes back; `blog` runs beside it. -/
def gaugeHistory : List GaugeCall :=
  [.update (gaugedProject "shop") "Pending", .update (gaugedProject "blog") "Running",
    .update (gaugedProject "shop") "Running", .update (gaugedProject "shop") "Running",
    .drop (gaugedProject "shop"), .drop (gaugedProject "shop"),
    .update (gaugedProject "shop") "Pending"]

/-- In the end one Project is pending and one runs. -/
theorem managedApps_exact_recreated :
    (ManagedApps.after gaugeHistory).Exact gaugeHistory ∧
      (ManagedApps.after gaugeHistory).phaseState.get ("team", "shop") = some "Pending" ∧
      (ManagedApps.after gaugeHistory).gauge "Pending" = 1 ∧
      (ManagedApps.after gaugeHistory).gauge "Running" = 1 := by
  have hexact := managedApps_exact gaugeHistory
  refine ⟨hexact, ?_, ?_, ?_⟩
  · rw [hexact.tracked]
    rfl
  · rw [hexact.live]
    rfl
  · rw [hexact.live]
    rfl

end ReinhardtCloud.Operator

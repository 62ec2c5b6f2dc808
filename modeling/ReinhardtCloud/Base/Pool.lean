import Mathlib.Data.List.Perm.Basic
import ReinhardtCloud.Base.Run

/-!
# Concurrent processes over one store

Library `Base`. Any number of processes share a store; each step lets one of them go on by one
atomic action, starts or cancels a process, or changes the store from outside. An invariant
has three parts: one about the store, one about each process beside the store, and one about
every two processes; a rule derives it for all runs from single actions. A second rule is about
what the processes have done: it relates the store and each process to the transitions of the run so
far. Nothing here names a component.
-/

namespace ReinhardtCloud.Base

/-- A store and the processes at work on it. -/
structure Pool (σ π : Type) where
  store : σ
  procs : List π

/-- What happens next in a pool. -/
inductive PoolAction (ρ ω ε : Type) where
  | start (request : ρ)
  | advance (i : Nat) (outcome : ω)
  | cancel (i : Nat)
  | environment (event : ε)

/-- The place that a process had before an action: a cancellation moves the later ones up. -/
def PoolAction.placeBefore {ρ ω ε : Type} : PoolAction ρ ω ε → Nat → Nat
  | .cancel j, i => if i < j then i else i + 1
  | _, i => i

namespace Pool

variable {σ π ρ ω ε : Type} (start : ρ → π) (advance : σ → π → ω → Option (σ × π))
  (environment : σ → ε → Option σ)

/-- One step. A cancelled process is gone. -/
def step (s : Pool σ π) : PoolAction ρ ω ε → Option (Pool σ π)
  | .start r => some ⟨s.store, s.procs ++ [start r]⟩
  | .advance i o =>
    match s.procs[i]? with
    | some p => (advance s.store p o).map fun r ↦ ⟨r.1, s.procs.set i r.2⟩
    | none => none
  | .cancel i => if i < s.procs.length then some ⟨s.store, s.procs.eraseIdx i⟩ else none
  | .environment e => (environment s.store e).map fun t ↦ ⟨t, s.procs⟩

/-- The store is as it should be, each process beside it, and every two processes. -/
structure Inv (I : σ → Prop) (J : σ → π → Prop) (K : π → π → Prop) (s : Pool σ π) : Prop where
  store : I s.store
  procs : ∀ p ∈ s.procs, J s.store p
  pairs : ∀ (i j : Nat) p q, i ≠ j → s.procs[i]? = some p → s.procs[j]? = some q → K p q

/-- Single actions that meet the condition keep the invariant. -/
structure Keeps (I : σ → Prop) (J : σ → π → Prop) (K : π → π → Prop)
    (C : Pool σ π → PoolAction ρ ω ε → Prop) : Prop where
  symm : ∀ p q, K p q → K q p
  start : ∀ s r, Inv I J K s → C s (.start r) →
    J s.store (start r) ∧ ∀ q ∈ s.procs, K q (start r)
  advance : ∀ s (i : Nat) p o t p', Inv I J K s → s.procs[i]? = some p → C s (.advance i o) →
    advance s.store p o = some (t, p') →
    I t ∧ J t p' ∧ ∀ (j : Nat) q, j ≠ i → s.procs[j]? = some q → J t q ∧ K q p'
  environment : ∀ s e t, Inv I J K s → C s (.environment e) → environment s.store e = some t →
    I t ∧ ∀ q ∈ s.procs, J t q

variable {start advance environment} {I : σ → Prop} {J : σ → π → Prop} {K : π → π → Prop}
  {C : Pool σ π → PoolAction ρ ω ε → Prop}

/-- What it takes for a process to go on. -/
theorem step_advance {s t : Pool σ π} {i : Nat} {o : ω}
    (h : step start advance environment s (.advance i o) = some t) :
    ∃ p u p', s.procs[i]? = some p ∧ advance s.store p o = some (u, p') ∧
      t = ⟨u, s.procs.set i p'⟩ := by
  simp only [step] at h
  split at h
  · next p hp =>
    obtain ⟨⟨u, p'⟩, hu, rfl⟩ := Option.map_eq_some_iff.mp h
    exact ⟨p, u, p', hp, hu, rfl⟩
  · cases h

private theorem getElem?_append_singleton {l : List π} {p q : π} {i : Nat}
    (h : (l ++ [p])[i]? = some q) : l[i]? = some q ∨ i = l.length ∧ q = p := by
  rcases Nat.lt_trichotomy i l.length with hi | hi | hi
  · left
    rwa [List.getElem?_append_left hi] at h
  · subst hi
    simp at h
    exact .inr ⟨rfl, h.symm⟩
  · rw [List.getElem?_eq_none (by simp; omega)] at h
    cases h

private theorem getElem?_set_cases {l : List π} {p q : π} {i j : Nat}
    (h : (l.set i p)[j]? = some q) : j = i ∧ q = p ∨ j ≠ i ∧ l[j]? = some q := by
  by_cases hj : j = i
  · subst hj
    rw [List.getElem?_set_self'] at h
    cases hl : l[j]? with
    | none => simp [hl] at h
    | some r =>
      simp [hl] at h
      exact .inl ⟨rfl, h.symm⟩
  · rw [List.getElem?_set_ne (by omega)] at h
    exact .inr ⟨hj, h⟩

/-- One step keeps the invariant. -/
theorem Keeps.step (hk : Keeps start advance environment I J K C) {s t : Pool σ π}
    {a : PoolAction ρ ω ε} (hs : Inv I J K s) (hc : C s a)
    (ht : Pool.step start advance environment s a = some t) : Inv I J K t := by
  cases a with
  | start r =>
    obtain rfl := Option.some.inj ht
    obtain ⟨hj, hpair⟩ := hk.start s r hs hc
    refine ⟨hs.store, ?_, ?_⟩
    · intro p hp
      rcases List.mem_append.mp hp with hp | hp
      · exact hs.procs p hp
      · rwa [List.mem_singleton.mp hp]
    · intro i j p q hij hp hq
      rcases getElem?_append_singleton hp with hp | ⟨hi, rfl⟩
      · rcases getElem?_append_singleton hq with hq | ⟨-, rfl⟩
        · exact hs.pairs i j p q hij hp hq
        · exact hpair p (List.mem_of_getElem? hp)
      · rcases getElem?_append_singleton hq with hq | ⟨hj, -⟩
        · exact hk.symm _ _ (hpair q (List.mem_of_getElem? hq))
        · omega
  | advance i o =>
    obtain ⟨p, u, p', hp, hu, rfl⟩ := step_advance ht
    obtain ⟨hi, hj, hothers⟩ := hk.advance s i p o u p' hs hp hc hu
    refine ⟨hi, ?_, ?_⟩
    · intro q hq
      obtain ⟨j, hq⟩ := List.mem_iff_getElem?.mp hq
      rcases getElem?_set_cases hq with ⟨-, rfl⟩ | ⟨hne, hq⟩
      · exact hj
      · exact (hothers j q hne hq).1
    · intro j k q r hjk hq hr
      rcases getElem?_set_cases hq with ⟨hji, rfl⟩ | ⟨hjne, hq'⟩
      · rcases getElem?_set_cases hr with ⟨hki, -⟩ | ⟨hkne, hr'⟩
        · omega
        · exact hk.symm _ _ (hothers k r hkne hr').2
      · rcases getElem?_set_cases hr with ⟨-, rfl⟩ | ⟨hkne, hr'⟩
        · exact (hothers j q hjne hq').2
        · exact hs.pairs j k q r hjk hq' hr'
  | cancel i =>
    simp only [Pool.step] at ht
    split at ht
    · obtain rfl := Option.some.inj ht
      refine ⟨hs.store, fun p hp ↦ hs.procs p (List.mem_of_mem_eraseIdx hp), ?_⟩
      intro j k p q hjk hp hq
      rw [List.getElem?_eraseIdx, ← apply_ite (fun n ↦ s.procs[n]?)] at hp hq
      refine hs.pairs _ _ p q ?_ hp hq
      split <;> split <;> omega
    · cases ht
  | environment e =>
    obtain ⟨u, hu, rfl⟩ := Option.map_eq_some_iff.mp ht
    obtain ⟨hi, hj⟩ := hk.environment s e u hs hc hu
    exact ⟨hi, hj, hs.pairs⟩

/-- In every run whose steps meet the condition the invariant holds, at the end and around each
step. -/
theorem Keeps.run (hk : Keeps start advance environment I J K C) {init : σ} (hinit : I init)
    {tr : List (Transition (Pool σ π) (PoolAction ρ ω ε))} {s : Pool σ π}
    (h : Run (Pool.step start advance environment) ⟨init, []⟩ tr s)
    (hc : ∀ x ∈ tr, C x.before x.action) :
    Inv I J K s ∧ ∀ x ∈ tr, Inv I J K x.before ∧
      Pool.step start advance environment x.before x.action = some x.after ∧
      Inv I J K x.after := by
  have hbase : Inv I J K (⟨init, []⟩ : Pool σ π) :=
    ⟨hinit, by simp, fun i j p q _ hp _ ↦ by simp at hp⟩
  have hrun := h.safe_of_condition (C := fun x ↦ C x.before x.action)
    (P := fun x ↦ Pool.step start advance environment x.before x.action = some x.after ∧
      Inv I J K x.after) hbase
    (fun s a t hs ht hx ↦ ⟨hk.step hs hx ht, ht, hk.step hs hx ht⟩) hc
  exact hrun

/-! ## What a process has done -/

section Histories

variable (start advance environment)

/-- The process at a place has taken a step that was like this at its start. -/
inductive Took (P : σ → π → Prop) :
    List (Transition (Pool σ π) (PoolAction ρ ω ε)) → Nat → Prop
  | last {tr : List (Transition (Pool σ π) (PoolAction ρ ω ε))}
      {x : Transition (Pool σ π) (PoolAction ρ ω ε)} {i : Nat} {o : ω} {p : π} :
      x.action = .advance i o → x.before.procs[i]? = some p → P x.before.store p →
      Took P (tr ++ [x]) i
  | earlier {tr : List (Transition (Pool σ π) (PoolAction ρ ω ε))}
      {x : Transition (Pool σ π) (PoolAction ρ ω ε)} {i : Nat} :
      Took P tr (x.action.placeBefore i) → Took P (tr ++ [x]) i

/-- Single actions keep what is known of the store and of each process from the transitions so
far. -/
structure Recalls (I : List (Transition (Pool σ π) (PoolAction ρ ω ε)) → σ → Prop)
    (J : List (Transition (Pool σ π) (PoolAction ρ ω ε)) → Nat → π → Prop) : Prop where
  store : ∀ tr x s, I tr s → I (tr ++ [x]) s
  procs : ∀ tr x i p, J tr (x.action.placeBefore i) p → J (tr ++ [x]) i p
  start : ∀ tr i r, J tr i (start r)
  advance : ∀ tr s i o p t p' (s' : Pool σ π), I tr s.store → J tr i p → s.procs[i]? = some p →
    advance s.store p o = some (t, p') → s'.store = t →
    I (tr ++ [⟨s, .advance i o, s'⟩]) t ∧ J (tr ++ [⟨s, .advance i o, s'⟩]) i p'
  environment : ∀ tr x s e t, I tr s → environment s e = some t → I (tr ++ [x]) t

end Histories

variable {I' : List (Transition (Pool σ π) (PoolAction ρ ω ε)) → σ → Prop}
  {J' : List (Transition (Pool σ π) (PoolAction ρ ω ε)) → Nat → π → Prop}

/-- It is known after every run. -/
theorem Recalls.run (hk : Recalls start advance environment I' J') {init : σ}
    (hinit : I' [] init) {tr : List (Transition (Pool σ π) (PoolAction ρ ω ε))} {s : Pool σ π}
    (h : Run (Pool.step start advance environment) ⟨init, []⟩ tr s) :
    I' tr s.store ∧ ∀ i p, s.procs[i]? = some p → J' tr i p := by
  induction h with
  | nil => exact ⟨hinit, fun i p hp ↦ by simp at hp⟩
  | @snoc tr s t a _ ht ih =>
    obtain ⟨hstore, hprocs⟩ := ih
    have hstays {i : Nat} {p : π} (hp : s.procs[a.placeBefore i]? = some p) :
        J' (tr ++ [⟨s, a, t⟩]) i p := hk.procs tr _ i p (hprocs _ p hp)
    cases a with
    | start r =>
      obtain rfl := Option.some.inj ht
      refine ⟨hk.store tr _ _ hstore, fun i p hp ↦ ?_⟩
      rcases getElem?_append_singleton hp with hp | ⟨-, rfl⟩
      · exact hstays hp
      · exact hk.start _ i r
    | advance i o =>
      obtain ⟨p, u, p', hp, hu, rfl⟩ := step_advance ht
      obtain ⟨hi, hj⟩ := hk.advance tr s i o p u p' ⟨u, s.procs.set i p'⟩ hstore (hprocs i p hp) hp
        hu rfl
      refine ⟨hi, fun j q hq ↦ ?_⟩
      rcases getElem?_set_cases hq with ⟨rfl, rfl⟩ | ⟨-, hq⟩
      · exact hj
      · exact hstays hq
    | cancel i =>
      simp only [Pool.step] at ht
      split at ht
      · obtain rfl := Option.some.inj ht
        refine ⟨hk.store tr _ _ hstore, fun j q hq ↦ ?_⟩
        rw [List.getElem?_eraseIdx, ← apply_ite (fun n ↦ s.procs[n]?)] at hq
        exact hstays hq
      · cases ht
    | environment e =>
      obtain ⟨u, hu, rfl⟩ := Option.map_eq_some_iff.mp ht
      exact ⟨hk.environment tr _ _ e u hstore hu, fun i p hp ↦ hstays hp⟩

/-! ## What the processes have contributed -/

section Contributions

variable {α : Type} {f : π → Option α} {l : List π} {i : Nat} {p p' : π}

private theorem set_split (hp : l[i]? = some p) (p' : π) :
    l = l.take i ++ p :: l.drop (i + 1) ∧ l.set i p' = l.take i ++ p' :: l.drop (i + 1) := by
  obtain ⟨hi, hget⟩ := List.getElem?_eq_some_iff.mp hp
  constructor
  · rw [← hget, List.getElem_cons_drop, List.take_append_drop]
  · rw [List.set_eq_take_append_cons_drop, if_pos hi]

/-- A process that takes on a contribution adds it to those of all processes. -/
theorem perm_filterMap_set {a : α} (hp : l[i]? = some p) (hnone : f p = none)
    (hsome : f p' = some a) : (l.filterMap f ++ [a]).Perm ((l.set i p').filterMap f) := by
  obtain ⟨hl, hset⟩ := set_split hp p'
  rw [hset]
  conv_lhs => rw [hl]
  rw [List.filterMap_append, List.filterMap_append, List.filterMap_cons_none hnone,
    List.filterMap_cons_some hsome, List.append_assoc]
  exact List.Perm.append_left _ List.perm_append_comm

/-- A process that keeps its contribution leaves those of all processes. -/
theorem filterMap_set_same (hp : l[i]? = some p) (hsame : f p' = f p) :
    (l.set i p').filterMap f = l.filterMap f := by
  obtain ⟨hl, hset⟩ := set_split hp p'
  rw [hset]
  conv_rhs => rw [hl]
  rw [List.filterMap_append, List.filterMap_append, List.filterMap_cons, List.filterMap_cons,
    hsame]

end Contributions

end Pool

end ReinhardtCloud.Base

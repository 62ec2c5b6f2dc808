import Mathlib.Data.List.Induction

/-!
# Runs of labelled machines

Library `Base`. A machine is a partial step function on states and actions; a run
records every transition it takes, oldest first. Invariants and per-transition
properties are derived from one step lemma, either for every run or for the runs
whose transitions all meet a condition. Nothing here names a component.
-/

namespace ReinhardtCloud.Base

universe u v

variable {σ : Type u} {α : Type v}

/-- One taken step: the state before it, its action and the state after it. -/
structure Transition (σ : Type u) (α : Type v) where
  before : σ
  action : α
  after : σ

/-- `Run step init tr s`: the machine takes the transitions `tr` from `init` and stops in `s`. -/
inductive Run (step : σ → α → Option σ) (init : σ) : List (Transition σ α) → σ → Prop
  | nil : Run step init [] init
  | snoc {tr : List (Transition σ α)} {s t : σ} {a : α} :
      Run step init tr s → step s a = some t → Run step init (tr ++ [⟨s, a, t⟩]) t

/-- Take the listed actions in order; absent when one of them is not enabled. -/
def execute (step : σ → α → Option σ) : σ → List α → Option σ
  | s, [] => some s
  | s, a :: rest => (step s a).bind fun t ↦ execute step t rest

/-- The transitions taken while executing the listed actions. -/
def transitions (step : σ → α → Option σ) : σ → List α → List (Transition σ α)
  | _, [] => []
  | s, a :: rest =>
    match step s a with
    | none => []
    | some t => ⟨s, a, t⟩ :: transitions step t rest

/-- Every transition of an execution takes one of its actions. -/
theorem action_mem_of_mem_transitions {step : σ → α → Option σ} {s : σ} {actions : List α}
    {x : Transition σ α} (h : x ∈ transitions step s actions) : x.action ∈ actions := by
  induction actions generalizing s with
  | nil => cases h
  | cons a rest ih =>
    rw [transitions] at h
    split at h
    · cases h
    · rcases List.mem_cons.mp h with rfl | h
      · exact List.mem_cons_self
      · exact List.mem_cons_of_mem a (ih h)

/-- A property of all transitions of an execution, action by action. -/
theorem forall_mem_transitions_cons {step : σ → α → Option σ} {s t : σ} {a : α} {rest : List α}
    {P : Transition σ α → Prop} (ht : step s a = some t) (hhead : P ⟨s, a, t⟩)
    (htail : ∀ x ∈ transitions step t rest, P x) : ∀ x ∈ transitions step s (a :: rest), P x := by
  intro x hx
  rw [transitions, ht] at hx
  rcases List.mem_cons.mp hx with rfl | hx
  · exact hhead
  · exact htail x hx

namespace Run

variable {step : σ → α → Option σ} {init : σ} {tr : List (Transition σ α)} {s : σ}

/-- Executing further actions extends a run by exactly their transitions. -/
theorem append_execute (h : Run step init tr s) (actions : List α) (t : σ)
    (he : execute step s actions = some t) :
    Run step init (tr ++ transitions step s actions) t := by
  induction actions generalizing tr s with
  | nil =>
    have hs : s = t := by simpa [execute] using he
    subst hs
    simpa [transitions] using h
  | cons a rest ih =>
    cases ha : step s a with
    | none => simp [execute, ha] at he
    | some u =>
      have hr : execute step u rest = some t := by simpa [execute, ha] using he
      have hu := ih (h.snoc ha) hr
      simpa [transitions, ha] using hu

/-- An execution from the initial state is a run. -/
theorem of_execute (actions : List α) (he : execute step init actions = some s) :
    Run step init (transitions step init actions) s := by
  simpa using Run.nil.append_execute actions s he

/-- A condition kept by every transition that meets `C` holds after, and a property every such
transition has holds along, each run whose transitions all meet `C`. -/
theorem safe_of_condition {C P : Transition σ α → Prop} {I : σ → Prop} (hinit : I init)
    (hstep : ∀ s a t, I s → step s a = some t → C ⟨s, a, t⟩ → I t ∧ P ⟨s, a, t⟩)
    (h : Run step init tr s) (hc : ∀ x ∈ tr, C x) : I s ∧ ∀ x ∈ tr, I x.before ∧ P x := by
  induction h with
  | nil => exact ⟨hinit, by simp⟩
  | @snoc tr s t a _ ht ih =>
    have hprev := ih fun x hx ↦ hc x (List.mem_append_left _ hx)
    have hlast := hstep s a t hprev.1 ht (hc _ (by simp))
    refine ⟨hlast.1, ?_⟩
    intro x hx
    rcases List.mem_append.mp hx with hx | hx
    · exact hprev.2 x hx
    · have he : x = ⟨s, a, t⟩ := by simpa using hx
      subst he
      exact ⟨hprev.1, hlast.2⟩

/-- A condition that holds initially and is kept by every step holds after every run. -/
theorem invariant {I : σ → Prop} (hinit : I init)
    (hstep : ∀ s a t, I s → step s a = some t → I t) (h : Run step init tr s) : I s :=
  (safe_of_condition (C := fun _ ↦ True) (P := fun _ ↦ True) hinit
    (fun s a t hs ht _ ↦ ⟨hstep s a t hs ht, trivial⟩) h (fun _ _ ↦ trivial)).1

/-- Along every run, each transition starts in a state that satisfies a step invariant. -/
theorem forall_before {I : σ → Prop} (hinit : I init)
    (hstep : ∀ s a t, I s → step s a = some t → I t) (h : Run step init tr s) :
    ∀ x ∈ tr, I x.before ∧ step x.before x.action = some x.after :=
  (safe_of_condition (C := fun _ ↦ True) (P := fun x ↦ step x.before x.action = some x.after)
    hinit (fun s a t hs ht _ ↦ ⟨hstep s a t hs ht, ht⟩) h (fun _ _ ↦ trivial)).2

/-- The last transition of a run ends in its final state and extends the run before it. -/
theorem of_snoc {x : Transition σ α} (h : Run step init (tr ++ [x]) s) :
    Run step init tr x.before ∧ x.after = s := by
  generalize htr : tr ++ [x] = l at h
  cases h with
  | nil => simp at htr
  | snoc hr _ =>
    obtain ⟨rfl, hx⟩ := List.append_inj' htr rfl
    obtain rfl := List.singleton_inj.mp hx
    exact ⟨hr, rfl⟩

/-- Up to each of its transitions a run is a run, and the transition is a step. -/
theorem split {tr₁ tr₂ : List (Transition σ α)} {x : Transition σ α}
    (h : Run step init (tr₁ ++ x :: tr₂) s) :
    Run step init tr₁ x.before ∧ step x.before x.action = some x.after := by
  refine ⟨?_, (h.forall_before (I := fun _ ↦ True) trivial (fun _ _ _ _ _ ↦ trivial) x
    (List.mem_append_right _ List.mem_cons_self)).2⟩
  induction tr₂ using List.reverseRecOn generalizing s with
  | nil => exact (of_snoc h).1
  | append_singleton l y ih =>
    have hl : Run step init ((tr₁ ++ x :: l) ++ [y]) s := by simpa using h
    exact ih (of_snoc hl).1

/-- What holds after a transition and not at the end was lost at some transition in between. -/
theorem lost {Q : σ → Prop} {tr₁ tr₂ : List (Transition σ α)} {x : Transition σ α}
    (h : Run step init (tr₁ ++ x :: tr₂) s) (hx : Q x.after) :
    Q s ∨ ∃ y ∈ tr₂, Q y.before ∧ ¬ Q y.after := by
  induction tr₂ using List.reverseRecOn generalizing s with
  | nil =>
    obtain ⟨-, rfl⟩ := of_snoc h
    exact .inl hx
  | append_singleton l y ih =>
    have hl : Run step init ((tr₁ ++ x :: l) ++ [y]) s := by simpa using h
    obtain ⟨hprev, rfl⟩ := of_snoc hl
    by_cases hy : Q y.after
    · exact .inl hy
    · rcases ih hprev with hq | ⟨z, hz, hlost⟩
      · exact .inr ⟨y, by simp, hq, hy⟩
      · exact .inr ⟨z, by simp [hz], hlost⟩

end Run

/-! ## Total machines and erased actions -/

section Unwinding

variable {τ : Type u} {step : σ → α → σ} {C D : σ → α → Prop}

/-- Every action of the list is taken in a state in which the condition holds of it. -/
def Along (step : σ → α → σ) (C : σ → α → Prop) : σ → List α → Prop
  | _, [] => True
  | s, a :: rest => C s a ∧ Along step C (step s a) rest

instance Along.decidable [∀ s a, Decidable (C s a)] :
    (s : σ) → (actions : List α) → Decidable (Along step C s actions)
  | _, [] => .isTrue trivial
  | s, a :: rest =>
    have := Along.decidable (step s a) rest
    inferInstanceAs (Decidable (C s a ∧ Along step C (step s a) rest))

theorem Along.mono (h : ∀ s a, C s a → D s a) {s : σ} {actions : List α}
    (hc : Along step C s actions) : Along step D s actions := by
  induction actions generalizing s with
  | nil => trivial
  | cons a rest ih => exact ⟨h s a hc.1, ih hc.2⟩

theorem Along.and {s : σ} {actions : List α} (hc : Along step C s actions)
    (hd : Along step D s actions) : Along step (fun s a ↦ C s a ∧ D s a) s actions := by
  induction actions generalizing s with
  | nil => trivial
  | cons a rest ih => exact ⟨⟨hc.1, hd.1⟩, ih hc.2 hd.2⟩

theorem Along.of_forall {P : α → Prop} {s : σ} {actions : List α} (h : ∀ a ∈ actions, P a) :
    Along step (fun _ a ↦ P a) s actions := by
  induction actions generalizing s with
  | nil => trivial
  | cons a rest ih => exact ⟨h a (by simp), ih fun b hb ↦ h b (by simp [hb])⟩

/-- Unwinding: a relation that visible actions keep on both sides and hidden ones on the left
relates the run of all actions to the run from which the hidden ones are erased. -/
theorem unwinding {step' : τ → α → τ} {hidden : α → Bool} {R : σ → τ → Prop}
    (hvisible : ∀ s t a, R s t → C s a → hidden a = false → R (step s a) (step' t a))
    (hhidden : ∀ s t a, R s t → C s a → hidden a = true → R (step s a) t)
    {s : σ} {t : τ} {actions : List α} (hc : Along step C s actions) (h : R s t) :
    R (actions.foldl step s) ((actions.filter fun a ↦ !hidden a).foldl step' t) := by
  induction actions generalizing s t with
  | nil => exact h
  | cons a rest ih =>
    cases ha : hidden a with
    | true => simpa [ha] using ih hc.2 (hhidden s t a h hc.1 ha)
    | false => simpa [ha] using ih hc.2 (hvisible s t a h hc.1 ha)

end Unwinding

end ReinhardtCloud.Base

import Mathlib.Data.Finset.BooleanAlgebra
import Mathlib.Data.Fintype.Card
import Mathlib.Logic.Relation

/-!
# Search of a graph

Library `Base`. A search with a stack of pending nodes and the set of those visited, over any
finite type of nodes. A visit gives the nodes to look at next or fails; where no visit fails, the
nodes visited are the reachable ones. Nothing here names a component.
-/

namespace ReinhardtCloud.Base

universe u v w

variable {V : Type u} {σ : Type v} {ε : Type w}

theorem card_compl_insert_lt [Fintype V] [DecidableEq V] {visited : Finset V} {v : V}
    (h : v ∉ visited) :
    (insert v visited)ᶜ.card < visitedᶜ.card := by
  apply Finset.card_lt_card
  rw [Finset.compl_ssubset_compl]
  exact Finset.ssubset_insert h

/-- Each node of the stack is visited unless it has been. The visit changes the state and puts
the next nodes on the stack, the last on top. -/
def search [Fintype V] [DecidableEq V] (visit : σ → V → Except ε (σ × List V)) (s : σ)
    (visited : Finset V) : List V → Except ε σ
  | [] => .ok s
  | v :: pending =>
    if v ∈ visited then search visit s visited pending
    else
      match visit s v with
      | .error e => .error e
      | .ok (t, next) => search visit t (insert v visited) (next.reverse ++ pending)
termination_by pending => (visitedᶜ.card, pending.length)
decreasing_by
  · exact Prod.Lex.right _ (Nat.lt_succ_self _)
  · exact Prod.Lex.left _ _ (card_compl_insert_lt ‹_›)

/-! ## Lists of results -/

section Lists

variable {α β : Type u} {f : α → Except ε β} {l : List α} {results : List β}

theorem mapM_cons_ok {a : α} (h : (a :: l).mapM f = .ok results) :
    ∃ b rest, f a = .ok b ∧ l.mapM f = .ok rest ∧ results = b :: rest := by
  rw [List.mapM_cons] at h
  cases ha : f a with
  | error e =>
    rw [ha] at h
    cases h
  | ok b =>
    cases hl : l.mapM f with
    | error e =>
      rw [ha, hl] at h
      cases h
    | ok rest =>
      rw [ha, hl] at h
      cases h
      exact ⟨b, rest, rfl, rfl, rfl⟩

theorem mapM_ok (h : ∀ a ∈ l, ∃ b, f a = .ok b) : ∃ results, l.mapM f = .ok results := by
  induction l with
  | nil => exact ⟨[], rfl⟩
  | cons a l ih =>
    obtain ⟨b, hb⟩ := h a List.mem_cons_self
    obtain ⟨rest, hrest⟩ := ih fun a ha ↦ h a (List.mem_cons_of_mem _ ha)
    refine ⟨b :: rest, ?_⟩
    rw [List.mapM_cons, hb, hrest]
    rfl

theorem ok_of_mapM_ok (h : l.mapM f = .ok results) : ∀ a ∈ l, ∃ b, f a = .ok b := by
  induction l generalizing results with
  | nil =>
    intro a ha
    cases ha
  | cons a l ih =>
    obtain ⟨b, rest, hb, hrest, -⟩ := mapM_cons_ok h
    intro a' ha'
    rcases List.mem_cons.mp ha' with rfl | ha'
    · exact ⟨b, hb⟩
    · exact ih hrest a' ha'

theorem mem_flatten_of_mapM_ok {f : α → Except ε (List β)} {results : List (List β)}
    (h : l.mapM f = .ok results) {b : β} :
    b ∈ results.flatten ↔ ∃ a ∈ l, ∃ found, f a = .ok found ∧ b ∈ found := by
  induction l generalizing results with
  | nil =>
    cases h
    simp
  | cons a l ih =>
    obtain ⟨found, rest, hfound, hrest, rfl⟩ := mapM_cons_ok h
    rw [List.flatten_cons, List.mem_append, ih hrest]
    constructor
    · rintro (hb | ⟨a', ha', hb⟩)
      · exact ⟨a, List.mem_cons_self, found, hfound, hb⟩
      · exact ⟨a', List.mem_cons_of_mem _ ha', hb⟩
    · rintro ⟨a', ha', found', hfound', hb⟩
      rcases List.mem_cons.mp ha' with rfl | ha'
      · rw [hfound] at hfound'
        cases hfound'
        exact Or.inl hb
      · exact Or.inr ⟨a', ha', found', hfound', hb⟩

end Lists

/-! ## What is visited -/

/-- What a visit leads to. -/
def Leads (step : V → Except ε (List V)) (v w : V) : Prop := ∃ next, step v = .ok next ∧ w ∈ next

/-- Reachable by visits. -/
abbrev Reaches (step : V → Except ε (List V)) : V → V → Prop := Relation.ReflTransGen (Leads step)

section Laws

variable [Fintype V] [DecidableEq V] {visit : σ → V → Except ε (σ × List V)}
  {step : V → Except ε (List V)} {mark : σ → V → σ}

/-- A search visits what is pending and what its visits lead to, or fails with one of them. -/
theorem search_outcome (hvisit : ∀ s v, visit s v = (step v).map fun next ↦ (mark s v, next))
    (s : σ) (visited : Finset V) (pending : List V) :
    (∃ order : List V, search visit s visited pending = .ok (order.foldl mark s) ∧
      (∀ v ∈ pending, v ∈ visited ∨ v ∈ order) ∧
      (∀ v ∈ order, ∃ p ∈ pending, Reaches step p v) ∧
      ∀ v ∈ order, ∃ next, step v = .ok next ∧ ∀ w ∈ next, w ∈ visited ∨ w ∈ order) ∨
    ∃ p ∈ pending, ∃ v e, Reaches step p v ∧ step v = .error e ∧
      search visit s visited pending = .error e := by
  induction s, visited, pending using search.induct visit with
  | case1 s visited =>
    left
    refine ⟨[], ?_, ?_, ?_, ?_⟩
    · rw [search, List.foldl_nil]
    · intro v hv
      cases hv
    · intro v hv
      cases hv
    · intro v hv
      cases hv
  | case2 s visited v pending hmem ih =>
    rw [search, if_pos hmem]
    rcases ih with ⟨order, hsearch, hpending, hreaches, hclosed⟩ | ⟨p, hp, w, e, hw, he, hsearch⟩
    · left
      refine ⟨order, hsearch, ?_, ?_, hclosed⟩
      · intro w hw
        rcases List.mem_cons.mp hw with rfl | hw
        · exact Or.inl hmem
        · exact hpending w hw
      · intro w hw
        obtain ⟨p, hp, hpw⟩ := hreaches w hw
        exact ⟨p, List.mem_cons_of_mem _ hp, hpw⟩
    · right
      exact ⟨p, List.mem_cons_of_mem _ hp, w, e, hw, he, hsearch⟩
  | case3 s visited v pending hmem e hfail =>
    rw [search, if_neg hmem, hfail]
    right
    refine ⟨v, List.mem_cons_self, v, e, Relation.ReflTransGen.refl, ?_, rfl⟩
    rw [hvisit] at hfail
    cases hstep : step v with
    | error e' =>
      rw [hstep] at hfail
      cases hfail
      rfl
    | ok next =>
      rw [hstep] at hfail
      cases hfail
  | case4 s visited v pending hmem t next hok ih =>
    obtain ⟨hstep, rfl⟩ : step v = .ok next ∧ t = mark s v := by
      rw [hvisit] at hok
      cases hstep : step v with
      | error e =>
        rw [hstep] at hok
        cases hok
      | ok next' =>
        rw [hstep] at hok
        cases hok
        exact ⟨rfl, rfl⟩
    -- what is pending now is what was, and what the visit leads to
    have hfrom : ∀ p ∈ next.reverse ++ pending, ∃ q ∈ v :: pending, Reaches step q p := by
      intro p hp
      rcases List.mem_append.mp hp with hp | hp
      · exact ⟨v, List.mem_cons_self,
          Relation.ReflTransGen.single ⟨next, hstep, List.mem_reverse.mp hp⟩⟩
      · exact ⟨p, List.mem_cons_of_mem _ hp, Relation.ReflTransGen.refl⟩
    rw [search, if_neg hmem, hok]
    rcases ih with ⟨order, hsearch, hpending, hreaches, hclosed⟩ | ⟨p, hp, w, e, hw, he, hsearch⟩
    · left
      have hseen : ∀ w, w ∈ insert v visited ∨ w ∈ order → w ∈ visited ∨ w ∈ v :: order := by
        intro w hw
        rw [Finset.mem_insert] at hw
        rw [List.mem_cons]
        tauto
      refine ⟨v :: order, hsearch, ?_, ?_, ?_⟩
      · intro w hw
        rcases List.mem_cons.mp hw with rfl | hw
        · exact Or.inr List.mem_cons_self
        · exact hseen w (hpending w (List.mem_append_right _ hw))
      · intro w hw
        rcases List.mem_cons.mp hw with rfl | hw
        · exact ⟨w, List.mem_cons_self, Relation.ReflTransGen.refl⟩
        · obtain ⟨p, hp, hpw⟩ := hreaches w hw
          obtain ⟨q, hq, hqp⟩ := hfrom p hp
          exact ⟨q, hq, hqp.trans hpw⟩
      · intro w hw
        rcases List.mem_cons.mp hw with rfl | hw
        · refine ⟨next, hstep, ?_⟩
          intro x hx
          exact hseen x (hpending x (List.mem_append_left _ (List.mem_reverse.mpr hx)))
        · obtain ⟨nexts, hnexts, hx⟩ := hclosed w hw
          exact ⟨nexts, hnexts, fun x h ↦ hseen x (hx x h)⟩
    · right
      obtain ⟨q, hq, hqp⟩ := hfrom p hp
      exact ⟨q, hq, w, e, hqp.trans hw, he, hsearch⟩

/-- A search from one node visits exactly what it reaches, or fails with a node it reaches. -/
theorem search_single (hvisit : ∀ s v, visit s v = (step v).map fun next ↦ (mark s v, next))
    (s : σ) (root : V) :
    (∃ order : List V, search visit s ∅ [root] = .ok (order.foldl mark s) ∧
      (∀ v, v ∈ order ↔ Reaches step root v) ∧ ∀ v ∈ order, ∃ next, step v = .ok next) ∨
    ∃ v e, Reaches step root v ∧ step v = .error e ∧ search visit s ∅ [root] = .error e := by
  rcases search_outcome hvisit s ∅ [root] with
    ⟨order, hsearch, hpending, hreaches, hclosed⟩ | ⟨p, hp, v, e, hv, he, hsearch⟩
  · left
    have hnone : ∀ w, w ∈ (∅ : Finset V) ∨ w ∈ order → w ∈ order := by
      intro w hw
      exact hw.resolve_left (Finset.notMem_empty w)
    refine ⟨order, hsearch, ?_, ?_⟩
    · intro v
      constructor
      · intro hv
        obtain ⟨p, hp, hpv⟩ := hreaches v hv
        rw [List.mem_singleton] at hp
        rwa [hp] at hpv
      · intro hv
        induction hv with
        | refl => exact hnone root (hpending root List.mem_cons_self)
        | tail _ hlead ih =>
          obtain ⟨next, hstep, hw⟩ := hlead
          obtain ⟨next', hstep', hall⟩ := hclosed _ ih
          rw [hstep] at hstep'
          cases hstep'
          exact hnone _ (hall _ hw)
    · intro v hv
      obtain ⟨next, hstep, -⟩ := hclosed v hv
      exact ⟨next, hstep⟩
  · right
    rw [List.mem_singleton] at hp
    rw [hp] at hv
    exact ⟨v, e, hv, he, hsearch⟩

end Laws

end ReinhardtCloud.Base

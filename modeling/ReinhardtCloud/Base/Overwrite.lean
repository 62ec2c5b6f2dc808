import Mathlib.Data.Fintype.Basic
import Mathlib.Data.List.Induction

/-!
# Writers that overwrite each other

Library `Base`. When each write replaces, as far as an observer can tell, what the write before
it left, a sequence of writes leaves what its last one leaves. Such writers agree in every
order exactly when they leave the same. Nothing here names a component.
-/

namespace ReinhardtCloud.Base

universe u v w

variable {σ : Type u} {α : Type v} {ω : Type w}

/-- To the observer, a write leaves the same whether or not another came just before it. -/
def Overwriting (write : σ → α → σ) (observe : σ → ω) : Prop :=
  ∀ s a b, observe (write (write s a) b) = observe (write s b)

/-- The listed writers are the members of the set, in some order and with repetitions. -/
def Covers (S : Finset α) (order : List α) : Prop := ∀ a, a ∈ order ↔ a ∈ S

namespace Overwriting

variable {write : σ → α → σ} {observe : σ → ω}

/-- A sequence of writes leaves what its last one leaves. -/
theorem foldl_concat (h : Overwriting write observe) (order : List α) (a : α) (s : σ) :
    observe ((order ++ [a]).foldl write s) = observe (write s a) := by
  induction order generalizing s with
  | nil => rfl
  | cons b rest ih =>
    rw [List.cons_append, List.foldl_cons, ih (write s b)]
    exact h s b a

/-- Writers of which each occurs leave the same in every order iff they all leave the same. -/
theorem same_in_every_order_iff (h : Overwriting write observe) (S : Finset α) (s : σ) :
    (∀ order order', Covers S order → Covers S order' →
      observe (order.foldl write s) = observe (order'.foldl write s)) ↔
    ∀ a ∈ S, ∀ b ∈ S, observe (write s a) = observe (write s b) := by
  constructor
  · intro hsame a ha b hb
    have hcover : ∀ c ∈ S, Covers S (S.toList ++ [c]) := by
      intro c hc d
      rw [List.mem_append, Finset.mem_toList, List.mem_singleton]
      constructor
      · rintro (hd | rfl)
        · exact hd
        · exact hc
      · exact Or.inl
    have hab := hsame _ _ (hcover a ha) (hcover b hb)
    rwa [h.foldl_concat, h.foldl_concat] at hab
  · intro hall order order' ho ho'
    -- Either nobody writes, or both sequences end with a member of the set.
    rcases List.eq_nil_or_concat order with rfl | ⟨rest, a, rfl⟩
    · rcases List.eq_nil_or_concat order' with rfl | ⟨rest', b, rfl⟩
      · rfl
      · exact absurd ((ho b).mpr ((ho' b).mp (by simp))) (List.not_mem_nil)
    · rcases List.eq_nil_or_concat order' with rfl | ⟨rest', b, rfl⟩
      · exact absurd ((ho' a).mpr ((ho a).mp (by simp))) (List.not_mem_nil)
      · rw [List.concat_eq_append, List.concat_eq_append, h.foldl_concat, h.foldl_concat]
        exact hall a ((ho a).mp (by simp)) b ((ho' b).mp (by simp))

end Overwriting

end ReinhardtCloud.Base

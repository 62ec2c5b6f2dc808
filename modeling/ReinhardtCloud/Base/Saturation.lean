import Mathlib.Algebra.Group.Nat.Defs
import Mathlib.Data.List.Induction
import Mathlib.Order.Lattice

/-!
# Saturating arithmetic and capped doubling

Library `Base`. The saturating operations of an unsigned type, what a capped power of two is when
its exponent is capped as well, and a counter that is reset now and then, against the number of
marks since its last reset. Nothing here names a component.
-/

namespace ReinhardtCloud.Base

/-- `saturating_add` of an unsigned type of the given width. -/
def saturatingAdd (bits a b : Nat) : Nat := min (a + b) (2 ^ bits - 1)

/-- `saturating_mul`. -/
def saturatingMul (bits a b : Nat) : Nat := min (a * b) (2 ^ bits - 1)

/-- `checked_shl`: nothing when the shift is as wide as the type. -/
def checkedShl (bits a n : Nat) : Option Nat :=
  if n < bits then some (a * 2 ^ n % 2 ^ bits) else none

/-- An addition that panics on overflow. -/
def checkedAdd (bits a b : Nat) : Option Nat := if a + b < 2 ^ bits then some (a + b) else none

/-- A multiplication that panics on overflow. -/
def checkedMul (bits a b : Nat) : Option Nat := if a * b < 2 ^ bits then some (a * b) else none

/-- A power of two that the type has. -/
theorem checkedShl_one {bits n : Nat} (h : n < bits) : checkedShl bits 1 n = some (2 ^ n) := by
  rw [checkedShl, if_pos h, Nat.one_mul, Nat.mod_eq_of_lt (Nat.pow_lt_pow_right (by decide) h)]

theorem saturatingMul_eq {bits a b : Nat} (h : a * b < 2 ^ bits) : saturatingMul bits a b = a * b :=
  Nat.min_eq_left (by omega)

/-- Counting on from a saturated count. -/
theorem saturatingAdd_min (bits n : Nat) :
    saturatingAdd bits (min n (2 ^ bits - 1)) 1 = min (n + 1) (2 ^ bits - 1) := by
  rw [saturatingAdd]
  omega

/-- Once doubling has passed the cap, the exponent may be cut off. -/
theorem min_mul_two_pow_min {base cap k : Nat} (hcap : cap ≤ base * 2 ^ k) (n : Nat) :
    min (base * 2 ^ min n k) cap = min (base * 2 ^ n) cap := by
  rcases Nat.le_total n k with h | h
  · rw [Nat.min_eq_left h]
  · have hpow : base * 2 ^ k ≤ base * 2 ^ n :=
      Nat.mul_le_mul_left base (Nat.pow_le_pow_right (by decide) h)
    rw [Nat.min_eq_right h, Nat.min_eq_right hcap, Nat.min_eq_right (Nat.le_trans hcap hpow)]

/-! ## Marks since the last reset -/

universe u

variable {α : Type u}

/-- How many marks a history, oldest first, ends with. -/
def marksAtEnd (isMark : α → Bool) (history : List α) : Nat :=
  (history.reverse.takeWhile isMark).length

@[simp] theorem marksAtEnd_nil (isMark : α → Bool) : marksAtEnd isMark [] = 0 := rfl

theorem marksAtEnd_concat {isMark : α → Bool} (history : List α) (x : α) :
    marksAtEnd isMark (history ++ [x]) =
      if isMark x = true then marksAtEnd isMark history + 1 else 0 := by
  rw [marksAtEnd, List.reverse_concat, List.takeWhile_cons]
  by_cases h : isMark x = true
  · rw [if_pos h, if_pos h, List.length_cons]
    rfl
  · rw [if_neg h, if_neg h]
    rfl

end ReinhardtCloud.Base

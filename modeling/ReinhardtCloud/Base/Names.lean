import Mathlib.Data.List.DropRight

/-!
# Names joined by a separator

Library `Base`. A name made of a head and an optional tail behind a separator can be read in
more than one way when the parts themselves contain the separator, or when separators are cut
off its end. Nothing here names a component.
-/

namespace ReinhardtCloud.Base

universe u

variable {α : Type u}

/-- The tail of a joined name: nothing, or the separator and the second part. -/
def joinTail (sep : α) : Option (List α) → List α
  | none => []
  | some tail => sep :: tail

/-- The second name is the first with a separator and a part moved out of its tail. -/
def ShiftsInto (sep : α) (head : List α) (tail : Option (List α)) (head' : List α)
    (tail' : Option (List α)) : Prop :=
  ∃ part, head' = head ++ sep :: part ∧ tail = some (part ++ joinTail sep tail')

variable {sep : α} {head head' : List α} {tail tail' : Option (List α)}

theorem joinTail_injective : Function.Injective (joinTail sep) := by
  intro tail tail' h
  cases tail <;> cases tail' <;> simp_all [joinTail]

/-- A shifted name reads the same. -/
theorem ShiftsInto.join_eq (h : ShiftsInto sep head tail head' tail') :
    head ++ joinTail sep tail = head' ++ joinTail sep tail' := by
  obtain ⟨part, rfl, rfl⟩ := h
  rw [joinTail, List.append_assoc, List.cons_append]

/-- A shift lengthens the head. -/
theorem ShiftsInto.head_ne (h : ShiftsInto sep head tail head' tail') : head ≠ head' := by
  obtain ⟨part, rfl, -⟩ := h
  intro he
  have := congrArg List.length he
  rw [List.length_append, List.length_cons] at this
  omega

private theorem eq_or_shiftsInto {extra : List α} (hh : head' = head ++ extra)
    (ht : joinTail sep tail = extra ++ joinTail sep tail') :
    head = head' ∧ tail = tail' ∨ ShiftsInto sep head tail head' tail' := by
  cases extra with
  | nil =>
    left
    exact ⟨by rw [hh, List.append_nil], joinTail_injective ht⟩
  | cons c part =>
    right
    cases tail with
    | none => exact absurd ht.symm (List.cons_ne_nil _ _)
    | some t =>
      rw [joinTail, List.cons_append, List.cons.injEq] at ht
      obtain ⟨rfl, rfl⟩ := ht
      exact ⟨part, hh, rfl⟩

/-- Two joined names are equal exactly when their parts are, or one shifts into the other. -/
theorem join_eq_iff :
    head ++ joinTail sep tail = head' ++ joinTail sep tail' ↔
      (head = head' ∧ tail = tail') ∨ ShiftsInto sep head tail head' tail' ∨
        ShiftsInto sep head' tail' head tail := by
  constructor
  · intro h
    rcases List.append_eq_append_iff.mp h with ⟨extra, hh, ht⟩ | ⟨extra, hh, ht⟩
    · rcases eq_or_shiftsInto hh ht with h | h
      · exact Or.inl h
      · exact Or.inr (Or.inl h)
    · rcases eq_or_shiftsInto hh ht with ⟨h, h'⟩ | h
      · exact Or.inl ⟨h.symm, h'.symm⟩
      · exact Or.inr (Or.inr h)
  · rintro (⟨rfl, rfl⟩ | h | h)
    · rfl
    · exact h.join_eq
    · exact h.join_eq.symm

section

variable [DecidableEq α]

/-- What remains of a tail once the separators at its end are cut off. -/
def trimmedTail (sep : α) (tail : List α) : Option (List α) :=
  let rest := tail.rdropWhile (· = sep)
  if rest.isEmpty then none else some rest

/-- Cutting the separators off the end of a joined name leaves its head and the trimmed tail. -/
theorem rdropWhile_join {head : List α} (hlast : head.getLast?.any (· ≠ sep)) (tail : List α) :
    (head ++ sep :: tail).rdropWhile (· = sep) = head ++ joinTail sep (trimmedTail sep tail) := by
  obtain ⟨c, hc⟩ := Option.isSome_iff_exists.mp (Option.isSome_of_any hlast)
  obtain ⟨init, rfl⟩ := List.getLast?_eq_some_iff.mp hc
  have hne : c ≠ sep := by simpa using hlast
  have hcut : (init ++ [c]).rdropWhile (· = sep) = init ++ [c] :=
    List.rdropWhile_concat_neg _ _ _ (by simpa using hne)
  rw [List.append_cons, List.rdropWhile, List.reverse_append, List.dropWhile_append]
  unfold trimmedTail List.rdropWhile
  by_cases ht : (tail.reverse.dropWhile (· = sep)).isEmpty
  · have hsep : (init ++ [c] ++ [sep]).rdropWhile (· = sep) = init ++ [c] := by
      rw [List.rdropWhile_concat_pos _ _ _ (by simp), hcut]
    rw [if_pos ht, if_pos (by simpa using ht), joinTail, List.append_nil]
    exact hsep
  · rw [if_neg ht, if_neg (by simpa using ht), joinTail]
    simp

/-- Such a name does not end in a separator. -/
theorem getLast?_join {head : List α} (hlast : head.getLast?.any (· ≠ sep)) (tail : List α) :
    (head ++ joinTail sep (trimmedTail sep tail)).getLast?.any (· ≠ sep) := by
  rw [← rdropWhile_join hlast]
  have hne : (head ++ sep :: tail).rdropWhile (· = sep) ≠ [] := by
    rw [rdropWhile_join hlast]
    intro hnil
    rw [(List.append_eq_nil_iff.mp hnil).1] at hlast
    cases hlast
  have hend := List.rdropWhile_last_not _ _ hne
  rw [List.getLast?_eq_some_getLast hne, Option.any_some]
  simpa using hend

end

end ReinhardtCloud.Base

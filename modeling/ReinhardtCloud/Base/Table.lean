import Mathlib.Data.List.AList

/-!
# Tables with generated keys

Library `Base`. A database table: rows under numeric primary keys that the table hands out
itself and never again. Rows are read by key or as the first that meets a filter, replaced
whole, added and deleted; every operation has one lemma about the rows that can be read
afterwards. Nothing here names a component.
-/

namespace ReinhardtCloud.Base

universe u

/-- Rows by primary key; `next` is the key of the next row. -/
structure Table (Row : Type u) where
  rows : AList fun _ : Nat ↦ Row
  next : Nat
  bound : ∀ k ∈ rows, k < next

namespace Table

variable {Row : Type u}

/-- A table without rows. -/
def empty : Table Row := ⟨∅, 0, fun k hk ↦ absurd hk (AList.notMem_empty k)⟩

/-- The row under a key. -/
def get (t : Table Row) (k : Nat) : Option Row := t.rows.lookup k

/-- The first row that meets the filter, with its key. -/
def first (t : Table Row) (p : Row → Bool) : Option (Nat × Row) :=
  (t.rows.entries.find? fun e ↦ p e.2).map fun e ↦ (e.1, e.2)

/-- All rows that meet the filter, with their keys. -/
def all (t : Table Row) (p : Row → Bool) : List (Nat × Row) :=
  (t.rows.entries.filter fun e ↦ p e.2).map fun e ↦ (e.1, e.2)

/-- Replace the row under a key; nothing when there is none. -/
def set (t : Table Row) (k : Nat) (row : Row) : Table Row :=
  if h : k ∈ t.rows then
    ⟨t.rows.insert k row, t.next, fun j hj ↦ by
      rcases (AList.mem_insert t.rows).mp hj with rfl | hj
      · exact t.bound j h
      · exact t.bound j hj⟩
  else t

/-- Add a row under the next key. -/
def add (t : Table Row) (row : Row) : Table Row where
  rows := t.rows.insert t.next row
  next := t.next + 1
  bound := fun j hj ↦ by
    rcases (AList.mem_insert t.rows).mp hj with rfl | hj
    · exact Nat.lt_succ_self _
    · exact Nat.lt_succ_of_lt (t.bound j hj)

/-- Delete the rows that meet the filter. -/
def deleteWhere (t : Table Row) (p : Nat → Row → Bool) : Table Row where
  rows := ⟨t.rows.entries.filter fun e ↦ !p e.1 e.2, by
    have hsub : (t.rows.entries.filter fun e ↦ !p e.1 e.2).Sublist t.rows.entries :=
      List.filter_sublist
    exact (hsub.map Sigma.fst).nodup t.rows.nodupKeys⟩
  next := t.next
  bound := fun j hj ↦ t.bound j (((List.filter_sublist).map Sigma.fst).subset hj)

variable {t : Table Row} {k j : Nat} {row other : Row} {p : Row → Bool}

theorem get_eq_some : t.get k = some row ↔ (⟨k, row⟩ : Sigma fun _ : Nat ↦ Row) ∈ t.rows.entries :=
  AList.mem_lookup_iff

@[simp] theorem get_empty : (empty : Table Row).get k = none := rfl

/-- A key that has not been handed out has no row. -/
theorem get_eq_none_of_next_le (h : t.next ≤ k) : t.get k = none := by
  rw [get, AList.lookup_eq_none]
  intro hk
  exact absurd (t.bound k hk) (by omega)

theorem lt_next_of_get (h : t.get k = some row) : k < t.next := by
  by_contra hk
  rw [get_eq_none_of_next_le (by omega)] at h
  cases h

/-- A found row is stored under its key and meets the filter. -/
theorem first_eq_some (h : t.first p = some (k, row)) : t.get k = some row ∧ p row = true := by
  obtain ⟨⟨j, other⟩, he, hrow⟩ := Option.map_eq_some_iff.mp h
  cases hrow
  exact ⟨get_eq_some.mpr (List.mem_of_find?_eq_some he), by simpa using List.find?_some he⟩

/-- When nothing is found no stored row meets the filter. -/
theorem first_eq_none (h : t.first p = none) (hk : t.get k = some row) : p row = false := by
  have hnone := List.find?_eq_none.mp (Option.map_eq_none_iff.mp h) _ (get_eq_some.mp hk)
  simpa using hnone

theorem mem_all : (k, row) ∈ t.all p ↔ t.get k = some row ∧ p row = true := by
  rw [get_eq_some]
  simp only [all, List.mem_map, List.mem_filter, Prod.mk.injEq]
  constructor
  · rintro ⟨⟨j, other⟩, ⟨he, hp⟩, rfl, rfl⟩
    exact ⟨he, hp⟩
  · rintro ⟨he, hp⟩
    exact ⟨⟨k, row⟩, ⟨he, hp⟩, rfl, rfl⟩

/-- Only an existing row is replaced. -/
theorem get_set : (t.set k row).get j = if j = k then (t.get k).map fun _ ↦ row else t.get j := by
  unfold set
  split
  · next h =>
    by_cases hj : j = k
    · subst hj
      obtain ⟨old, hold⟩ := Option.isSome_iff_exists.mp (AList.lookup_isSome.mpr h)
      rw [if_pos rfl, get, AList.lookup_insert, get, hold]
      rfl
    · rw [if_neg hj, get, AList.lookup_insert_ne hj, get]
  · next h =>
    by_cases hj : j = k
    · subst hj
      rw [if_pos rfl, get, AList.lookup_eq_none.mpr h]
      rfl
    · rw [if_neg hj]

@[simp] theorem get_set_self (h : t.get k = some other) : (t.set k row).get k = some row := by
  rw [get_set, if_pos rfl, h]
  rfl

theorem get_set_of_ne (h : j ≠ k) : (t.set k row).get j = t.get j := by
  rw [get_set, if_neg h]

theorem get_add : (t.add row).get j = if j = t.next then some row else t.get j := by
  by_cases hj : j = t.next
  · rw [if_pos hj, get, add, hj, AList.lookup_insert]
  · rw [if_neg hj, get, add, AList.lookup_insert_ne hj, get]

@[simp] theorem get_add_next : (t.add row).get t.next = some row := by
  rw [get_add, if_pos rfl]

/-- An added row leaves the stored ones. -/
theorem get_add_of_get (h : t.get j = some other) : (t.add row).get j = some other := by
  rw [get_add, if_neg (by have := lt_next_of_get h; omega), h]

/-- What a deletion leaves. -/
theorem get_deleteWhere {p : Nat → Row → Bool} :
    (t.deleteWhere p).get j = some row ↔ t.get j = some row ∧ p j row = false := by
  rw [get_eq_some, get_eq_some]
  simp [deleteWhere]

@[simp] theorem next_set : (t.set k row).next = t.next := by
  unfold set
  split <;> rfl

@[simp] theorem next_add : (t.add row).next = t.next + 1 := rfl

@[simp] theorem next_deleteWhere {p : Nat → Row → Bool} : (t.deleteWhere p).next = t.next := rfl

/-! ## What a later table keeps of an earlier one -/

section Later

variable {α : Type*} {f : Row → α} {t' : Table Row} {new : Row}

/-- Every row stays, up to columns that `f` does not read. -/
def Retains (f : Row → α) (t t' : Table Row) : Prop :=
  ∀ k row, t.get k = some row → ∃ row', t'.get k = some row' ∧ f row' = f row

/-- What is stored under an earlier key was there before, up to columns that `f` does not read. -/
def Refreshes (f : Row → α) (t t' : Table Row) : Prop :=
  t.next ≤ t'.next ∧ ∀ k row', k < t.next → t'.get k = some row' →
    ∃ row, t.get k = some row ∧ f row = f row'

theorem Retains.refl : Retains f t t := fun _ row h ↦ ⟨row, h, rfl⟩

theorem Refreshes.refl : Refreshes f t t := ⟨Nat.le_refl _, fun _ row _ h ↦ ⟨row, h, rfl⟩⟩

theorem retains_set (h : ∀ old, t.get k = some old → f new = f old) :
    Retains f t (t.set k new) := by
  intro j row hrow
  by_cases hj : j = k
  · subst hj
    exact ⟨new, get_set_self hrow, h row hrow⟩
  · exact ⟨row, (get_set_of_ne hj).trans hrow, rfl⟩

theorem refreshes_set (h : ∀ old, t.get k = some old → f new = f old) :
    Refreshes f t (t.set k new) := by
  refine ⟨Nat.le_of_eq next_set.symm, fun j row' _ hrow ↦ ?_⟩
  rw [get_set] at hrow
  split at hrow
  · next hj =>
    obtain ⟨old, hold, rfl⟩ := Option.map_eq_some_iff.mp hrow
    exact ⟨old, hj ▸ hold, (h old hold).symm⟩
  · exact ⟨row', hrow, rfl⟩

theorem retains_add : Retains f t (t.add new) := fun _ row h ↦ ⟨row, get_add_of_get h, rfl⟩

theorem refreshes_add : Refreshes f t (t.add new) := by
  refine ⟨Nat.le_succ _, fun j row' hj hrow ↦ ⟨row', ?_, rfl⟩⟩
  rwa [get_add, if_neg (by omega)] at hrow

theorem refreshes_deleteWhere {p : Nat → Row → Bool} : Refreshes f t (t.deleteWhere p) :=
  ⟨Nat.le_refl _, fun _ row' _ h ↦ ⟨row', (get_deleteWhere.mp h).1, rfl⟩⟩

theorem Retains.trans {t'' : Table Row} (h : Retains f t t') (h' : Retains f t' t'') :
    Retains f t t'' := by
  intro k row hrow
  obtain ⟨row', hrow', hf⟩ := h k row hrow
  obtain ⟨row'', hrow'', hf'⟩ := h' k row' hrow'
  exact ⟨row'', hrow'', hf'.trans hf⟩

end Later

end Table

end ReinhardtCloud.Base

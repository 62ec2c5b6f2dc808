import Mathlib.Data.List.Sort
import Mathlib.Order.Lattice
import ReinhardtCloud.Base.Keyed

/-!
# Sorted maps

Library `Base`. `BTreeMap` of the standard library: the entries in the order of their keys, each
key once. A map is determined by its entries, and inserting them again gives it back. Nothing here
names a component.
-/

namespace ReinhardtCloud.Base

universe u v

/-- `BTreeMap`. -/
structure SortedMap (κ : Type u) (β : Type v) [LinearOrder κ] where
  entries : List (κ × β)
  sorted : entries.Pairwise fun a b ↦ a.1 < b.1
  deriving DecidableEq

namespace SortedMap

variable {κ : Type u} {β : Type v} [LinearOrder κ] {k : κ} {v : β} {l : List (κ × β)}

@[ext]
theorem ext {m m' : SortedMap κ β} (h : m.entries = m'.entries) : m = m' := by
  cases m
  cases m'
  congr

/-- The entries with one more, which replaces that of the same key. -/
def insertEntry (k : κ) (v : β) : List (κ × β) → List (κ × β)
  | [] => [(k, v)]
  | entry :: rest =>
    if k < entry.1 then (k, v) :: entry :: rest
    else if k = entry.1 then (k, v) :: rest
    else entry :: insertEntry k v rest

theorem mem_insertEntry {entry : κ × β} (h : entry ∈ insertEntry k v l) :
    entry = (k, v) ∨ entry ∈ l := by
  induction l with
  | nil => exact .inl (List.mem_singleton.mp h)
  | cons head rest ih =>
    rw [insertEntry] at h
    split at h
    · exact List.mem_cons.mp h
    · split at h
      · rcases List.mem_cons.mp h with h | h
        · exact .inl h
        · exact .inr (List.mem_cons_of_mem _ h)
      · rcases List.mem_cons.mp h with rfl | h
        · exact .inr List.mem_cons_self
        · rcases ih h with h | h
          · exact .inl h
          · exact .inr (List.mem_cons_of_mem _ h)

theorem pairwise_insertEntry (h : l.Pairwise fun a b ↦ a.1 < b.1) :
    (insertEntry k v l).Pairwise fun a b ↦ a.1 < b.1 := by
  induction l with
  | nil => exact List.pairwise_singleton _ _
  | cons head rest ih =>
    obtain ⟨hhead, hrest⟩ := List.pairwise_cons.mp h
    rw [insertEntry]
    split
    · next hlt =>
      apply List.Pairwise.cons _ h
      intro entry hentry
      rcases List.mem_cons.mp hentry with rfl | hentry
      · exact hlt
      · exact lt_trans hlt (hhead entry hentry)
    · next hnot =>
      split
      · next heq =>
        subst heq
        exact List.Pairwise.cons hhead hrest
      · next hne =>
        apply List.Pairwise.cons _ (ih hrest)
        intro entry hentry
        rcases mem_insertEntry hentry with rfl | hentry
        · exact lt_of_le_of_ne (not_lt.mp hnot) (Ne.symm hne)
        · exact hhead entry hentry

/-- `BTreeMap::new`. -/
def empty : SortedMap κ β := ⟨[], .nil⟩

/-- `BTreeMap::insert`. -/
def insert (m : SortedMap κ β) (k : κ) (v : β) : SortedMap κ β :=
  ⟨insertEntry k v m.entries, pairwise_insertEntry m.sorted⟩

/-- `BTreeMap::keys`. -/
def keys (m : SortedMap κ β) : List κ := m.entries.map Prod.fst

theorem mem_keys_insert {m : SortedMap κ β} {key : κ} :
    key ∈ (m.insert k v).keys ↔ key = k ∨ key ∈ m.keys := by
  have hentries (l : List (κ × β)) :
      key ∈ (insertEntry k v l).map Prod.fst ↔ key = k ∨ key ∈ l.map Prod.fst := by
    induction l with
    | nil => exact List.mem_cons
    | cons entry rest ih =>
      rw [insertEntry]
      split
      · exact List.mem_cons
      · split
        · next heq =>
          rw [List.map_cons, List.map_cons, List.mem_cons, List.mem_cons, heq, ← or_assoc, or_self]
        · rw [List.map_cons, List.map_cons, List.mem_cons, List.mem_cons, ih, or_left_comm]
  exact hentries m.entries

/-- `BTreeMap::extend`. -/
def extend (m : SortedMap κ β) (l : List (κ × β)) : SortedMap κ β :=
  l.foldl (fun m entry ↦ m.insert entry.1 entry.2) m

/-- A key behind all others is inserted at the end. -/
theorem insertEntry_last (h : ∀ entry ∈ l, entry.1 < k) :
    insertEntry k v l = l ++ [(k, v)] := by
  induction l with
  | nil => rfl
  | cons head rest ih =>
    have hlt := h head List.mem_cons_self
    rw [insertEntry, if_neg (not_lt.mpr (le_of_lt hlt)), if_neg (ne_of_gt hlt),
      ih fun entry hentry ↦ h entry (List.mem_cons_of_mem _ hentry), List.cons_append]

/-- Sorted entries behind those of a map are appended. -/
theorem entries_extend {m : SortedMap κ β} (h : (m.entries ++ l).Pairwise fun a b ↦ a.1 < b.1) :
    (m.extend l).entries = m.entries ++ l := by
  induction l generalizing m with
  | nil => exact (List.append_nil _).symm
  | cons entry rest ih =>
    have hinsert : (m.insert entry.1 entry.2).entries = m.entries ++ [entry] := by
      apply insertEntry_last
      intro other hother
      exact (List.pairwise_append.mp h).2.2 other hother entry List.mem_cons_self
    have hrest : ((m.insert entry.1 entry.2).entries ++ rest).Pairwise fun a b ↦ a.1 < b.1 := by
      rw [hinsert, List.append_assoc, List.singleton_append]
      exact h
    rw [extend, List.foldl_cons]
    exact (ih hrest).trans (by rw [hinsert, List.append_assoc, List.singleton_append])

/-- A map is what its entries make. -/
theorem extend_entries (m : SortedMap κ β) : empty.extend m.entries = m :=
  ext (entries_extend (m := empty) m.sorted)

theorem nodup_keys (m : SortedMap κ β) : (m.entries.map Prod.fst).Nodup := by
  rw [List.Nodup, List.pairwise_map]
  exact m.sorted.imp fun h ↦ ne_of_lt h

section Lookup

variable [BEq κ] [LawfulBEq κ] {m m' : SortedMap κ β} {key : κ}

/-- A map is determined by what is found in it. -/
theorem ext_lookup (h : ∀ key, m.entries.lookup key = m'.entries.lookup key) : m = m' := by
  have hmem (entry : κ × β) : entry ∈ m.entries ↔ entry ∈ m'.entries := by
    rw [← lookup_eq_some_iff_mem m.nodup_keys, ← lookup_eq_some_iff_mem m'.nodup_keys, h]
  apply ext
  apply List.Perm.eq_of_pairwise _ m.sorted m'.sorted
  · apply (List.perm_ext_iff_of_nodup _ _).mpr hmem
    · exact m.nodup_keys.of_map
    · exact m'.nodup_keys.of_map
  · intro a b _ _ hlt hgt
    exact absurd hlt (lt_asymm hgt)

theorem lookup_insertEntry (k : κ) (v : β) (l : List (κ × β)) (key : κ) :
    (insertEntry k v l).lookup key = if key = k then some v else l.lookup key := by
  induction l with
  | nil =>
    rw [insertEntry, List.lookup_cons]
    by_cases hkey : key = k
    · rw [if_pos hkey, hkey, beq_self_eq_true]
    · rw [if_neg hkey, beq_eq_false_iff_ne.mpr hkey]
  | cons entry rest ih =>
    rw [insertEntry]
    by_cases hkey : key = k
    · subst hkey
      rw [if_pos rfl]
      split
      · exact List.lookup_cons_self
      · next hnot =>
        split
        · exact List.lookup_cons_self
        · next hne =>
          rw [List.lookup_cons, beq_eq_false_iff_ne.mpr hne, ih, if_pos rfl]
    · rw [if_neg hkey] at ih ⊢
      have hbeq : (key == k) = false := beq_eq_false_iff_ne.mpr hkey
      split
      · rw [List.lookup_cons, hbeq]
      · split
        · next heq => rw [List.lookup_cons, List.lookup_cons, ← heq, hbeq]
        · rw [List.lookup_cons, List.lookup_cons, ih]

/-- The values that are put into a map: each key has the value meant for it. -/
theorem lookup_extend (target : κ → Option β)
    (h : ∀ entry ∈ l, target entry.1 = some entry.2) :
    (m.extend l).entries.lookup key =
      if key ∈ l.map Prod.fst then target key else m.entries.lookup key := by
  induction l generalizing m with
  | nil => exact (if_neg List.not_mem_nil).symm
  | cons entry rest ih =>
    have hinsert : (m.insert entry.1 entry.2).entries.lookup key =
        if key = entry.1 then some entry.2 else m.entries.lookup key :=
      lookup_insertEntry entry.1 entry.2 m.entries key
    rw [extend, List.foldl_cons]
    apply (ih fun other hother ↦ h other (List.mem_cons_of_mem _ hother)).trans
    rw [hinsert, List.map_cons]
    by_cases hrest : key ∈ rest.map Prod.fst
    · rw [if_pos hrest, if_pos (List.mem_cons_of_mem _ hrest)]
    · rw [if_neg hrest]
      by_cases hkey : key = entry.1
      · rw [if_pos hkey, hkey, if_pos List.mem_cons_self, h entry List.mem_cons_self]
      · rw [if_neg hkey, if_neg fun hmem ↦ (List.mem_cons.mp hmem).elim hkey hrest]

end Lookup

end SortedMap

end ReinhardtCloud.Base

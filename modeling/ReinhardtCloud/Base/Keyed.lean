import Mathlib.Data.List.Nodup

/-!
# Lists as keyed maps

Library `Base`. A list of entries with keys, of which the first of a key counts; `upsert`
replaces that one or appends. `Carried` is what a writer owes the list it read: unique keys stay
unique, the entries it does not set stay, and an entry it sets is related to the one before.
Nothing here names a component.
-/

namespace ReinhardtCloud.Base

universe u v

/-- Of an association list with unique keys, a lookup finds each entry. -/
theorem lookup_eq_some_iff_mem {κ : Type u} {β : Type v} [BEq κ] [LawfulBEq κ] {l : List (κ × β)}
    (hkeys : (l.map Prod.fst).Nodup) {k : κ} {value : β} :
    l.lookup k = some value ↔ (k, value) ∈ l := by
  rw [List.lookup_eq_some_iff]
  constructor
  · rintro ⟨before, after, rfl, -⟩
    exact List.mem_append_right _ List.mem_cons_self
  · intro hmem
    obtain ⟨before, after, rfl⟩ := List.append_of_mem hmem
    refine ⟨before, after, rfl, fun entry hentry ↦ ?_⟩
    rw [List.map_append, List.nodup_append] at hkeys
    have hne := hkeys.2.2 _ (List.mem_map_of_mem hentry) k (List.mem_map_of_mem List.mem_cons_self)
    exact bne_iff_ne.mpr fun h ↦ hne h.symm

variable {α : Type u} {κ : Type v} [DecidableEq κ]

/-- Replace the first entry with the key, or append. -/
def upsert (key : α → κ) (next : α) : List α → List α
  | [] => [next]
  | entry :: rest => if key entry = key next then next :: rest else entry :: upsert key next rest

/-- The entry that counts for a key. -/
def entryOf (key : α → κ) (k : κ) (entries : List α) : Option α :=
  entries.find? fun entry ↦ key entry = k

/-- What a writer of the keys in `written` keeps of the entries it read. -/
structure Carried (key : α → κ) (R : α → α → Prop) (old : List α) (written : List κ)
    (new : List α) : Prop where
  unique : (old.map key).Nodup → (new.map key).Nodup
  kept : (new.filter fun entry ↦ key entry ∉ written) = old.filter fun entry ↦ key entry ∉ written
  related : ∀ k o n, entryOf key k old = some o → entryOf key k new = some n → R o n

variable {key : α → κ} {R : α → α → Prop} {next : α} {old new entries : List α} {k : κ}
  {written : List κ}

/-- The keys after an upsert: the old ones, and the new one behind them if it was not there. -/
theorem map_upsert : (upsert key next entries).map key =
    if key next ∈ entries.map key then entries.map key else entries.map key ++ [key next] := by
  induction entries with
  | nil => simp [upsert]
  | cons entry rest ih =>
    rw [upsert]
    split
    · next h => simp [h]
    · next h =>
      rw [List.map_cons, ih]
      by_cases hm : key next ∈ rest.map key
      · simp [hm]
      · simp [hm, Ne.symm h]

theorem nodup_map_upsert (h : (entries.map key).Nodup) :
    ((upsert key next entries).map key).Nodup := by
  rw [map_upsert]
  split
  · exact h
  · next hnew =>
    rw [List.nodup_append]
    refine ⟨h, List.nodup_singleton _, ?_⟩
    rintro a ha b hb rfl
    exact hnew (List.mem_singleton.mp hb ▸ ha)

/-- The upserted entry is the one of its key. -/
theorem entryOf_upsert_self : entryOf key (key next) (upsert key next entries) = some next := by
  induction entries with
  | nil => simp [upsert, entryOf]
  | cons entry rest ih =>
    rw [upsert]
    split
    · simp [entryOf]
    · next h =>
      rw [entryOf, List.find?_cons_of_neg (by simpa using h)]
      exact ih

/-- The other keys keep theirs. -/
theorem entryOf_upsert_of_ne (h : key next ≠ k) :
    entryOf key k (upsert key next entries) = entryOf key k entries := by
  unfold entryOf
  induction entries with
  | nil => simp [upsert, h]
  | cons entry rest ih =>
    rw [upsert]
    split
    · next he => rw [List.find?_cons_of_neg (by simpa using h),
        List.find?_cons_of_neg (by simpa [he] using h)]
    · rw [List.find?_cons, List.find?_cons, ih]

/-- An upsert trades the entry of its key for the new one. -/
theorem countP_upsert (p : α → Bool) :
    (upsert key next entries).countP p + ((entryOf key (key next) entries).toList.countP p) =
      entries.countP p + if p next then 1 else 0 := by
  induction entries with
  | nil => simp [upsert, entryOf, List.countP_cons]
  | cons entry rest ih =>
    rw [upsert, entryOf]
    by_cases h : key entry = key next
    · rw [if_pos h, List.find?_cons_of_pos (by simpa using h)]
      rw [List.countP_cons, List.countP_cons, Option.toList_some, List.countP_singleton]
      omega
    · rw [if_neg h, List.find?_cons_of_neg (by simpa using h), List.countP_cons, List.countP_cons]
      rw [entryOf] at ih
      omega

/-- Removing a key takes its only entry out. -/
theorem countP_remove (p : α → Bool) (h : (entries.map key).Nodup) :
    (entries.filter fun entry ↦ key entry ≠ k).countP p +
      ((entryOf key k entries).toList.countP p) =
      entries.countP p := by
  induction entries with
  | nil => rfl
  | cons entry rest ih =>
    rw [List.map_cons, List.nodup_cons] at h
    by_cases hk : key entry = k
    · have hrest : (rest.filter fun entry ↦ key entry ≠ k) = rest := by
        rw [List.filter_eq_self]
        intro other hother
        rw [decide_eq_true_eq, ← hk]
        exact fun he ↦ h.1 (he ▸ List.mem_map_of_mem hother)
      rw [List.filter_cons_of_neg (by simpa using hk), hrest, entryOf,
        List.find?_cons_of_pos (by simpa using hk), List.countP_cons, Option.toList_some,
        List.countP_singleton]
    · rw [List.filter_cons_of_pos (by simpa using hk), entryOf,
        List.find?_cons_of_neg (by simpa using hk), List.countP_cons, List.countP_cons]
      have hih := ih h.2
      rw [entryOf] at hih
      omega

/-- A removed key has no entry. -/
theorem entryOf_remove_self : entryOf key k (entries.filter fun entry ↦ key entry ≠ k) = none := by
  rw [entryOf, List.find?_eq_none]
  intro entry hentry
  simpa using (List.mem_filter.mp hentry).2

/-- The other keys keep theirs. -/
theorem entryOf_remove_of_ne {k' : κ} (h : k' ≠ k) :
    entryOf key k' (entries.filter fun entry ↦ key entry ≠ k) = entryOf key k' entries := by
  rw [entryOf, entryOf, List.find?_filter]
  congr 1
  funext entry
  by_cases hk : key entry = k'
  · simp [hk, h]
  · simp [hk]

/-- With each key once, the entry of a key is the one in the list. -/
theorem entryOf_eq_some_iff (h : (entries.map key).Nodup) {entry : α} :
    entryOf key k entries = some entry ↔ entry ∈ entries ∧ key entry = k := by
  constructor
  · intro hfound
    exact ⟨List.mem_of_find?_eq_some hfound, by simpa using List.find?_some hfound⟩
  · rintro ⟨hmem, rfl⟩
    cases hfound : entryOf key (key entry) entries with
    | none =>
      rw [entryOf, List.find?_eq_none] at hfound
      exact absurd (decide_eq_true rfl) (hfound entry hmem)
    | some other =>
      have hkey : key other = key entry := by simpa using List.find?_some hfound
      rw [List.inj_on_of_nodup_map h (List.mem_of_find?_eq_some hfound) hmem hkey]

/-- Entries under keys other than the upserted one stay, in their order. -/
theorem filter_upsert {p : κ → Bool} (h : p (key next) = false) :
    ((upsert key next entries).filter fun entry ↦ p (key entry)) =
      entries.filter fun entry ↦ p (key entry) := by
  induction entries with
  | nil => simp [upsert, h]
  | cons entry rest ih =>
    rw [upsert]
    split
    · next he => rw [List.filter_cons_of_neg (by simp [h]),
        List.filter_cons_of_neg (by simp [he, h])]
    · rw [List.filter_cons, List.filter_cons, ih]

namespace Carried

/-- Writing nothing keeps everything. -/
theorem refl (hR : ∀ entry, R entry entry) (old : List α) : Carried key R old [] old := by
  refine ⟨id, rfl, ?_⟩
  intro k o n ho hn
  obtain rfl := Option.some.inj (ho.symm.trans hn)
  exact hR o

/-- One more upsert of an entry related to the one that was read. -/
theorem upsert (h : Carried key R old written new)
    (hnext : ∀ o, entryOf key (key next) old = some o → R o next) :
    Carried key R old (key next :: written) (Base.upsert key next new) where
  unique hu := nodup_map_upsert (h.unique hu)
  kept := by
    have hkept := congrArg (List.filter fun entry ↦ key entry ≠ key next) h.kept
    rw [List.filter_filter, List.filter_filter] at hkept
    have hp : ((Base.upsert key next new).filter fun entry ↦ key entry ∉ key next :: written) =
        new.filter fun entry ↦ key entry ∉ key next :: written :=
      filter_upsert (p := fun k ↦ k ∉ key next :: written) (by simp)
    rw [hp]
    simpa [not_or] using hkept
  related k o n ho hn := by
    by_cases hk : key next = k
    · subst hk
      rw [entryOf_upsert_self] at hn
      obtain rfl := Option.some.inj hn
      exact hnext o ho
    · rw [entryOf_upsert_of_ne hk] at hn
      exact h.related k o n ho hn

end Carried

end ReinhardtCloud.Base

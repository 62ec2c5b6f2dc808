import Mathlib.Data.List.Basic

/-!
# Strategic merge patches

Library `Base`. A document as its schema reads it: values, which include the lists that are
replaced as a whole, objects, and lists whose items are merged by a key. A patch is a document
without directives: what it leaves out stays. Merged lists keep the order of the patch and, among
the remaining items, of the document. Nothing here names a component.
-/

namespace ReinhardtCloud.Base

universe u

/-- A document. An item of a merged list stands beside its key; no two items have the same. -/
inductive Doc (V : Type u) where
  | value (v : V)
  | object (fields : List (String × Doc V))
  | items (entries : List (String × Doc V))

namespace Doc

variable {V : Type u}

/-- The keys of fields or items. -/
abbrev keys (entries : List (String × Doc V)) : List String := entries.map Prod.fst

/-- What a patch leaves out. -/
def unpatched (old entries : List (String × Doc V)) : List (String × Doc V) :=
  old.filter fun e ↦ e.1 ∉ keys entries

/-- An item left out comes before an item of the patch when the document has both in this order. -/
def comesFirst (old : List (String × Doc V)) (left right : String × Doc V) : Bool :=
  right.1 ∈ keys old && (keys old).idxOf left.1 < (keys old).idxOf right.1

mutual

/-- Merge a patch into a document. -/
def merge : Doc V → Doc V → Doc V
  | _, .value v => .value v
  | .object old, .object fields => .object (mergeEntries old fields ++ unpatched old fields)
  | .items old, .items entries =>
    .items ((unpatched old entries).merge (mergeEntries old entries) (comesFirst old))
  | _, .object fields => .object fields
  | _, .items entries => .items entries

/-- The patched fields or items. -/
def mergeEntries (old : List (String × Doc V)) : List (String × Doc V) → List (String × Doc V)
  | [] => []
  | (k, d) :: rest =>
    (k, match old.lookup k with
      | some c => c.merge d
      | none => d) :: mergeEntries old rest

end

mutual

/-- The patch sets everything that the document sets. -/
def covers : Doc V → Doc V → Bool
  | .object fields, .object old =>
    ((keys old).all fun k ↦ k ∈ keys fields) && coversEntries old fields
  | .items entries, .items old =>
    ((keys old).all fun k ↦ k ∈ keys entries) && coversEntries old entries
  | _, _ => true

def coversEntries (old : List (String × Doc V)) : List (String × Doc V) → Bool
  | [] => true
  | (k, d) :: rest =>
    (match old.lookup k with
      | some c => d.covers c
      | none => true) && coversEntries old rest

end

/-- What stands under a path of fields. -/
def find : List String → Doc V → Option (Doc V)
  | [], d => some d
  | k :: path, .object fields => (fields.lookup k).bind (find path)
  | _ :: _, _ => none

/-- Take a field away, by its path. -/
def erase : List String → String → Doc V → Doc V
  | [], k, .object fields => .object (fields.filter fun e ↦ e.1 ≠ k)
  | step :: path, k, .object fields =>
    .object (fields.map fun e ↦ (e.1, if e.1 = step then erase path k e.2 else e.2))
  | _, _, d => d

/-! ## What a patch restores -/

section Lemmas

variable {old fields entries : List (String × Doc V)} {cur d : Doc V} {k : String} {v : V}

/-- A field after the patch. -/
def patched (old : List (String × Doc V)) (e : String × Doc V) : String × Doc V :=
  (e.1, match old.lookup e.1 with
    | some c => c.merge e.2
    | none => e.2)

theorem mergeEntries_eq_map : mergeEntries old entries = entries.map (patched old) := by
  induction entries with
  | nil => rfl
  | cons e rest ih =>
    rw [List.map_cons, ← ih]
    rfl

theorem mem_unpatched {e : String × Doc V} :
    e ∈ unpatched old entries ↔ e ∈ old ∧ e.1 ∉ keys entries := by
  rw [unpatched, List.mem_filter, decide_eq_true_eq]

theorem unpatched_eq_nil :
    unpatched old entries = [] ↔ ((keys old).all fun k ↦ k ∈ keys entries) = true := by
  rw [List.eq_nil_iff_forall_not_mem, List.all_eq_true]
  constructor
  · intro h k hk
    obtain ⟨e, he, rfl⟩ := List.mem_map.mp hk
    rw [decide_eq_true_eq]
    by_contra hnot
    exact h e (mem_unpatched.mpr ⟨he, hnot⟩)
  · intro h e he
    obtain ⟨hold, hnot⟩ := mem_unpatched.mp he
    have hin := h e.1 (List.mem_map_of_mem hold)
    rw [decide_eq_true_eq] at hin
    exact hnot hin

theorem length_mergeEntries : (mergeEntries old entries).length = entries.length := by
  rw [mergeEntries_eq_map, List.length_map]

/-- Nothing is left of the document once the patched fields are all there is. -/
theorem append_unpatched_eq_iff : mergeEntries old fields ++ unpatched old fields = fields ↔
    unpatched old fields = [] ∧ mergeEntries old fields = fields := by
  constructor
  · intro h
    have hlength := congrArg List.length h
    rw [List.length_append, length_mergeEntries] at hlength
    have hnil : unpatched old fields = [] := List.eq_nil_of_length_eq_zero (by omega)
    rw [hnil, List.append_nil] at h
    exact ⟨hnil, h⟩
  · rintro ⟨hnil, h⟩
    rw [hnil, List.append_nil, h]

theorem merge_unpatched_eq_iff :
    (unpatched old entries).merge (mergeEntries old entries) (comesFirst old) = entries ↔
      unpatched old entries = [] ∧ mergeEntries old entries = entries := by
  constructor
  · intro h
    have hlength := congrArg List.length h
    rw [List.length_merge, length_mergeEntries] at hlength
    have hnil : unpatched old entries = [] := List.eq_nil_of_length_eq_zero (by omega)
    rw [hnil, List.nil_merge] at h
    exact ⟨hnil, h⟩
  · rintro ⟨hnil, h⟩
    rw [hnil, List.nil_merge, h]

mutual

/-- A patch brings back exactly itself when it sets everything that the document sets. -/
theorem merge_eq_iff : ∀ (cur d : Doc V), cur.merge d = d ↔ d.covers cur = true
  | .value _, .value _ | .object _, .value _ | .items _, .value _ => by simp only [merge, covers]
  | .value _, .object _ | .items _, .object _ => by simp only [merge, covers]
  | .value _, .items _ | .object _, .items _ => by simp only [merge, covers]
  | .object old, .object fields => by
    rw [merge, covers, Doc.object.injEq, append_unpatched_eq_iff, unpatched_eq_nil,
      mergeEntries_eq_iff old fields, Bool.and_eq_true]
  | .items old, .items entries => by
    rw [merge, covers, Doc.items.injEq, merge_unpatched_eq_iff, unpatched_eq_nil,
      mergeEntries_eq_iff old entries, Bool.and_eq_true]

theorem mergeEntries_eq_iff : ∀ old entries : List (String × Doc V),
    mergeEntries old entries = entries ↔ coversEntries old entries = true
  | _, [] => by simp only [mergeEntries, coversEntries]
  | old, (k, d) :: rest => by
    rw [mergeEntries, coversEntries, List.cons.injEq, mergeEntries_eq_iff old rest,
      Bool.and_eq_true, Prod.mk.injEq]
    cases old.lookup k with
    | none => simp only [true_and]
    | some c => simp only [merge_eq_iff c d, true_and]

end

theorem lookup_mergeEntries : (mergeEntries old entries).lookup k =
    (entries.lookup k).map fun d ↦ (patched old (k, d)).2 := by
  rw [mergeEntries_eq_map]
  induction entries with
  | nil => rfl
  | cons e rest ih =>
    obtain ⟨step, d⟩ := e
    rw [List.map_cons, List.lookup_cons, List.lookup_cons]
    by_cases hk : k = step
    · subst hk
      simp [patched]
    · rw [show (k == (patched old (step, d)).1) = false from beq_false_of_ne hk, beq_false_of_ne hk,
        ih]

/-- A value that the patch sets stands in the result. -/
theorem find_merge_value {path : List String} (h : d.find path = some (.value v)) :
    (cur.merge d).find path = some (.value v) := by
  induction path generalizing cur d with
  | nil =>
    obtain rfl : d = .value v := Option.some.inj h
    cases cur <;> rfl
  | cons step path ih =>
    cases d with
    | value w => cases h
    | items entries => cases h
    | object fields =>
      cases cur with
      | value w => exact h
      | items old => exact h
      | object old =>
        obtain ⟨d, hd, hpath⟩ := Option.bind_eq_some_iff.mp h
        rw [merge, find, List.lookup_append, lookup_mergeEntries, hd, Option.map_some,
          Option.some_or, Option.bind_some, patched]
        cases old.lookup step with
        | none => exact hpath
        | some c => exact ih hpath

theorem lookup_filter_of_ne {l : List (String × Doc V)} {step : String} (h : step ≠ k) :
    (l.filter fun e ↦ e.1 ≠ k).lookup step = l.lookup step := by
  induction l with
  | nil => rfl
  | cons e rest ih =>
    by_cases hk : e.1 = k
    · rw [List.filter_cons_of_neg (by simp [hk]), List.lookup_cons, hk, beq_false_of_ne h, ih]
    · rw [List.filter_cons_of_pos (by simp [hk]), List.lookup_cons, List.lookup_cons, ih]

theorem lookup_map_erase {l : List (String × Doc V)} {f : Doc V → Doc V} {step : String} :
    (l.map fun e ↦ (e.1, if e.1 = step then f e.2 else e.2)).lookup k =
      (l.lookup k).map fun d ↦ if k = step then f d else d := by
  induction l with
  | nil => rfl
  | cons e rest ih =>
    rw [List.map_cons, List.lookup_cons, List.lookup_cons, ih]
    by_cases hk : k = e.1
    · subst hk
      simp
    · rw [beq_false_of_ne hk]

/-- Taking a field away commutes with merging. -/
theorem merge_erase (path : List String) (k : String) (cur d : Doc V) :
    (cur.merge d).erase path k = (cur.erase path k).merge (d.erase path k) := by
  induction path generalizing cur d with
  | nil =>
    cases cur with
    | value w => cases d <;> rfl
    | items old => cases d <;> rfl
    | object old =>
      cases d with
      | value w => rfl
      | items entries => rfl
      | object fields =>
        rw [merge, erase, erase, erase, merge, Doc.object.injEq, List.filter_append]
        congr 1
        · rw [mergeEntries_eq_map, mergeEntries_eq_map, List.filter_map]
          apply List.map_congr_left
          intro e he
          have hne : e.1 ≠ k := of_decide_eq_true (List.mem_filter.mp he).2
          rw [patched, patched, lookup_filter_of_ne hne]
        · rw [unpatched, unpatched, List.filter_filter, List.filter_filter]
          apply List.filter_congr
          intro e _
          by_cases hk : e.1 = k
          · simp [hk]
          · simp [hk, keys]
  | cons step path ih =>
    cases cur with
    | value w => cases d <;> rfl
    | items old => cases d <;> rfl
    | object old =>
      cases d with
      | value w => rfl
      | items entries => rfl
      | object fields =>
        rw [merge, erase, erase, erase, merge, Doc.object.injEq, List.map_append]
        congr 1
        · rw [mergeEntries_eq_map, mergeEntries_eq_map, List.map_map, List.map_map]
          apply List.map_congr_left
          intro e _
          simp only [Function.comp_apply, patched, lookup_map_erase]
          by_cases hk : e.1 = step
          · cases old.lookup e.1 with
            | none => simp [hk]
            | some c => simp [hk, ih]
          · cases old.lookup e.1 <;> simp [hk]
        · rw [unpatched, unpatched, List.filter_map]
          congr 1
          apply List.filter_congr
          intro e _
          simp [keys, Function.comp_def]

end Lemmas

end Doc

end ReinhardtCloud.Base

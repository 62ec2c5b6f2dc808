import Mathlib.Data.List.Forall2
import Mathlib.Data.List.Basic

/-!
# Routing by path prefixes

Library `Base`. Tables of prefixes of which the longest that matches counts, and patterns whose
parameters stand for one element each, over any type of elements; and the elements of a path that
is split at slashes. Nothing here names a component.
-/

namespace ReinhardtCloud.Base

universe u v

/-! ## Tables -/

section Tables

variable {E : Type u} {B : Type v} {table : List (List E × B)} {request : List E}

/-- An entry that matches a request, and none that matches is longer. -/
def LongestMatch (table : List (List E × B)) (request : List E) (entry : List E × B) : Prop :=
  (entry ∈ table ∧ entry.1 <+: request) ∧
    ∀ other ∈ table, other.1 <+: request → other.1.length ≤ entry.1.length

/-- A request has a longest match, and every one has the backend. -/
def ForwardedTo (table : List (List E × B)) (request : List E) (backend : B) : Prop :=
  (∃ entry, LongestMatch table request entry) ∧
    ∀ entry, LongestMatch table request entry → entry.2 = backend

/-- No prefix is there with two backends. -/
def Unambiguous (table : List (List E × B)) : Prop :=
  ∀ entry ∈ table, ∀ other ∈ table, entry.1 = other.1 → entry.2 = other.2

/-- What matches at all has a longest match. -/
theorem exists_longestMatch {entry : List E × B} (hmem : entry ∈ table)
    (hmatch : entry.1 <+: request) : ∃ longest, LongestMatch table request longest := by
  -- the induction is on what the request is longer than the match
  induction hn : request.length - entry.1.length using Nat.strongRecOn
    generalizing entry with
  | _ n ih =>
    by_cases hlongest : ∀ other ∈ table, other.1 <+: request → other.1.length ≤ entry.1.length
    · exact ⟨entry, ⟨hmem, hmatch⟩, hlongest⟩
    · push Not at hlongest
      obtain ⟨other, hother, hbegins, hlonger⟩ := hlongest
      have hlength := hbegins.length_le
      exact ih _ (by omega) hother hbegins rfl

theorem forwardedTo_of_forall {entry : List E × B} {backend : B} (hmem : entry ∈ table)
    (hmatch : entry.1 <+: request)
    (hall : ∀ other ∈ table, other.1 <+: request → entry.1.length ≤ other.1.length →
      other.2 = backend) : ForwardedTo table request backend := by
  refine ⟨exists_longestMatch hmem hmatch, ?_⟩
  rintro longest ⟨⟨hlongest, hbegins⟩, hmax⟩
  exact hall longest hlongest hbegins (hmax entry hmem hmatch)

end Tables

/-! ## Patterns -/

section Patterns

variable {E : Type u} (isParameter : E → Bool)

/-- A request of a pattern: a parameter stands for any element, every other for itself. -/
def MatchesPattern (pattern request : List E) : Prop :=
  List.Forall₂ (fun segment element ↦ isParameter segment = true ∨ element = segment) pattern
    request

/-- What stands before the first parameter. -/
def fixedHead (pattern : List E) : List E := pattern.takeWhile fun segment ↦ !isParameter segment

/-- A request of the pattern may begin so. -/
def mayBegin [DecidableEq E] : List E → List E → Bool
  | [], _ => true
  | _ :: _, [] => false
  | element :: rest, segment :: pattern =>
    (isParameter segment || element = segment) && mayBegin rest pattern

/-- The request with one element for all parameters. -/
def fill (element : E) (pattern : List E) : List E :=
  pattern.map fun segment ↦ if isParameter segment then element else segment

variable {isParameter} {pattern request beginning : List E}

theorem matches_fill (element : E) (pattern : List E) :
    MatchesPattern isParameter pattern (fill isParameter element pattern) := by
  unfold MatchesPattern fill
  rw [List.forall₂_map_right_iff, List.forall₂_same]
  intro segment _
  by_cases h : isParameter segment = true
  · exact Or.inl h
  · right
    rw [if_neg h]

theorem fixedHead_begins (h : MatchesPattern isParameter pattern request) :
    fixedHead isParameter pattern <+: request := by
  unfold MatchesPattern at h
  unfold fixedHead
  induction h with
  | nil => exact List.prefix_rfl
  | @cons segment element pattern request hone _ ih =>
    cases hparameter : isParameter segment with
    | true =>
      rw [List.takeWhile_cons_of_neg (by simp [hparameter])]
      exact List.nil_prefix
    | false =>
      rw [List.takeWhile_cons_of_pos (by simp [hparameter])]
      rcases hone with hone | rfl
      · rw [hparameter] at hone
        cases hone
      · exact (List.prefix_cons_inj element).mpr ih

/-- Before an element that does not occur only the fixed head is left. -/
theorem begins_fixedHead {element : E}
    (hbegins : beginning <+: fill isParameter element pattern) (hfresh : element ∉ beginning) :
    beginning <+: fixedHead isParameter pattern := by
  unfold fixedHead
  unfold fill at hbegins
  induction pattern generalizing beginning with
  | nil => exact hbegins
  | cons segment pattern ih =>
    cases beginning with
    | nil => exact List.nil_prefix
    | cons first rest =>
      rw [List.map_cons, List.cons_prefix_cons] at hbegins
      obtain ⟨hfirst, hrest⟩ := hbegins
      cases hparameter : isParameter segment with
      | true =>
        rw [if_pos hparameter] at hfirst
        rw [hfirst] at hfresh
        exact absurd List.mem_cons_self hfresh
      | false =>
        rw [if_neg (by simp [hparameter])] at hfirst
        rw [List.takeWhile_cons_of_pos (by simp [hparameter]), hfirst, List.prefix_cons_inj]
        exact ih hrest fun h ↦ hfresh (List.mem_cons_of_mem _ h)

/-- The request that begins so and goes on as the pattern does. -/
theorem matches_of_mayBegin [DecidableEq E] (h : mayBegin isParameter beginning pattern = true) :
    MatchesPattern isParameter pattern (beginning ++ pattern.drop beginning.length) := by
  unfold MatchesPattern
  induction beginning generalizing pattern with
  | nil =>
    rw [List.nil_append, List.length_nil, List.drop_zero, List.forall₂_same]
    intro _ _
    exact Or.inr rfl
  | cons element rest ih =>
    cases pattern with
    | nil => cases h
    | cons segment pattern =>
      rw [mayBegin, Bool.and_eq_true, Bool.or_eq_true, decide_eq_true_eq] at h
      exact List.Forall₂.cons h.1 (ih h.2)

theorem mayBegin_of_matches [DecidableEq E] (hmatch : MatchesPattern isParameter pattern request)
    (hbegins : beginning <+: request) : mayBegin isParameter beginning pattern = true := by
  unfold MatchesPattern at hmatch
  induction hmatch generalizing beginning with
  | nil =>
    rw [List.prefix_nil] at hbegins
    rw [hbegins]
    rfl
  | @cons segment element pattern request hone _ ih =>
    cases beginning with
    | nil => rfl
    | cons first rest =>
      rw [List.cons_prefix_cons] at hbegins
      rw [mayBegin, Bool.and_eq_true, Bool.or_eq_true, decide_eq_true_eq, hbegins.1]
      exact ⟨hone, ih hbegins.2⟩

/-- A pattern is a request of its own. -/
theorem matches_self (pattern : List E) : MatchesPattern isParameter pattern pattern := by
  unfold MatchesPattern
  rw [List.forall₂_same]
  intro _ _
  exact Or.inr rfl

end Patterns

/-! ## Elements of a path -/

/-- The elements of a path, a slash at its end ignored. -/
def pathElements (path : List Char) : List (List Char) :=
  (if path.getLast? = some '/' then path.dropLast else path).splitOn '/'

theorem pathElements_concat (path : List Char) :
    pathElements (path ++ ['/']) = path.splitOn '/' := by
  rw [pathElements, List.getLast?_concat, if_pos rfl, List.dropLast_concat]

theorem not_mem_of_mem_splitOn {separator : Char} {path part : List Char}
    (h : part ∈ path.splitOn separator) : separator ∉ part := by
  induction path generalizing part with
  | nil =>
    rw [List.splitOn_nil, List.mem_singleton] at h
    rw [h]
    exact List.not_mem_nil
  | cons c rest ih =>
    obtain ⟨first, others, hrest⟩ := List.exists_cons_of_ne_nil (List.splitOn_ne_nil separator rest)
    rw [List.splitOn_cons_eq_if_modifyHead] at h
    by_cases hc : (c == separator) = true
    · rw [if_pos hc] at h
      rcases List.mem_cons.mp h with rfl | h
      · exact List.not_mem_nil
      · exact ih h
    · rw [if_neg hc, hrest, List.modifyHead_cons] at h
      rcases List.mem_cons.mp h with rfl | h
      · rw [List.mem_cons, not_or]
        refine ⟨?_, ih (hrest ▸ List.mem_cons_self)⟩
        rintro rfl
        exact hc (beq_self_eq_true _)
      · exact ih (hrest ▸ List.mem_cons_of_mem _ h)

theorem not_mem_of_mem_pathElements {path element : List Char} (h : element ∈ pathElements path) :
    '/' ∉ element :=
  not_mem_of_mem_splitOn h

theorem pathElements_ne_nil (path : List Char) : pathElements path ≠ [] :=
  List.splitOn_ne_nil '/' _

/-- Elements without slashes are those of a path. -/
theorem exists_pathElements {elements : List (List Char)} (hne : elements ≠ [])
    (hslash : ∀ element ∈ elements, '/' ∉ element) :
    ∃ path, pathElements path = elements := by
  refine ⟨['/'].intercalate elements ++ ['/'], ?_⟩
  rw [pathElements_concat]
  exact List.splitOn_intercalate '/' hslash hne

/-- There is always an element that has not been used. -/
theorem exists_fresh_element (used : List (List Char)) :
    ∃ element : List Char, '/' ∉ element ∧ element ∉ used := by
  refine ⟨List.replicate (used.flatten.length + 1) 'a', ?_, ?_⟩
  · intro h
    exact absurd (List.eq_of_mem_replicate h) (by decide)
  · intro h
    have hlength := (List.sublist_flatten_of_mem h).length_le
    rw [List.length_replicate] at hlength
    omega

end ReinhardtCloud.Base

import Mathlib.Data.List.Basic

/-!
# Paths

Library `Base`. `Path` of the standard library on Unix: the components of a path, and when one path
contains another. What stands behind the last slash is one component at most. Nothing here names a
component of the repository.
-/

namespace ReinhardtCloud.Base

/-- The components that a relative path adds: neither empty nor `.`. -/
def pathNames (path : List Char) : List (List Char) :=
  (path.splitOn '/').filter fun part ↦ part ≠ [] && part ≠ ['.']

/-- `Path::components`, each by its text: the root is `/`, and a `.` counts only at the start. -/
def pathComponents (path : List Char) : List (List Char) :=
  match path.splitOn '/' with
  | [] => []
  | [first] => if first = [] then [] else [first]
  | first :: rest =>
    (if first = [] then ['/'] else first) :: rest.filter fun part ↦ part ≠ [] && part ≠ ['.']

/-- `path.starts_with(base)`: `base` is `path` or a directory above it. -/
def pathStartsWith (path base : List Char) : Bool :=
  (pathComponents base).isPrefixOf (pathComponents path)

theorem pathStartsWith_iff {path base : List Char} :
    pathStartsWith path base = true ↔ pathComponents base <+: pathComponents path :=
  List.isPrefixOf_iff_prefix

variable {path rest ending : List Char}

/-- An absolute path. -/
theorem pathComponents_root (rest : List Char) :
    pathComponents ('/' :: rest) = ['/'] :: pathNames rest := by
  have hsplit : ('/' :: rest).splitOn '/' = [] :: rest.splitOn '/' := by
    rw [List.splitOn_cons_eq_if_modifyHead, if_pos (beq_self_eq_true '/')]
  obtain ⟨first, others, hrest⟩ := List.exists_cons_of_ne_nil (List.splitOn_ne_nil '/' rest)
  rw [pathComponents, pathNames, hsplit, hrest]
  rfl

/-- A path inside another. -/
theorem pathComponents_append (hpath : path ≠ []) (rest : List Char) :
    pathComponents (path ++ '/' :: rest) = pathComponents path ++ pathNames rest := by
  have hsplit := List.splitOn_append_cons_self (a := '/') path rest
  obtain ⟨first, others, hothers⟩ := List.exists_cons_of_ne_nil (List.splitOn_ne_nil '/' path)
  obtain ⟨name, names, hnames⟩ := List.exists_cons_of_ne_nil (List.splitOn_ne_nil '/' rest)
  rw [pathComponents, hsplit, pathComponents, pathNames, hothers]
  cases others with
  | nil =>
    have hfirst : first ≠ [] := by
      rintro rfl
      have hjoin : ['/'].intercalate (path.splitOn '/') = path := List.intercalate_splitOn '/'
      rw [hothers] at hjoin
      exact hpath hjoin.symm
    rw [hnames, List.cons_append, List.nil_append]
    simp only [hfirst, ↓reduceIte, List.singleton_append]
  | cons second others =>
    rw [List.cons_append, List.cons_append]
    exact congrArg (List.cons _) (List.filter_append (second :: others) _)

theorem pathNames_of_not_mem (h : '/' ∉ rest) : (pathNames rest).length ≤ 1 := by
  rw [pathNames, List.splitOn_eq_singleton h]
  exact List.length_filter_le _ _

/-- Of a path with something behind it that has no slash, only the last component is new. -/
theorem dropLast_pathComponents_append (h : '/' ∉ ending) :
    (pathComponents (path ++ ending)).dropLast <+: pathComponents path := by
  by_cases hslash : '/' ∈ path
  · obtain ⟨back, front, hreverse, hback⟩ :=
      List.eq_append_cons_of_mem (List.mem_reverse.mpr hslash)
    have hpath : path = front.reverse ++ '/' :: back.reverse := by
      rw [← List.reverse_inj, hreverse, List.reverse_append, List.reverse_cons]
      simp
    have hlast : '/' ∉ back.reverse ++ ending := by
      rw [List.mem_append, List.mem_reverse]
      rintro (hmem | hmem)
      · exact hback hmem
      · exact h hmem
    -- The components up to the last slash do not depend on what comes behind it.
    obtain ⟨before, hbefore⟩ : ∃ before, ∀ rest,
        pathComponents (front.reverse ++ '/' :: rest) = before ++ pathNames rest := by
      by_cases hfront : front.reverse = []
      · rw [hfront]
        exact ⟨[['/']], pathComponents_root⟩
      · exact ⟨_, pathComponents_append hfront⟩
    rw [hpath, List.append_assoc, List.cons_append, hbefore, hbefore]
    have hlength := pathNames_of_not_mem hlast
    cases hnames : pathNames (back.reverse ++ ending) with
    | nil =>
      rw [List.append_nil]
      exact (List.dropLast_prefix before).trans (List.prefix_append before _)
    | cons name names =>
      have hnil : names = [] := by
        rw [hnames, List.length_cons] at hlength
        exact List.eq_nil_of_length_eq_zero (by omega)
      rw [hnil, List.dropLast_concat]
      exact List.prefix_append before _
  · have hall : '/' ∉ path ++ ending := by
      rw [List.mem_append]
      rintro (hmem | hmem)
      · exact hslash hmem
      · exact h hmem
    have hnil : (pathComponents (path ++ ending)).dropLast = [] := by
      rw [pathComponents, List.splitOn_eq_singleton hall]
      dsimp only
      split
      · rfl
      · rfl
    rw [hnil]
    exact List.nil_prefix

/-- A path that contains one with an ending contains it without, or is the same with it. -/
theorem prefix_pathComponents_append {base : List Char} (h : '/' ∉ ending)
    (hbase : pathComponents base <+: pathComponents (path ++ ending)) :
    pathComponents base <+: pathComponents path ∨
      pathComponents base = pathComponents (path ++ ending) := by
  have hdrop := @dropLast_pathComponents_append path ending h
  rcases List.eq_nil_or_concat (pathComponents (path ++ ending)) with hnil | ⟨front, last, hlast⟩
  · rw [hnil] at hbase ⊢
    exact .inr (List.prefix_nil.mp hbase)
  · rw [hlast] at hbase hdrop ⊢
    rw [List.concat_eq_append] at hbase hdrop ⊢
    rw [List.dropLast_concat] at hdrop
    rcases List.prefix_concat_iff.mp hbase with heq | hfront
    · exact .inr heq
    · exact .inl (hfront.trans hdrop)

end ReinhardtCloud.Base

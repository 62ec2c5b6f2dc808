import Mathlib.Data.List.Basic
import Mathlib.Data.List.DropRight

/-!
# Parts of a text

Library `Base`. The functions of the standard library that take a text apart: its start, an end
cut off, and the split at the last separator. Each is the inverse of putting the parts together.
Nothing here names a component.
-/

namespace ReinhardtCloud.Base

/-- `str::starts_with`. -/
def startsWith (s start : String) : Bool := start.toList.isPrefixOf s.toList

/-- `str::split_at` of a byte offset; it panics inside a character and behind the end. -/
def splitAtByte : Nat → List Char → Option (List Char × List Char)
  | 0, l => some ([], l)
  | _ + 1, [] => none
  | n + 1, c :: rest =>
    if c.utf8Size ≤ n + 1 then
      (splitAtByte (n + 1 - c.utf8Size) rest).map fun parts ↦ (c :: parts.1, parts.2)
    else none

/-- `&s[..n]`. -/
def sliceTo (n : Nat) (s : String) : Option String :=
  (splitAtByte n s.toList).map fun parts ↦ String.ofList parts.1

/-- `str::replace` on the characters: those still to pass over belong to an occurrence that has been
replaced. -/
def replaceFrom (pattern value : List Char) : Nat → List Char → List Char
  | _, [] => []
  | skip + 1, _ :: rest => replaceFrom pattern value skip rest
  | 0, c :: rest =>
    if pattern.isPrefixOf (c :: rest) then
      value ++ replaceFrom pattern value (pattern.length - 1) rest
    else c :: replaceFrom pattern value 0 rest

/-- `str::replace` of a pattern that is not empty. -/
def replaceAll (pattern value s : String) : String :=
  String.ofList (replaceFrom pattern.toList value.toList 0 s.toList)

/-- `str::strip_suffix`. -/
def stripSuffix (suffix s : String) : Option String :=
  (suffix.toList.isSuffixOf? s.toList).map String.ofList

/-- `str::split_once` of a character. -/
def splitOnce (sep : Char) (s : String) : Option (String × String) :=
  match s.toList.dropWhile (· ≠ sep) with
  | [] => none
  | _ :: after => some (String.ofList (s.toList.takeWhile (· ≠ sep)), String.ofList after)

/-- `str::rsplit_once` of a character. -/
def rsplitOnce (sep : Char) (s : String) : Option (String × String) :=
  match s.toList.reverse.dropWhile (· ≠ sep) with
  | [] => none
  | _ :: before =>
    some (String.ofList before.reverse,
      String.ofList (s.toList.reverse.takeWhile (· ≠ sep)).reverse)

theorem startsWith_iff {s start : String} :
    startsWith s start = true ↔ ∃ rest, s = start ++ rest := by
  rw [startsWith, List.isPrefixOf_iff_prefix]
  constructor
  · rintro ⟨rest, hrest⟩
    refine ⟨String.ofList rest, String.toList_inj.mp ?_⟩
    rw [String.toList_append, String.toList_ofList, hrest]
  · rintro ⟨rest, rfl⟩
    rw [String.toList_append]
    exact List.prefix_append _ _

/-- What is passed over ends at a separator. -/
private theorem eq_of_dropWhile_ne {sep c : Char} {l rest : List Char}
    (h : l.dropWhile (· ≠ sep) = c :: rest) : c = sep := by
  have hne : l.dropWhile (· ≠ sep) ≠ [] := by
    rw [h]
    exact List.cons_ne_nil _ _
  have hnot := List.head_dropWhile_not (p := (· ≠ sep)) (l := l) hne
  simp only [h, List.head_cons, decide_eq_false_iff_not, not_not] at hnot
  exact hnot

/-- A list without separators is passed over whole. -/
private theorem span_of_not_mem {sep : Char} {l rest : List Char} (h : sep ∉ l) :
    (l ++ sep :: rest).dropWhile (· ≠ sep) = sep :: rest ∧
      (l ++ sep :: rest).takeWhile (· ≠ sep) = l := by
  have hpos : ∀ c ∈ l, decide (c ≠ sep) = true := by
    intro c hc
    rw [decide_eq_true_eq]
    rintro rfl
    exact h hc
  constructor
  · rw [List.dropWhile_append_of_pos hpos, List.dropWhile_cons_of_neg (by simp)]
  · rw [List.takeWhile_append_of_pos hpos, List.takeWhile_cons_of_neg (by simp), List.append_nil]

/-- The first separator is the one with none before it. -/
theorem splitOnce_eq_some_iff {sep : Char} {s before after : String} :
    splitOnce sep s = some (before, after) ↔
      s = before ++ (String.singleton sep ++ after) ∧ sep ∉ before.toList := by
  rw [splitOnce]
  constructor
  · intro h
    have hsplit := List.takeWhile_append_dropWhile (p := (· ≠ sep)) (l := s.toList)
    split at h
    · cases h
    · next c rest hrest =>
      cases h
      rw [hrest, eq_of_dropWhile_ne hrest] at hsplit
      constructor
      · apply String.toList_inj.mp
        rw [String.toList_append, String.toList_append, String.toList_ofList, String.toList_ofList,
          String.toList_singleton, List.singleton_append]
        exact hsplit.symm
      · rw [String.toList_ofList]
        intro hmem
        have hne := List.mem_takeWhile_imp hmem
        rw [decide_eq_true_eq] at hne
        exact hne rfl
  · rintro ⟨rfl, hbefore⟩
    obtain ⟨hdrop, htake⟩ := @span_of_not_mem sep before.toList after.toList hbefore
    have hlist : (before ++ (String.singleton sep ++ after)).toList =
        before.toList ++ sep :: after.toList := by
      rw [String.toList_append, String.toList_append, String.toList_singleton,
        List.singleton_append]
    rw [hlist, hdrop, htake]
    simp only [String.ofList_toList]

/-- What is left is what the suffix was put behind. -/
theorem stripSuffix_eq_some_iff {suffix s rest : String} :
    stripSuffix suffix s = some rest ↔ s = rest ++ suffix := by
  unfold stripSuffix
  rw [Option.map_eq_some_iff]
  constructor
  · rintro ⟨l, hl, rfl⟩
    rw [List.isSuffixOf?_eq_some_iff_append_eq] at hl
    apply String.toList_inj.mp
    rw [String.toList_append, String.toList_ofList, hl]
  · rintro rfl
    refine ⟨rest.toList, ?_, String.ofList_toList⟩
    rw [List.isSuffixOf?_eq_some_iff_append_eq, String.toList_append]

/-- A separator with none behind it is the last one. -/
theorem rsplitOnce_append {sep : Char} {before after : String} (h : sep ∉ after.toList) :
    rsplitOnce sep (before ++ (String.singleton sep ++ after)) = some (before, after) := by
  have hafter : sep ∉ after.toList.reverse := by
    rw [List.mem_reverse]
    exact h
  obtain ⟨hdrop, htake⟩ := @span_of_not_mem sep _ before.toList.reverse hafter
  have hreverse : (before ++ (String.singleton sep ++ after)).toList.reverse =
      after.toList.reverse ++ sep :: before.toList.reverse := by
    simp
  rw [rsplitOnce, hreverse, hdrop, htake]
  simp only [List.reverse_reverse, String.ofList_toList]

/-- The parts with the separator between them are the text. -/
theorem eq_of_rsplitOnce {sep : Char} {s before after : String}
    (h : rsplitOnce sep s = some (before, after)) :
    s = before ++ (String.singleton sep ++ after) := by
  have hsplit := List.takeWhile_append_dropWhile (p := (· ≠ sep)) (l := s.toList.reverse)
  rw [rsplitOnce] at h
  split at h
  · cases h
  · next c rest hrest =>
    cases h
    rw [hrest, eq_of_dropWhile_ne hrest] at hsplit
    have hlist := congrArg List.reverse hsplit
    rw [List.reverse_append, List.reverse_cons, List.append_assoc, List.singleton_append,
      List.reverse_reverse] at hlist
    apply String.toList_inj.mp
    rw [String.toList_append, String.toList_append, String.toList_ofList, String.toList_ofList,
      String.toList_singleton, List.singleton_append]
    exact hlist.symm

theorem utf8ByteSize_ofList_cons (c : Char) (l : List Char) :
    (String.ofList (c :: l)).utf8ByteSize = c.utf8Size + (String.ofList l).utf8ByteSize := by
  rw [String.ofList_cons, String.utf8ByteSize_append, String.utf8ByteSize_singleton]

/-- A text of ASCII characters has one byte for each. -/
theorem utf8ByteSize_of_ascii {l : List Char} (h : ∀ c ∈ l, c.val.toNat ≤ 127) :
    (String.ofList l).utf8ByteSize = l.length := by
  induction l with
  | nil => rfl
  | cons c rest ih =>
    have hc : c.utf8Size = 1 := by
      rw [Char.utf8Size_eq_one_iff, UInt32.le_iff_toNat_le]
      exact h c List.mem_cons_self
    rw [utf8ByteSize_ofList_cons, hc, ih fun c hc ↦ h c (List.mem_cons_of_mem _ hc),
      List.length_cons, Nat.add_comm]

/-- A text is split behind any of its beginnings. -/
theorem splitAtByte_append (before after : List Char) :
    splitAtByte (String.ofList before).utf8ByteSize (before ++ after) = some (before, after) := by
  induction before with
  | nil =>
    show splitAtByte 0 after = some ([], after)
    rw [splitAtByte]
  | cons c rest ih =>
    have hc := Char.utf8Size_pos c
    obtain ⟨n, hn⟩ : ∃ n, c.utf8Size + (String.ofList rest).utf8ByteSize = n + 1 :=
      Nat.exists_eq_succ_of_ne_zero (by omega)
    have hrest : n + 1 - c.utf8Size = (String.ofList rest).utf8ByteSize := by omega
    rw [utf8ByteSize_ofList_cons, List.cons_append, hn, splitAtByte, if_pos (by omega), hrest, ih]
    rfl

/-- The parts are those of the text, and the first has the bytes asked for. -/
theorem splitAtByte_eq_some_iff {n : Nat} {l before after : List Char} :
    splitAtByte n l = some (before, after) ↔
      l = before ++ after ∧ (String.ofList before).utf8ByteSize = n := by
  constructor
  · intro h
    induction n, l using splitAtByte.induct generalizing before with
    | case1 l =>
      rw [splitAtByte] at h
      cases h
      exact ⟨rfl, rfl⟩
    | case2 n => cases h
    | case3 n c rest hfits ih =>
      rw [splitAtByte, if_pos hfits, Option.map_eq_some_iff] at h
      obtain ⟨⟨before', after'⟩, hparts, heq⟩ := h
      cases heq
      obtain ⟨rfl, hsize⟩ := ih hparts
      refine ⟨rfl, ?_⟩
      rw [utf8ByteSize_ofList_cons, hsize]
      omega
    | case4 n c rest hfits =>
      rw [splitAtByte, if_neg hfits] at h
      cases h
  · rintro ⟨rfl, rfl⟩
    exact splitAtByte_append before after

/-- One byte before its end a text can be split exactly when its last character has one. -/
theorem splitAtByte_last (init : List Char) (c : Char) :
    splitAtByte ((String.ofList (init ++ [c])).utf8ByteSize - 1) (init ++ [c]) =
      if c.utf8Size = 1 then some (init, [c]) else none := by
  have hc := Char.utf8Size_pos c
  have hsize : (String.ofList (init ++ [c])).utf8ByteSize =
      (String.ofList init).utf8ByteSize + c.utf8Size := by
    rw [String.ofList_append, String.utf8ByteSize_append, utf8ByteSize_ofList_cons]
    rfl
  by_cases hone : c.utf8Size = 1
  · rw [if_pos hone, splitAtByte_eq_some_iff]
    exact ⟨rfl, by omega⟩
  · rw [if_neg hone]
    cases hsplit : splitAtByte ((String.ofList (init ++ [c])).utf8ByteSize - 1) (init ++ [c]) with
    | none => rfl
    | some parts =>
      obtain ⟨before, after⟩ := parts
      obtain ⟨hparts, hbytes⟩ := splitAtByte_eq_some_iff.mp hsplit
      rcases List.append_eq_append_iff.mp hparts with ⟨extra, hbefore, hextra⟩ | ⟨extra, hinit, -⟩
      · cases extra with
        | nil =>
          rw [hbefore, List.append_nil] at hbytes
          omega
        | cons d extra =>
          obtain ⟨rfl, hnil⟩ := List.cons.inj hextra
          obtain ⟨rfl, -⟩ := List.append_eq_nil_iff.mp hnil.symm
          rw [hbefore] at hbytes
          omega
      · have hshort := congrArg (fun l ↦ (String.ofList l).utf8ByteSize) hinit
        rw [String.ofList_append, String.utf8ByteSize_append] at hshort
        omega

/-- ASCII texts are split where they are cut. -/
theorem splitAtByte_of_ascii {n : Nat} {l : List Char} (h : ∀ c ∈ l, c.val.toNat ≤ 127)
    (hn : n ≤ l.length) : splitAtByte n l = some (l.take n, l.drop n) := by
  induction l generalizing n with
  | nil =>
    obtain rfl : n = 0 := Nat.le_zero.mp hn
    rfl
  | cons c rest ih =>
    cases n with
    | zero => rfl
    | succ n =>
      have hc : c.utf8Size = 1 := by
        rw [Char.utf8Size_eq_one_iff, UInt32.le_iff_toNat_le]
        exact h c List.mem_cons_self
      rw [List.length_cons] at hn
      rw [splitAtByte, hc, if_pos (by omega), Nat.add_sub_cancel,
        ih (fun c hc ↦ h c (List.mem_cons_of_mem _ hc)) (by omega), Option.map_some,
        List.take_succ_cons, List.drop_succ_cons]

theorem sliceTo_of_ascii {n : Nat} {s : String} (h : ∀ c ∈ s.toList, c.val.toNat ≤ 127)
    (hn : n ≤ s.toList.length) : sliceTo n s = some (String.ofList (s.toList.take n)) := by
  rw [sliceTo, splitAtByte_of_ascii h hn, Option.map_some]

/-- Every character has a byte. -/
theorem length_le_utf8ByteSize (l : List Char) : l.length ≤ (String.ofList l).utf8ByteSize := by
  induction l with
  | nil => exact Nat.zero_le _
  | cons c rest ih =>
    have hc := Char.utf8Size_pos c
    rw [String.ofList_cons, String.utf8ByteSize_append, String.utf8ByteSize_singleton,
      List.length_cons]
    omega

end ReinhardtCloud.Base

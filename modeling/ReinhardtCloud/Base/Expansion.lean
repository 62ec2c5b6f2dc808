import Mathlib.Data.List.Basic

/-!
# References in the value of an environment variable

Library `Base`. What Kubernetes takes for a reference in a value: a dollar sign and a name in
parentheses. A dollar sign before any other character takes that character with it, so `$$` is an
escape, and a parenthesis that is not closed begins no name. Nothing here names a component.
-/

namespace ReinhardtCloud.Base

/-- Where a scan stands: in plain text, behind a dollar sign, or in a name. -/
inductive Scan where
  | text
  | dollar
  | name (read : List Char)
  deriving DecidableEq

/-- The scan behind one more character. -/
def Scan.next : Scan → Char → Scan
  | .text, c => if c = '$' then .dollar else .text
  | .dollar, c => if c = '(' then .name [] else .text
  | .name read, c => if c = ')' then .text else .name (read ++ [c])

/-- The name that a character ends. -/
def Scan.found : Scan → Char → List String
  | .name read, c => if c = ')' then [String.ofList read] else []
  | _, _ => []

/-- The scan behind a text. -/
def Scan.run (scan : Scan) (l : List Char) : Scan := l.foldl Scan.next scan

/-- The names in the rest of a text. -/
def referencesFrom : Scan → List Char → List String
  | _, [] => []
  | scan, c :: rest => scan.found c ++ referencesFrom (scan.next c) rest

/-- The names that a value refers to. -/
def references (value : String) : List String := referencesFrom .text value.toList

example : references "a$(B)c$$(D)$(E" = ["B"] := by decide +kernel

/-- What follows is scanned from where the scan of the first part stands. -/
theorem referencesFrom_append (scan : Scan) (l l' : List Char) :
    referencesFrom scan (l ++ l') = referencesFrom scan l ++ referencesFrom (scan.run l) l' := by
  induction l generalizing scan with
  | nil => rfl
  | cons c rest ih =>
    rw [List.cons_append, referencesFrom, referencesFrom, ih, List.append_assoc]
    rfl

theorem Scan.run_append (scan : Scan) (l l' : List Char) :
    scan.run (l ++ l') = (scan.run l).run l' := List.foldl_append

/-- Plain text stays plain without a dollar sign. -/
theorem scan_of_no_dollar {l : List Char} (h : '$' ∉ l) :
    Scan.run .text l = .text ∧ referencesFrom .text l = [] := by
  induction l with
  | nil => exact ⟨rfl, rfl⟩
  | cons c rest ih =>
    rw [List.mem_cons, not_or] at h
    have hnext : Scan.next .text c = .text := if_neg fun hc ↦ h.1 hc.symm
    obtain ⟨hrun, hrefs⟩ := ih h.2
    constructor
    · rw [Scan.run, List.foldl_cons, hnext]
      exact hrun
    · rw [referencesFrom, hnext, hrefs]
      rfl

/-- A closing parenthesis leads back to plain text, whatever stood before it. -/
theorem Scan.next_close (scan : Scan) : scan.next ')' = .text := by
  cases scan <;> rfl

/-- A name in parentheses is found in plain text. -/
theorem references_name {l : List Char} (h : ')' ∉ l) :
    Scan.run .text ('$' :: '(' :: l ++ [')']) = .text ∧
      referencesFrom .text ('$' :: '(' :: l ++ [')']) = [String.ofList l] := by
  have hname : ∀ read, Scan.run (.name read) l = .name (read ++ l) ∧
      referencesFrom (.name read) l = [] := by
    induction l with
    | nil =>
      intro read
      rw [List.append_nil]
      exact ⟨rfl, rfl⟩
    | cons c rest ih =>
      intro read
      rw [List.mem_cons, not_or] at h
      have hc : c ≠ ')' := fun hc ↦ h.1 hc.symm
      have hnext : Scan.next (.name read) c = .name (read ++ [c]) := if_neg hc
      have hfound : Scan.found (.name read) c = [] := if_neg hc
      obtain ⟨hrun, hrefs⟩ := ih h.2 (read ++ [c])
      rw [Scan.run, List.foldl_cons, hnext, referencesFrom, hnext, hfound, hrefs]
      refine ⟨?_, rfl⟩
      rw [Scan.run] at hrun
      rw [hrun, List.append_assoc, List.singleton_append]
  obtain ⟨hrun, hrefs⟩ := hname []
  rw [List.cons_append, List.cons_append]
  constructor
  · rw [Scan.run, List.foldl_cons, List.foldl_cons, List.foldl_append]
    rw [Scan.run, List.nil_append] at hrun
    exact congrArg (fun scan ↦ Scan.next scan ')') hrun
  · have hopen : referencesFrom .text ('$' :: '(' :: (l ++ [')'])) =
        referencesFrom (.name []) (l ++ [')']) := rfl
    rw [hopen, referencesFrom_append, hrefs, hrun, List.nil_append]
    rfl

end ReinhardtCloud.Base

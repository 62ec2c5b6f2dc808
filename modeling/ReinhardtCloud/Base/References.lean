import Mathlib.Data.List.SplitBy
import ReinhardtCloud.Base.Characters

/-!
# Names of images and hosts

Library `Base`. The grammar of tagged image references: an optional domain, lower-case path
components, one tag and no digest; and the labels of host names. Nothing here names a component.
-/

namespace ReinhardtCloud.Base

/-! ## Tags -/

/-- A character of a tag. -/
def isTagChar (c : Char) : Bool := isWordChar c || c = '.' || c = '-'

/-- `[\w][\w.-]{0,127}`. -/
def isTag (tag : List Char) : Bool :=
  tag.head?.any isWordChar && tag.length ≤ 128 && tag.all isTagChar

/-! ## Repository names -/

/-- What may stand between two runs of letters and digits. -/
def isSeparator (run : List Char) : Bool :=
  run = ['.'] || run = ['_'] || run = ['_', '_'] || run.all (· = '-')

/-- A path component: runs of letters and digits with separators between them. -/
def isPathComponent (component : List Char) : Bool :=
  component.head?.any isLowerAlphanumeric && component.getLast?.any isLowerAlphanumeric &&
    (component.splitBy fun a b ↦ isLowerAlphanumeric a = isLowerAlphanumeric b).all fun run ↦
      run.all isLowerAlphanumeric || isSeparator run

/-- A label of a host name. -/
def isHostLabel (label : List Char) : Bool :=
  label.head?.any Char.isAlphanum && label.getLast?.any Char.isAlphanum &&
    label.all fun c ↦ c.isAlphanum || c = '-'

/-- A host name, or an IPv6 address in brackets. -/
def isHost (host : List Char) : Bool :=
  (host.splitOn '.').all isHostLabel ||
    (host.head? = some '[' && host.getLast? = some ']' && 3 ≤ host.length &&
      (host.tail.dropLast.all fun c ↦ c.isDigit || ('a' ≤ c.toLower && c.toLower ≤ 'f') || c = ':'))

/-- A host with an optional port. -/
def isDomain (domain : List Char) : Bool :=
  isHost domain ||
    match domain.reverse.dropWhile Char.isDigit with
    | ':' :: host => domain.getLast?.any Char.isDigit && isHost host.reverse
    | _ => false

/-- A repository name: path components, the first of several possibly a domain. -/
def isRepositoryName (name : List Char) : Bool :=
  match name.splitOn '/' with
  | [] => false
  | [component] => isPathComponent component
  | first :: path => (isDomain first || isPathComponent first) && path.all isPathComponent

/-! ## References -/

/-- A repository name and one tag. -/
def isTaggedReference (reference : List Char) : Bool :=
  match reference.reverse.dropWhile (· ≠ ':') with
  | ':' :: name =>
    isRepositoryName name.reverse && isTag (reference.reverse.takeWhile (· ≠ ':')).reverse
  | _ => false

theorem not_mem_of_isTag {tag : List Char} {c : Char} (h : isTag tag = true)
    (hc : isTagChar c = false) : c ∉ tag := by
  intro hmem
  rw [isTag, Bool.and_eq_true] at h
  rw [List.all_eq_true.mp h.2 c hmem] at hc
  cases hc

/-- Behind a name, a tag makes a reference exactly when the name is a repository name. -/
theorem isTaggedReference_append {name tag : List Char} (h : isTag tag = true) :
    isTaggedReference (name ++ ':' :: tag) = isRepositoryName name := by
  have hcolon : ∀ c ∈ tag.reverse, decide (c ≠ ':') = true := by
    intro c hc
    rw [decide_eq_true_eq]
    rintro rfl
    exact not_mem_of_isTag h (by decide) (List.mem_reverse.mp hc)
  have hreverse : (name ++ ':' :: tag).reverse = tag.reverse ++ ':' :: name.reverse := by
    rw [List.reverse_append, List.reverse_cons, List.append_assoc, List.singleton_append]
  have hdrop : (tag.reverse ++ ':' :: name.reverse).dropWhile (· ≠ ':') = ':' :: name.reverse := by
    rw [List.dropWhile_append_of_pos hcolon]
    rfl
  have htake : (tag.reverse ++ ':' :: name.reverse).takeWhile (· ≠ ':') = tag.reverse := by
    rw [List.takeWhile_append_of_pos hcolon]
    simp
  rw [isTaggedReference, hreverse, hdrop, htake]
  simp only [List.reverse_reverse, h, Bool.and_true]

end ReinhardtCloud.Base

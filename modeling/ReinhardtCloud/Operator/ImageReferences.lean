import Mathlib.Data.List.TakeWhile
import ReinhardtCloud.Operator.SourceBuild

/-!
# Image references

Library `Operator`. References made of a repository path, a tag and a digest, and what
`image_reference_without_tag` (`crates/reinhardt-cloud-operator/src/resources/source.rs:63–74`)
leaves of them.
-/

namespace ReinhardtCloud.Operator

open ReinhardtCloud.Base

/-! ## Positions -/

/-- `str::rfind` of a character, counted in characters. -/
def rfind (c : Char) (s : List Char) : Option Nat :=
  match s.reverse.dropWhile (· ≠ c) with
  | [] => none
  | _ :: before => some before.length

/-- Only what stands before characters that are not `c` counts. -/
theorem reverse_dropWhile_append {c : Char} {before after : List Char} (h : c ∉ after) :
    (before ++ after).reverse.dropWhile (· ≠ c) = before.reverse.dropWhile (· ≠ c) := by
  rw [List.reverse_append]
  apply List.dropWhile_append_of_pos
  intro d hd
  rw [decide_eq_true_eq]
  rintro rfl
  exact h (List.mem_reverse.mp hd)

theorem rfind_append {c : Char} {before after : List Char} (h : c ∉ after) :
    rfind c (before ++ c :: after) = some before.length := by
  have hsplit : before ++ c :: after = (before ++ [c]) ++ after := by
    rw [List.append_assoc, List.singleton_append]
  have hdrop : (before ++ [c]).reverse.dropWhile (· ≠ c) = c :: before.reverse := by
    rw [List.reverse_append, List.reverse_singleton, List.singleton_append]
    exact List.dropWhile_cons_of_neg (by simp)
  rw [rfind, hsplit, reverse_dropWhile_append h, hdrop]
  exact congrArg some List.length_reverse

theorem rfind_of_not_mem {c : Char} {s : List Char} (h : c ∉ s) : rfind c s = none := by
  have hs := @reverse_dropWhile_append c [] s h
  rw [List.nil_append] at hs
  rw [rfind, hs]
  rfl

theorem rfind_lt {c : Char} {before after : List Char} {n : Nat} (h : c ∉ after)
    (hn : rfind c (before ++ after) = some n) : n < before.length := by
  rw [rfind, reverse_dropWhile_append h] at hn
  have hlength := (List.dropWhile_suffix (l := before.reverse) (· ≠ c)).length_le
  split at hn
  · cases hn
  · next d rest hdrop =>
    rw [hdrop, List.length_cons, List.length_reverse] at hlength
    rw [← Option.some.inj hn]
    omega

/-- The body of `image_reference_without_tag`, by positions. -/
theorem imageReferenceWithoutTag_eq (image : String) :
    imageReferenceWithoutTag image =
      let imageWithoutDigest := image.toList.takeWhile (· ≠ '@')
      match rfind '/' imageWithoutDigest, rfind ':' imageWithoutDigest with
      | lastSlash, some colon =>
        if lastSlash.all (· < colon) then String.ofList (imageWithoutDigest.take colon)
        else String.ofList imageWithoutDigest
      | _, none => String.ofList imageWithoutDigest := by
  rw [imageReferenceWithoutTag]
  dsimp only
  generalize image.toList.takeWhile (· ≠ '@') = s
  have hsplit := (List.takeWhile_append_dropWhile (p := fun c ↦ c ≠ ':' && c ≠ '/')
    (l := s.reverse)).symm
  have hplain : ∀ c ∈ s.reverse.takeWhile fun c ↦ c ≠ ':' && c ≠ '/', c ≠ ':' ∧ c ≠ '/' := by
    intro c hc
    have hkept := List.mem_takeWhile_imp hc
    rwa [Bool.and_eq_true, decide_eq_true_eq, decide_eq_true_eq] at hkept
  have hreverse := congrArg List.reverse hsplit
  rw [List.reverse_reverse, List.reverse_append] at hreverse
  generalize (s.reverse.takeWhile fun c ↦ c ≠ ':' && c ≠ '/') = after at hplain hreverse
  have hcolon : ':' ∉ after.reverse := fun h ↦ (hplain _ (List.mem_reverse.mp h)).1 rfl
  have hslash : '/' ∉ after.reverse := fun h ↦ (hplain _ (List.mem_reverse.mp h)).2 rfl
  have hhead := List.head?_dropWhile_not (fun c ↦ c ≠ ':' && c ≠ '/') s.reverse
  cases hrest : s.reverse.dropWhile fun c ↦ c ≠ ':' && c ≠ '/' with
  | nil =>
    rw [hrest, List.reverse_nil, List.nil_append] at hreverse
    rw [hreverse, rfind_of_not_mem hcolon]
  | cons c before =>
    rw [hrest] at hreverse hhead
    rw [List.reverse_cons, List.append_assoc, List.singleton_append] at hreverse
    have hc : c = ':' ∨ c = '/' := by simpa [imp_iff_or_not, or_comm] using hhead
    rcases hc with rfl | rfl
    · rw [hreverse, rfind_append hcolon]
      dsimp only
      have hall : (rfind '/' (before.reverse ++ ':' :: after.reverse)).all
          (· < before.reverse.length) = true := by
        rw [Option.all_eq_true]
        intro n hn
        rw [decide_eq_true_eq]
        exact rfind_lt (fun h ↦ hslash ((List.mem_cons.mp h).resolve_left (by decide))) hn
      rw [if_pos hall, List.take_left]
      rfl
    · rw [hreverse, rfind_append hslash]
      cases hfound : rfind ':' (before.reverse ++ '/' :: after.reverse) with
      | none => rfl
      | some n =>
        have hlt : n < before.reverse.length :=
          rfind_lt (fun h ↦ hcolon ((List.mem_cons.mp h).resolve_left (by decide))) hfound
        dsimp only
        rw [if_neg]
        · rfl
        · rw [Option.all_some, decide_eq_true_eq]
          omega

/-! ## References -/

/-- A repository path: not empty, without a digest, and without a tag in its last component. -/
structure RepositoryPath where
  text : String
  nonempty : text ≠ ""
  noDigest : '@' ∉ text.toList
  noTag : ':' ∉ text.toList.reverse.takeWhile (· ≠ '/')

/-- The text of a tag. -/
structure ImageTag where
  text : String
  plain : '/' ∉ text.toList ∧ ':' ∉ text.toList ∧ '@' ∉ text.toList

/-- A repository path with an optional tag and an optional digest. -/
def imageReference (r : RepositoryPath) (tag : Option ImageTag) (digest : Option String) : String :=
  r.text ++ (tag.map fun t ↦ ":" ++ t.text).getD "" ++ (digest.map ("@" ++ ·)).getD ""

variable {r : RepositoryPath}

/-- Up to the digest. -/
theorem takeWhile_digest {s : List Char} (hs : '@' ∉ s) (digest : Option String) :
    (s ++ ((digest.map ("@" ++ ·)).getD "").toList).takeWhile (· ≠ '@') = s := by
  have hall : ∀ c ∈ s, decide (c ≠ '@') = true := by
    intro c hc
    rw [decide_eq_true_eq]
    rintro rfl
    exact hs hc
  rw [List.takeWhile_append_of_pos hall]
  cases digest with
  | none => exact List.append_nil s
  | some d =>
    rw [Option.map_some, Option.getD_some, String.toList_append]
    exact List.append_nil s

/-- The last component of a repository path has no colon. -/
theorem dropWhile_repository (r : RepositoryPath) :
    (r.text.toList.reverse.dropWhile fun c ↦ c ≠ ':' && c ≠ '/').head? ≠ some ':' := by
  have hnoTag := r.noTag
  generalize r.text.toList.reverse = s at hnoTag
  induction s with
  | nil => exact Option.some_ne_none _ ∘ Eq.symm
  | cons c rest ih =>
    by_cases hslash : c = '/'
    · rw [hslash, List.dropWhile_cons_of_neg (by decide)]
      exact (by decide : some '/' ≠ some ':')
    · rw [List.takeWhile_cons_of_pos (by simpa using hslash), List.mem_cons, not_or] at hnoTag
      rw [List.dropWhile_cons_of_pos]
      · exact ih hnoTag.2
      · simpa [hslash] using Ne.symm hnoTag.1

/-- The repository part of a reference is the repository path it is made with. -/
theorem imageReferenceWithoutTag_reference (r : RepositoryPath) (tag : Option ImageTag)
    (digest : Option String) : imageReferenceWithoutTag (imageReference r tag digest) = r.text := by
  cases tag with
  | none =>
    have hs : (imageReference r none digest).toList.takeWhile (· ≠ '@') = r.text.toList := by
      rw [imageReference, Option.map_none, Option.getD_none, String.append_empty,
        String.toList_append, takeWhile_digest r.noDigest]
    rw [imageReferenceWithoutTag, hs]
    have hhead := dropWhile_repository r
    split
    · next before hdrop =>
      rw [hdrop] at hhead
      exact absurd rfl hhead
    · exact String.ofList_toList
  | some t =>
    obtain ⟨hslash, hcolon, hat⟩ := t.plain
    have hs : (imageReference r (some t) digest).toList.takeWhile (· ≠ '@') =
        r.text.toList ++ ':' :: t.text.toList := by
      rw [imageReference, Option.map_some, Option.getD_some, String.toList_append,
        takeWhile_digest]
      · rw [String.toList_append, String.toList_append]
        rfl
      · rw [String.toList_append, String.toList_append, List.mem_append, List.mem_append]
        rintro (h | h | h)
        · exact r.noDigest h
        · exact absurd h (by decide)
        · exact hat h
    have hreverse : (r.text.toList ++ ':' :: t.text.toList).reverse =
        t.text.toList.reverse ++ ':' :: r.text.toList.reverse := by
      rw [List.reverse_append, List.reverse_cons, List.append_assoc, List.singleton_append]
    have hplain : ∀ c ∈ t.text.toList.reverse, (c ≠ ':' && c ≠ '/') = true := by
      intro c hc
      rw [Bool.and_eq_true, decide_eq_true_eq, decide_eq_true_eq]
      rw [List.mem_reverse] at hc
      exact ⟨fun h ↦ hcolon (h ▸ hc), fun h ↦ hslash (h ▸ hc)⟩
    have hdrop : (r.text.toList ++ ':' :: t.text.toList).reverse.dropWhile
        (fun c ↦ c ≠ ':' && c ≠ '/') = ':' :: r.text.toList.reverse := by
      rw [hreverse, List.dropWhile_append_of_pos hplain]
      rfl
    rw [imageReferenceWithoutTag, hs]
    rw [hdrop]
    exact (congrArg String.ofList (List.reverse_reverse _)).trans String.ofList_toList

/-- A repository of a registry with a port. -/
def localRepository : RepositoryPath :=
  ⟨"localhost:5000/shop", by decide, by decide, by decide⟩

theorem imageReferenceWithoutTag_localhost :
    imageReference localRepository (some ⟨"1.2", by decide⟩) (some "sha256:ab") =
        "localhost:5000/shop:1.2@sha256:ab" ∧
      imageReferenceWithoutTag "localhost:5000/shop:1.2@sha256:ab" = "localhost:5000/shop" := by
  have heq : imageReference localRepository (some ⟨"1.2", by decide⟩) (some "sha256:ab") =
      "localhost:5000/shop:1.2@sha256:ab" := by decide
  refine ⟨heq, ?_⟩
  rw [← heq]
  exact imageReferenceWithoutTag_reference localRepository _ _

end ReinhardtCloud.Operator

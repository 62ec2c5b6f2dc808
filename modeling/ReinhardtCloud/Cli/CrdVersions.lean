import Mathlib.Data.Prod.Lex
import Mathlib.Data.String.Basic
import ReinhardtCloud.Base.Numerals
import ReinhardtCloud.Base.Saturation

/-!
# Versions of the CRD

Library `Cli`. The choice among the served versions
(`crates/reinhardt-cloud-cli/src/crd_version.rs:80–165`) with its rank in 32 bits, and the
documented order of versions. Arithmetic that overflows panics, as in a build with overflow checks.
-/

namespace ReinhardtCloud.Cli

open ReinhardtCloud.Base

/-! ## The choice -/

/-- An entry of `spec.versions`. -/
structure CrdVersion where
  name : String
  served : Bool
  storage : Bool
  deriving DecidableEq

/-- `version_rank`, or its panic. -/
def versionRank (version : String) : Option Nat :=
  match ['v'].isPrefixOf? version.toList with
  | none => some 0
  | some rest =>
    match parseUnsigned 32 (rest.takeWhile Char.isDigit) with
    | none => some 0
    | some major =>
      let suffix := rest.dropWhile Char.isDigit
      if suffix.isEmpty then (checkedMul 32 major 1000).bind (checkedAdd 32 2000000)
      else
        match "beta".toList.isPrefixOf? suffix with
        | some minorStr =>
          ((checkedMul 32 major 1000).bind (checkedAdd 32 1000000)).bind fun rank ↦
            checkedAdd 32 rank ((parseUnsigned 32 minorStr).getD 0)
        | none =>
          match "alpha".toList.isPrefixOf? suffix with
          | some minorStr =>
            (checkedMul 32 major 1000).bind fun rank ↦
              checkedAdd 32 rank ((parseUnsigned 32 minorStr).getD 0)
          | none => some 0

/-- The names of the served versions. -/
def servedNames (versions : List CrdVersion) : List String :=
  (versions.filter CrdVersion.served).map CrdVersion.name

/-- `pick_best_version`, or its panic. Of the greatest keys the last counts; equal keys have equal
names. -/
def pickBestVersion (versions : List CrdVersion) : Option (Option String) :=
  if (servedNames versions).isEmpty then some none
  else
    match versions.find? fun v ↦ v.served && v.storage with
    | some storage => some (some storage.name)
    | none =>
      ((servedNames versions).mapM fun name ↦ (versionRank name).map fun rank ↦
        toLex (rank, name)).map fun keys ↦ keys.max?.map fun key ↦ (ofLex key).2

/-! ## The documented order -/

/-- A tier, stable over beta over alpha, and the numbers behind `v` and behind the tier. -/
structure VersionNumbers where
  tier : Nat
  major : Nat
  minor : Nat
  deriving DecidableEq

/-- Decimal digits of a number that fits in 32 bits. -/
def isNumber (digits : List Char) : Bool := isDecimal digits && decimalValue digits < 2 ^ 32

/-- The numbers of a recognised name: `vN`, `vNbetaM` or `vNalphaM`. -/
def documented (version : String) : Option VersionNumbers :=
  match version.toList with
  | 'v' :: rest =>
    let major := rest.takeWhile Char.isDigit
    if isNumber major then
      match rest.dropWhile Char.isDigit with
      | [] => some ⟨2, decimalValue major, 0⟩
      | 'b' :: 'e' :: 't' :: 'a' :: minor =>
        if isNumber minor then some ⟨1, decimalValue major, decimalValue minor⟩ else none
      | 'a' :: 'l' :: 'p' :: 'h' :: 'a' :: minor =>
        if isNumber minor then some ⟨0, decimalValue major, decimalValue minor⟩ else none
      | _ => none
    else none
  | _ => none

/-- The place of a name in the documented order: by tier, then the first and the second number;
what is not recognised comes last. -/
def documentedPlace (version : String) : ℕ ×ₗ ℕ ×ₗ ℕ :=
  match documented version with
  | none => toLex (0, toLex (0, 0))
  | some n => toLex (n.tier + 1, toLex (n.major, n.minor))

/-- No rank overflows, and the choice is a served version that none is above of. -/
def PicksBest (versions : List CrdVersion) : Prop :=
  (∀ name ∈ servedNames versions, versionRank name ≠ none) ∧
    ∃ best ∈ servedNames versions, pickBestVersion versions = some (some best) ∧
      ∀ name ∈ servedNames versions, documentedPlace name ≤ documentedPlace best

/-! ## What a name is read with -/

/-- The numbers that `version_rank` reads; a second one that it cannot read is zero. -/
def readNumbers (version : String) : Option VersionNumbers :=
  match ['v'].isPrefixOf? version.toList with
  | none => none
  | some rest =>
    (parseUnsigned 32 (rest.takeWhile Char.isDigit)).bind fun major ↦
      let suffix := rest.dropWhile Char.isDigit
      if suffix.isEmpty then some ⟨2, major, 0⟩
      else
        match "beta".toList.isPrefixOf? suffix with
        | some minorStr => some ⟨1, major, (parseUnsigned 32 minorStr).getD 0⟩
        | none =>
          match "alpha".toList.isPrefixOf? suffix with
          | some minorStr => some ⟨0, major, (parseUnsigned 32 minorStr).getD 0⟩
          | none => none

/-- The numbers in one, a million to a tier and a thousand to the first number. -/
def VersionNumbers.packed (n : VersionNumbers) : Nat :=
  n.tier * 1000000 + n.major * 1000 + n.minor

/-- What a name counts for among the others. -/
def weight (version : String) : Nat := (readNumbers version).elim 0 VersionNumbers.packed

/-- A number that 32 bits have. -/
def checked (n : Nat) : Option Nat := if n < 2 ^ 32 then some n else none

theorem checked_bind_add (a b : Nat) : (checked a).bind (checkedAdd 32 · b) = checked (a + b) := by
  rw [checked]
  by_cases h : a < 2 ^ 32
  · rw [if_pos h]
    rfl
  · rw [if_neg h, Option.bind_none, checked, if_neg]
    omega

theorem checkedMul_bind_add (a b c : Nat) :
    (checkedMul 32 a b).bind (checkedAdd 32 c) = checked (c + a * b) := by
  rw [checkedMul]
  by_cases h : a * b < 2 ^ 32
  · rw [if_pos h]
    rfl
  · rw [if_neg h, Option.bind_none, checked, if_neg]
    omega

/-- The rank is what the name counts for, unless that is too large. -/
theorem versionRank_eq (version : String) : versionRank version = checked (weight version) := by
  rw [versionRank, weight, readNumbers]
  cases ['v'].isPrefixOf? version.toList with
  | none => rfl
  | some rest =>
    dsimp only
    cases parseUnsigned 32 (rest.takeWhile Char.isDigit) with
    | none => rfl
    | some major =>
      rw [Option.bind_some]
      dsimp only
      by_cases hsuffix : (rest.dropWhile Char.isDigit).isEmpty = true
      · rw [if_pos hsuffix, if_pos hsuffix, checkedMul_bind_add]
        apply congrArg checked
        dsimp only [Option.elim_some, VersionNumbers.packed]
        omega
      · rw [if_neg hsuffix, if_neg hsuffix]
        cases "beta".toList.isPrefixOf? (rest.dropWhile Char.isDigit) with
        | some minorStr =>
          dsimp only [Option.elim_some, VersionNumbers.packed]
          rw [checkedMul_bind_add, checked_bind_add, Nat.one_mul]
        | none =>
          cases "alpha".toList.isPrefixOf? (rest.dropWhile Char.isDigit) with
          | some minorStr =>
            dsimp only [Option.elim_some, VersionNumbers.packed]
            rw [Nat.zero_mul, Nat.zero_add]
            exact checked_bind_add _ _
          | none => rfl

theorem checked_eq_some_iff {n m : Nat} : checked n = some m ↔ n < 2 ^ 32 ∧ n = m := by
  rw [checked]
  split
  · next h => exact ⟨fun he ↦ ⟨h, Option.some.inj he⟩, fun he ↦ congrArg some he.2⟩
  · next h => exact ⟨fun he ↦ (by cases he), fun he ↦ absurd he.1 h⟩

theorem versionRank_ne_none_iff (version : String) :
    versionRank version ≠ none ↔ weight version < 2 ^ 32 := by
  rw [versionRank_eq, Option.ne_none_iff_exists']
  constructor
  · rintro ⟨m, hm⟩
    exact (checked_eq_some_iff.mp hm).1
  · intro h
    exact ⟨_, checked_eq_some_iff.mpr ⟨h, rfl⟩⟩

/-! ## The choice by keys -/

/-- What the names are compared by. -/
def versionKey (name : String) : ℕ ×ₗ String := toLex (weight name, name)

theorem mapM_keys {names : List String} (hfits : ∀ name ∈ names, weight name < 2 ^ 32) :
    (names.mapM fun name ↦ (versionRank name).map fun rank ↦ toLex (rank, name)) =
      some (names.map versionKey) := by
  induction names with
  | nil => rfl
  | cons name rest ih =>
    obtain ⟨hname, hrest⟩ := List.forall_mem_cons.mp hfits
    have hrank : versionRank name = some (weight name) := by
      rw [versionRank_eq, checked_eq_some_iff]
      exact ⟨hname, rfl⟩
    rw [List.mapM_cons, hrank, ih hrest]
    rfl

theorem pickBestVersion_eq {versions : List CrdVersion} {best : String}
    (hstorage : ∀ v ∈ versions, v.served = true → v.storage = false)
    (hfits : ∀ name ∈ servedNames versions, weight name < 2 ^ 32) :
    pickBestVersion versions = some (some best) ↔
      best ∈ servedNames versions ∧
        ∀ name ∈ servedNames versions, versionKey name ≤ versionKey best := by
  have hfind : (versions.find? fun v ↦ v.served && v.storage) = none := by
    rw [List.find?_eq_none]
    intro v hv hboth
    rw [Bool.and_eq_true] at hboth
    rw [hstorage v hv hboth.1] at hboth
    exact Bool.false_ne_true hboth.2
  rw [pickBestVersion, hfind]
  by_cases hempty : (servedNames versions).isEmpty = true
  · rw [if_pos hempty]
    rw [List.isEmpty_iff] at hempty
    rw [hempty]
    exact iff_of_false (fun h ↦ by cases h) fun h ↦ List.not_mem_nil h.1
  · rw [if_neg hempty]
    dsimp only
    rw [mapM_keys hfits, Option.map_some, Option.some.injEq, Option.map_eq_some_iff]
    constructor
    · rintro ⟨key, hkey, rfl⟩
      rw [List.max?_eq_some_iff] at hkey
      obtain ⟨hmem, hmax⟩ := hkey
      obtain ⟨name, hname, rfl⟩ := List.mem_map.mp hmem
      exact ⟨hname, fun other hother ↦ hmax _ (List.mem_map_of_mem hother)⟩
    · rintro ⟨hmem, hmax⟩
      refine ⟨versionKey best, ?_, rfl⟩
      rw [List.max?_eq_some_iff]
      exact ⟨List.mem_map_of_mem hmem, List.forall_mem_map.mpr hmax⟩

/-! ## When the choice is the documented one -/

/-- Every name counts for a number of 32 bits, and some name that none is above of in the documented
order counts for more than all names below it: a name below it that counts for as much comes before
it in the alphabet. -/
structure CountedApart (served : List String) : Prop where
  fits : ∀ name ∈ served, weight name < 2 ^ 32
  apart : ∃ best ∈ served, (∀ name ∈ served, documentedPlace name ≤ documentedPlace best) ∧
    ∀ name ∈ served, documentedPlace name < documentedPlace best →
      weight name < weight best ∨ weight name = weight best ∧ name < best

theorem versionKey_lt_iff {name other : String} :
    versionKey name < versionKey other ↔
      weight name < weight other ∨ weight name = weight other ∧ name < other :=
  Prod.Lex.toLex_lt_toLex

/-- Without a storage version the choice is the best served version, by a rank that does not
overflow, exactly when the served versions count apart. -/
theorem picksBest_iff {versions : List CrdVersion}
    (hstorage : ∀ v ∈ versions, v.served = true → v.storage = false) :
    PicksBest versions ↔ CountedApart (servedNames versions) := by
  constructor
  · rintro ⟨hranks, best, hbest, hpick, hplaces⟩
    have hfits : ∀ name ∈ servedNames versions, weight name < 2 ^ 32 :=
      fun name hname ↦ (versionRank_ne_none_iff name).mp (hranks name hname)
    refine ⟨hfits, best, hbest, hplaces, ?_⟩
    intro name hname hlt
    rw [← versionKey_lt_iff]
    apply lt_of_le_of_ne (((pickBestVersion_eq hstorage hfits).mp hpick).2 name hname)
    intro hkey
    have hsame : name = best := congrArg (fun key ↦ (ofLex key).2) hkey
    rw [hsame] at hlt
    exact lt_irrefl _ hlt
  · rintro ⟨hfits, best, hbest, hplaces, hapart⟩
    refine ⟨fun name hname ↦ (versionRank_ne_none_iff name).mpr (hfits name hname), ?_⟩
    obtain ⟨chosen, hchosen, hmax⟩ : ∃ chosen ∈ servedNames versions,
        ∀ name ∈ servedNames versions, versionKey name ≤ versionKey chosen := by
      obtain ⟨key, hkey⟩ := Option.isSome_iff_exists.mp
        (List.isSome_max?_of_mem (List.mem_map_of_mem hbest : versionKey best ∈ _))
      obtain ⟨hmem, hmax⟩ := List.max?_eq_some_iff.mp hkey
      obtain ⟨name, hname, rfl⟩ := List.mem_map.mp hmem
      exact ⟨name, hname, fun other hother ↦ hmax _ (List.mem_map_of_mem hother)⟩
    refine ⟨chosen, hchosen, (pickBestVersion_eq hstorage hfits).mpr ⟨hchosen, hmax⟩, ?_⟩
    intro name hname
    apply (hplaces name hname).trans
    by_contra hlt
    rw [not_le] at hlt
    have hbelow := versionKey_lt_iff.mpr (hapart chosen hchosen hlt)
    exact absurd (hmax best hbest) (not_le.mpr hbelow)

/-- Of the usual versions the stable one is picked. -/
theorem picksBest_usual :
    PicksBest [⟨"v1alpha2", true, false⟩, ⟨"v1beta1", true, false⟩, ⟨"v2alpha1", true, false⟩,
      ⟨"v1", true, false⟩] := by
  apply (picksBest_iff (by decide)).mpr
  refine ⟨by decide, "v1", by decide, by decide, by decide⟩

/-- A beta version with a large second number comes before the next major version. -/
theorem not_picksBest :
    ¬ ∀ versions, (∃ v ∈ versions, CrdVersion.served v = true) →
      (∀ v ∈ versions, CrdVersion.served v = true → CrdVersion.storage v = false) →
        PicksBest versions := by
  intro h
  obtain ⟨-, best, -, hpick, hplaces⟩ :=
    h [⟨"v1beta2000", true, false⟩, ⟨"v2beta1", true, false⟩] (by decide) (by decide)
  have hpicked : pickBestVersion [⟨"v1beta2000", true, false⟩, ⟨"v2beta1", true, false⟩] =
      some (some "v1beta2000") := by decide
  rw [hpicked] at hpick
  obtain rfl := Option.some.inj (Option.some.inj hpick)
  exact absurd (hplaces "v2beta1" (by decide)) (by decide)

end ReinhardtCloud.Cli

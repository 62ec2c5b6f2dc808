import Mathlib.Data.List.DropRight

/-!
# Host names up to spelling

Library `Base`. DNS reads a host name without regard to ASCII case and to the dots that end it.
Two spellings are the same name when they agree after both are taken away. Nothing here names a
component.
-/

namespace ReinhardtCloud.Base

/-- `str::to_ascii_lowercase`. -/
def asciiLowercase (s : String) : String := String.ofList (s.toList.map Char.toLower)

/-- `str::trim_end_matches` of a character. -/
def trimEndMatches (c : Char) (s : String) : String := String.ofList (s.toList.rdropWhile (· = c))

/-- `str::eq_ignore_ascii_case`. -/
def eqIgnoreAsciiCase (a b : String) : Bool := asciiLowercase a = asciiLowercase b

/-- The DNS name that a host spells. -/
def dnsName (host : String) : String := asciiLowercase (trimEndMatches '.' host)

/-- Two hosts spell one DNS name. -/
def SameHost (a b : String) : Prop := dnsName a = dnsName b

instance (a b : String) : Decidable (SameHost a b) := inferInstanceAs (Decidable (_ = _))

theorem SameHost.refl (a : String) : SameHost a a := rfl

theorem SameHost.symm {a b : String} (h : SameHost a b) : SameHost b a := Eq.symm h

theorem SameHost.trans {a b c : String} (h : SameHost a b) (h' : SameHost b c) : SameHost a c :=
  Eq.trans h h'

/-- The code point of a lowercased character. -/
theorem toNat_toLower (c : Char) :
    c.toLower.toNat = if 65 ≤ c.toNat ∧ c.toNat ≤ 90 then c.toNat + 32 else c.toNat := by
  have hupper : (c.val ≥ 'A'.val ∧ c.val ≤ 'Z'.val) ↔ 65 ≤ c.toNat ∧ c.toNat ≤ 90 := Iff.rfl
  unfold Char.toLower
  by_cases h : 65 ≤ c.toNat ∧ c.toNat ≤ 90
  · rw [dif_pos (hupper.mpr h), if_pos h]
    show (c.val + 32).toNat = c.val.toNat + 32
    have hle : c.val.toNat ≤ 90 := h.2
    rw [UInt32.toNat_add]
    exact Nat.mod_eq_of_lt (by show c.val.toNat + 32 < 4294967296; omega)
  · rw [dif_neg fun hc ↦ h (hupper.mp hc), if_neg h]

/-- Only a dot becomes a dot. -/
theorem toLower_eq_dot {c : Char} : c.toLower = '.' ↔ c = '.' := by
  have hdot : ∀ d : Char, d = '.' ↔ d.toNat = 46 := fun d ↦
    ⟨fun h ↦ h ▸ rfl, fun h ↦ Char.toNat_inj.mp h⟩
  rw [hdot, hdot, toNat_toLower]
  split <;> omega

/-- The dots that end a list are the same before and after the map. -/
theorem rdropWhile_map {α β : Type} {f : α → β} {p : β → Bool} (l : List α) :
    (l.map f).rdropWhile p = (l.rdropWhile fun a ↦ p (f a)).map f := by
  rw [List.rdropWhile, List.rdropWhile, ← List.map_reverse, List.dropWhile_map, List.map_reverse]
  rfl

/-- Case and the dots at the end may be taken away in either order. -/
theorem dnsName_eq (host : String) : dnsName host = trimEndMatches '.' (asciiLowercase host) := by
  unfold dnsName trimEndMatches asciiLowercase
  rw [String.toList_ofList, String.toList_ofList, rdropWhile_map]
  congr 3
  funext c
  exact decide_eq_decide.mpr toLower_eq_dot.symm

/-- No dot ends a DNS name. -/
theorem trimEndMatches_dnsName (host : String) :
    trimEndMatches '.' (dnsName host) = dnsName host := by
  rw [dnsName_eq, trimEndMatches, trimEndMatches, String.toList_ofList, List.rdropWhile_idempotent]

/-- Spellings that differ in case only are one name. -/
theorem sameHost_of_eqIgnoreAsciiCase {a b : String} (h : eqIgnoreAsciiCase a b = true) :
    SameHost a b := by
  have hlower : asciiLowercase a = asciiLowercase b := of_decide_eq_true h
  rw [SameHost, dnsName_eq, dnsName_eq, hlower]

end ReinhardtCloud.Base

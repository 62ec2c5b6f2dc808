import Mathlib.Data.Nat.ModEq
import Mathlib.Data.List.Basic
import Mathlib.Logic.Function.Basic

/-!
# Injective byte encodings

Library `Base`. Fixed-width big-endian numbers, length-prefixed fields and lower-case
hexadecimal text, each with the law that distinct inputs have distinct encodings. Nothing
here names a component.
-/

namespace ReinhardtCloud.Base

/-- The low `w` bytes of a number, most significant first. -/
def beBytes : Nat → Nat → List UInt8
  | 0, _ => []
  | w + 1, n => UInt8.ofNat (n / 256 ^ w) :: beBytes w n

@[simp] theorem length_beBytes (w n : Nat) : (beBytes w n).length = w := by
  induction w with
  | zero => rfl
  | succ w ih => simp [beBytes, ih]

/-- Equal byte strings of one width encode numbers equal modulo that width. -/
theorem mod_eq_of_beBytes_eq {w n m : Nat} (h : beBytes w n = beBytes w m) :
    n % 256 ^ w = m % 256 ^ w := by
  induction w with
  | zero => simp [Nat.mod_one]
  | succ w ih =>
    obtain ⟨hd, ht⟩ := List.cons.inj h
    have hdigit : n / 256 ^ w % 256 = m / 256 ^ w % 256 := by
      simpa using congrArg UInt8.toNat hd
    rw [Nat.mod_pow_succ, Nat.mod_pow_succ, ih ht, hdigit]

/-- Numbers within the width are determined by their bytes. -/
theorem eq_of_beBytes_eq {w n m : Nat} (hn : n < 256 ^ w) (hm : m < 256 ^ w)
    (h : beBytes w n = beBytes w m) : n = m := by
  have hmod := mod_eq_of_beBytes_eq h
  rwa [Nat.mod_eq_of_lt hn, Nat.mod_eq_of_lt hm] at hmod

/-- A field behind its length in eight bytes. -/
def lengthPrefixed (bytes : List UInt8) : List UInt8 :=
  beBytes 8 bytes.length ++ bytes

/-- A length-prefixed field is determined together with whatever follows it. -/
theorem lengthPrefixed_append_inj {a b rest rest' : List UInt8} (ha : a.length < 2 ^ 64)
    (hb : b.length < 2 ^ 64) (h : lengthPrefixed a ++ rest = lengthPrefixed b ++ rest') :
    a = b ∧ rest = rest' := by
  simp only [lengthPrefixed, List.append_assoc] at h
  obtain ⟨hlen, htail⟩ := List.append_inj h (by simp)
  exact List.append_inj htail (eq_of_beBytes_eq ha hb hlen)

/-- The two lower-case hexadecimal digits of a byte. -/
def hexPair (byte : UInt8) : List Char :=
  [Nat.digitChar (byte.toNat / 16), Nat.digitChar (byte.toNat % 16)]

/-- Lower-case hexadecimal text of a byte string. -/
def hexEncode (bytes : List UInt8) : String := String.ofList (bytes.flatMap hexPair)

private theorem digitChar_inj {a b : Nat} (ha : a < 16) (hb : b < 16)
    (h : Nat.digitChar a = Nat.digitChar b) : a = b := by
  have hall : ∀ x < 16, ∀ y < 16, Nat.digitChar x = Nat.digitChar y → x = y := by decide
  exact hall a ha b hb h

private theorem hexPair_inj {a b : UInt8} (h : hexPair a = hexPair b) : a = b := by
  have ha := a.toNat_lt
  have hb := b.toNat_lt
  obtain ⟨hhigh, hlow⟩ := List.cons.inj h
  have hq := digitChar_inj (by omega) (by omega) hhigh
  have hr := digitChar_inj (by omega) (by omega) (List.cons.inj hlow).1
  exact UInt8.toNat.inj (by omega)

private theorem flatMap_hexPair_inj {a b : List UInt8}
    (h : a.flatMap hexPair = b.flatMap hexPair) : a = b := by
  induction a generalizing b with
  | nil =>
    cases b with
    | nil => rfl
    | cons y ys => simp [hexPair] at h
  | cons x xs ih =>
    cases b with
    | nil => simp [hexPair] at h
    | cons y ys =>
      simp only [List.flatMap_cons] at h
      obtain ⟨hhead, htail⟩ := List.append_inj h rfl
      rw [hexPair_inj hhead, ih htail]

/-- Hexadecimal text determines its bytes. -/
theorem hexEncode_injective : Function.Injective hexEncode := by
  intro a b h
  exact flatMap_hexPair_inj (String.ofList_injective h)

/-- A lower-case hexadecimal digit. -/
def isLowerHexDigit (c : Char) : Bool := c.isDigit || ('a' ≤ c && c ≤ 'f')

/-- Two digits for each byte. -/
theorem length_hexEncode (bytes : List UInt8) :
    (hexEncode bytes).toList.length = 2 * bytes.length := by
  rw [hexEncode, String.toList_ofList]
  induction bytes with
  | nil => rfl
  | cons byte rest ih =>
    rw [List.flatMap_cons, List.length_append, ih, List.length_cons]
    show 2 + 2 * rest.length = _
    omega

theorem isLowerHexDigit_of_mem_hexEncode {bytes : List UInt8} {c : Char}
    (h : c ∈ (hexEncode bytes).toList) : isLowerHexDigit c = true := by
  have hdigit : ∀ n < 16, isLowerHexDigit (Nat.digitChar n) = true := by decide
  rw [hexEncode, String.toList_ofList, List.mem_flatMap] at h
  obtain ⟨byte, -, hbyte⟩ := h
  have hlt := byte.toNat_lt
  rcases List.mem_cons.mp hbyte with rfl | hlow
  · exact hdigit _ (by omega)
  · rw [List.mem_singleton.mp hlow]
    exact hdigit _ (by omega)

theorem toNat_le_of_isLowerHexDigit {c : Char} (h : isLowerHexDigit c = true) :
    c.val.toNat ≤ 127 := by
  rw [isLowerHexDigit, Bool.or_eq_true, Bool.and_eq_true, decide_eq_true_eq,
    decide_eq_true_eq] at h
  rcases h with hdigit | ⟨-, hletter⟩
  · have hle : c.val.toNat ≤ 57 := (Char.isDigit_iff_toNat.mp hdigit).2
    omega
  · have hle : c.val.toNat ≤ 102 := hletter
    omega

end ReinhardtCloud.Base

import Mathlib.Algebra.Group.Int.Defs
import Mathlib.Algebra.Group.Nat.Defs
import Mathlib.Data.List.Basic
import Mathlib.Data.Int.Order.Basic

/-!
# Decimal numerals

Library `Base`. What `str::parse` reads for a signed integer type, against the numerals that stand
for its values. Nothing here names a component.
-/

namespace ReinhardtCloud.Base

/-- The value of decimal digits. -/
def decimalValue (digits : List Char) : Nat :=
  digits.foldl (fun n c ↦ 10 * n + (c.toNat - '0'.toNat)) 0

/-- At least one decimal digit. -/
def isDecimal (text : List Char) : Bool := !text.isEmpty && text.all Char.isDigit

/-- Digits with or without a sign, however many. -/
def readSigned : List Char → Option Int
  | '+' :: rest => if isDecimal rest then some (decimalValue rest : Int) else none
  | '-' :: rest => if isDecimal rest then some (-(decimalValue rest : Int)) else none
  | chars => if isDecimal chars then some (decimalValue chars : Int) else none

/-- `str::parse` for a signed integer type of the given width. -/
def parseSigned (bits : Nat) (text : List Char) : Option Int :=
  (readSigned text).filter fun n ↦ -(2 ^ (bits - 1)) ≤ n && n < 2 ^ (bits - 1)

/-- `str::parse` for an unsigned integer type of the given width. -/
def parseUnsigned (bits : Nat) (text : List Char) : Option Nat :=
  let digits := match text with
    | '+' :: rest => rest
    | chars => chars
  if isDecimal digits && decimalValue digits < 2 ^ bits then some (decimalValue digits) else none

/-- Decimal digits, with or without a sign, and the integer they stand for. -/
def IsNumeral (text : List Char) (n : Int) : Prop :=
  ∃ digits, isDecimal digits = true ∧
    ((text = digits ∨ text = '+' :: digits) ∧ n = decimalValue digits ∨
      text = '-' :: digits ∧ n = -(decimalValue digits : Int))

/-- The integers of a signed type. -/
def FitsSigned (bits : Nat) (n : Int) : Prop := -(2 ^ (bits - 1)) ≤ n ∧ n < 2 ^ (bits - 1)

/-- No sign is a digit. -/
theorem not_isDecimal_cons {c : Char} (h : c.isDigit = false) (rest : List Char) :
    isDecimal (c :: rest) = false := by
  rw [isDecimal, List.all_cons, h, Bool.false_and, Bool.and_false]

theorem isNumeral_plus {rest : List Char} {n : Int} :
    IsNumeral ('+' :: rest) n ↔ isDecimal rest = true ∧ n = decimalValue rest := by
  constructor
  · rintro ⟨digits, hdigits, ⟨(h | h), hn⟩ | ⟨h, hn⟩⟩
    · rw [← h, not_isDecimal_cons rfl] at hdigits
      cases hdigits
    · obtain ⟨-, rfl⟩ := List.cons.inj h
      exact ⟨hdigits, hn⟩
    · exact absurd (List.cons.inj h).1 (by decide)
  · rintro ⟨hdigits, hn⟩
    exact ⟨rest, hdigits, .inl ⟨.inr rfl, hn⟩⟩

theorem isNumeral_minus {rest : List Char} {n : Int} :
    IsNumeral ('-' :: rest) n ↔ isDecimal rest = true ∧ n = -(decimalValue rest : Int) := by
  constructor
  · rintro ⟨digits, hdigits, ⟨(h | h), hn⟩ | ⟨h, hn⟩⟩
    · rw [← h, not_isDecimal_cons rfl] at hdigits
      cases hdigits
    · exact absurd (List.cons.inj h).1 (by decide)
    · obtain ⟨-, rfl⟩ := List.cons.inj h
      exact ⟨hdigits, hn⟩
  · rintro ⟨hdigits, hn⟩
    exact ⟨rest, hdigits, .inr ⟨rfl, hn⟩⟩

theorem isNumeral_unsigned {text : List Char} {n : Int} (hplus : text.head? ≠ some '+')
    (hminus : text.head? ≠ some '-') :
    IsNumeral text n ↔ isDecimal text = true ∧ n = decimalValue text := by
  constructor
  · rintro ⟨digits, hdigits, ⟨(rfl | rfl), hn⟩ | ⟨rfl, hn⟩⟩
    · exact ⟨hdigits, hn⟩
    · exact absurd rfl hplus
    · exact absurd rfl hminus
  · rintro ⟨hdigits, hn⟩
    exact ⟨text, hdigits, .inl ⟨.inl rfl, hn⟩⟩

/-- Any numeral is read. -/
theorem readSigned_eq_some_iff {text : List Char} {n : Int} :
    readSigned text = some n ↔ IsNumeral text n := by
  unfold readSigned
  split
  · next rest =>
    rw [isNumeral_plus, Option.ite_none_right_eq_some, Option.some_inj, eq_comm (b := n)]
  · next rest =>
    rw [isNumeral_minus, Option.ite_none_right_eq_some, Option.some_inj, eq_comm (b := n)]
  · next hplus hminus =>
    have hp : text.head? ≠ some '+' := by
      intro h
      obtain ⟨rest, rfl⟩ := List.head?_eq_some_iff.mp h
      exact hplus rest rfl
    have hm : text.head? ≠ some '-' := by
      intro h
      obtain ⟨rest, rfl⟩ := List.head?_eq_some_iff.mp h
      exact hminus rest rfl
    rw [isNumeral_unsigned hp hm, Option.ite_none_right_eq_some, Option.some_inj, eq_comm (b := n)]

/-- What is read is the integer the numeral stands for, if the type has it. -/
theorem parseSigned_eq_some_iff {bits : Nat} {text : List Char} {n : Int} :
    parseSigned bits text = some n ↔ IsNumeral text n ∧ FitsSigned bits n := by
  rw [parseSigned, Option.filter_eq_some_iff, readSigned_eq_some_iff, Bool.and_eq_true,
    decide_eq_true_eq, decide_eq_true_eq]
  rfl

/-- The digits of a natural number stand for it. -/
theorem decimalValue_toString (n : Nat) :
    isDecimal (toString n).toList = true ∧ decimalValue (toString n).toList = n := by
  have hlist : (toString n).toList = Nat.toDigits 10 n := Nat.toList_repr
  rw [hlist]
  constructor
  · rw [isDecimal, Bool.and_eq_true, Bool.not_eq_true', List.isEmpty_eq_false_iff, List.all_eq_true]
    constructor
    · exact Nat.toDigits_ne_nil
    · intro c hc
      exact Nat.isDigit_of_mem_toDigits (by decide) (by decide) hc
  · exact Nat.ofDigitChars_ten_toDigits

/-- Every integer is written as a numeral that stands for it. -/
theorem isNumeral_toString (n : Int) : IsNumeral (toString n).toList n := by
  cases n with
  | ofNat m =>
    obtain ⟨hdecimal, hvalue⟩ := decimalValue_toString m
    refine ⟨(toString m).toList, hdecimal, .inl ⟨.inl rfl, ?_⟩⟩
    rw [hvalue]
    rfl
  | negSucc m =>
    obtain ⟨hdecimal, hvalue⟩ := decimalValue_toString (m + 1)
    refine ⟨(toString (m + 1)).toList, hdecimal, .inr ⟨?_, ?_⟩⟩
    · have htext : toString (Int.negSucc m) = "-" ++ toString (m + 1) := rfl
      rw [htext, String.toList_append]
      rfl
    · rw [hvalue]
      rfl

/-- An integer of the type is read back. -/
theorem parseSigned_toString {bits : Nat} {n : Int} (h : FitsSigned bits n) :
    parseSigned bits (toString n).toList = some n :=
  parseSigned_eq_some_iff.mpr ⟨isNumeral_toString n, h⟩

/-- A numeral has no characters but digits and a sign. -/
theorem isDigit_or_sign_of_isNumeral {text : List Char} {n : Int} (h : IsNumeral text n) {c : Char}
    (hc : c ∈ text) : c.isDigit = true ∨ c = '+' ∨ c = '-' := by
  obtain ⟨digits, hdigits, htext⟩ := h
  rw [isDecimal, Bool.and_eq_true, List.all_eq_true] at hdigits
  rcases htext with ⟨rfl | rfl, -⟩ | ⟨rfl, -⟩
  · exact .inl (hdigits.2 c hc)
  · rcases List.mem_cons.mp hc with rfl | hc
    · exact .inr (.inl rfl)
    · exact .inl (hdigits.2 c hc)
  · rcases List.mem_cons.mp hc with rfl | hc
    · exact .inr (.inr rfl)
    · exact .inl (hdigits.2 c hc)

end ReinhardtCloud.Base

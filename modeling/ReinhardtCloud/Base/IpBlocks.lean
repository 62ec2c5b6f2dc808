import Mathlib.Algebra.Group.Nat.Defs
import Mathlib.Data.Set.BooleanAlgebra
import Mathlib.Order.CompletePartialOrder
import ReinhardtCloud.Base.Affixes
import ReinhardtCloud.Base.Numerals

/-!
# Internet addresses and their blocks

Library `Base`. Addresses of both families as numbers, blocks of addresses that share their first
bits, and the texts that `str::parse::<IpAddr>` and a block in CIDR notation are read from. Nothing
here names a component.
-/

namespace ReinhardtCloud.Base

/-! ## Addresses and blocks -/

inductive IpFamily where
  | v4
  | v6
  deriving DecidableEq

/-- The bits of an address. -/
def IpFamily.width : IpFamily → Nat
  | .v4 => 32
  | .v6 => 128

/-- An address: a number of its family's width. -/
structure IpAddr where
  family : IpFamily
  value : Nat
  fits : value < 2 ^ family.width
  deriving DecidableEq

/-- The address of a number, of which the low bits are taken. -/
def IpAddr.ofNat (family : IpFamily) (n : Nat) : IpAddr where
  family := family
  value := n % 2 ^ family.width
  fits := Nat.mod_lt _ (Nat.pow_pos (by decide))

/-- A block: the addresses that agree with the base in the first bits. -/
structure CidrBlock where
  base : IpAddr
  prefixLength : Nat
  fits : prefixLength ≤ base.family.width
  deriving DecidableEq

namespace CidrBlock

/-- How many bits are free. -/
def hostBits (block : CidrBlock) : Nat := block.base.family.width - block.prefixLength

def contains (block : CidrBlock) (ip : IpAddr) : Bool :=
  ip.family = block.base.family &&
    ip.value / 2 ^ block.hostBits = block.base.value / 2 ^ block.hostBits

/-- The addresses of the block. -/
def addresses (block : CidrBlock) : Set IpAddr := {ip | block.contains ip = true}

variable {inner outer : CidrBlock} {ip : IpAddr}

theorem contains_iff :
    outer.contains ip = true ↔ ip.family = outer.base.family ∧
      ip.value / 2 ^ outer.hostBits = outer.base.value / 2 ^ outer.hostBits := by
  rw [contains, Bool.and_eq_true, decide_eq_true_eq, decide_eq_true_eq]

theorem contains_base (block : CidrBlock) : block.contains block.base = true :=
  contains_iff.mpr ⟨rfl, rfl⟩

/-- Numbers that agree above some bits agree above more. -/
private theorem div_pow_eq_of_le {a b m n : Nat} (hmn : m ≤ n) (h : a / 2 ^ m = b / 2 ^ m) :
    a / 2 ^ n = b / 2 ^ n := by
  obtain ⟨d, rfl⟩ := Nat.exists_eq_add_of_le hmn
  rw [Nat.pow_add, ← Nat.div_div_eq_div_mul, ← Nat.div_div_eq_div_mul, h]

/-- A block with at least as long a prefix whose base is held is held. -/
theorem addresses_subset (hbase : outer.contains inner.base = true)
    (hlength : outer.prefixLength ≤ inner.prefixLength) : inner.addresses ⊆ outer.addresses := by
  obtain ⟨hfamily, hvalue⟩ := contains_iff.mp hbase
  intro ip hip
  obtain ⟨hfamily', hvalue'⟩ := contains_iff.mp hip
  apply contains_iff.mpr
  constructor
  · rw [hfamily', hfamily]
  · have hbits : inner.hostBits ≤ outer.hostBits := by
      rw [hostBits, hostBits, hfamily]
      omega
    rw [div_pow_eq_of_le hbits hvalue', hvalue]

/-- A number that differs first at bit `m`. -/
private theorem exists_sibling (b m : Nat) :
    ∃ a, a / 2 ^ (m + 1) = b / 2 ^ (m + 1) ∧ a / 2 ^ m ≠ b / 2 ^ m := by
  have hpow : 0 < 2 ^ m := Nat.pow_pos (by decide)
  have hflip (r : Nat) : ∃ q, q / 2 = r / 2 ∧ q ≠ r := by
    rcases Nat.mod_two_eq_zero_or_one r with heven | hodd
    · exact ⟨r + 1, by omega, by omega⟩
    · exact ⟨r - 1, by omega, by omega⟩
  obtain ⟨q, hhalf, hne⟩ := hflip (b / 2 ^ m)
  refine ⟨q * 2 ^ m, ?_, ?_⟩
  · rw [Nat.pow_succ, ← Nat.div_div_eq_div_mul, ← Nat.div_div_eq_div_mul,
      Nat.mul_div_cancel _ hpow, hhalf]
  · rwa [Nat.mul_div_cancel _ hpow]

/-- A block within another one, with a longer prefix, leaves out an address of it. -/
private theorem exists_outside (hbase : outer.contains inner.base = true)
    (hlength : outer.prefixLength < inner.prefixLength) :
    ∃ ip, outer.contains ip = true ∧ inner.contains ip = false := by
  obtain ⟨hfamily, hvalue⟩ := contains_iff.mp hbase
  have hfits := inner.fits
  obtain ⟨n, hagree, hdiffer⟩ := exists_sibling inner.base.value inner.hostBits
  have hbits : inner.hostBits + 1 ≤ outer.hostBits := by
    rw [hostBits, hostBits, ← hfamily]
    omega
  have hn : n < 2 ^ inner.base.family.width := by
    have hwidth : inner.hostBits + 1 ≤ inner.base.family.width := by
      rw [hostBits]
      omega
    have hzero := div_pow_eq_of_le hwidth hagree
    rw [Nat.div_eq_of_lt inner.base.fits] at hzero
    exact (Nat.div_eq_zero_iff_lt (Nat.pow_pos (by decide))).mp hzero
  refine ⟨⟨inner.base.family, n, hn⟩, ?_, ?_⟩
  · rw [contains_iff, ← hvalue]
    exact ⟨hfamily, div_pow_eq_of_le hbits hagree⟩
  · rw [Bool.eq_false_iff]
    intro h
    exact hdiffer (contains_iff.mp h).2

/-- One block lies strictly within another one exactly when the other one holds its base and has
the shorter prefix. -/
theorem addresses_ssubset_iff :
    inner.addresses ⊂ outer.addresses ↔
      outer.contains inner.base = true ∧ outer.prefixLength < inner.prefixLength := by
  constructor
  · rintro ⟨hsubset, hstrict⟩
    have hbase : outer.contains inner.base = true := hsubset (contains_base inner)
    refine ⟨hbase, ?_⟩
    by_contra hlength
    apply hstrict
    obtain ⟨hfamily, hvalue⟩ := contains_iff.mp hbase
    apply addresses_subset _ (Nat.le_of_not_lt hlength)
    rw [contains_iff]
    have hbits : outer.hostBits ≤ inner.hostBits := by
      rw [hostBits, hostBits, hfamily]
      omega
    exact ⟨hfamily.symm, div_pow_eq_of_le hbits hvalue.symm⟩
  · rintro ⟨hbase, hlength⟩
    refine ⟨addresses_subset hbase (Nat.le_of_lt hlength), ?_⟩
    intro hsubset
    obtain ⟨ip, hip, hout⟩ := exists_outside hbase hlength
    rw [show inner.contains ip = true from hsubset hip] at hout
    cases hout

end CidrBlock

/-! ## Texts, `core::net` -/

/-- A part of an address and the text behind it. -/
abbrev IpReader (α : Type) := List Char → Option (α × List Char)

/-- A digit of the radix, ten or sixteen. -/
def isRadixDigit (radix : Nat) (c : Char) : Bool :=
  c.isDigit || (radix = 16 && (('a' ≤ c && c ≤ 'f') || ('A' ≤ c && c ≤ 'F')))

/-- `char::to_digit`. -/
def radixDigit (c : Char) : Nat :=
  if c.isDigit then c.toNat - '0'.toNat
  else if 'a' ≤ c then c.toNat - 'a'.toNat + 10
  else c.toNat - 'A'.toNat + 10

/-- `read_number`: at most so many digits, for a number below a bound. -/
def readNumber (radix maxDigits bound : Nat) (allowZeroPrefix : Bool) : IpReader Nat := fun s ↦
  let digits := s.takeWhile (isRadixDigit radix)
  let n := digits.foldl (fun n c ↦ radix * n + radixDigit c) 0
  if digits.isEmpty || maxDigits < digits.length ||
      (!allowZeroPrefix && s.head? = some '0' && 1 < digits.length) || bound ≤ n then none
  else some (n, s.drop digits.length)

/-- `read_given_char`. -/
def readGivenChar (c : Char) : IpReader Unit
  | d :: rest => if d = c then some ((), rest) else none
  | [] => none

/-- `read_separator`: the separator, unless this is the first part, and the part. -/
def readSeparator {α : Type} (sep : Char) (isFirst : Bool) (inner : IpReader α) : IpReader α :=
  fun s ↦ if isFirst then inner s else (readGivenChar sep s).bind fun rest ↦ inner rest.2

/-- A number of an IPv4 address, which is never octal. -/
def readOctet : IpReader Nat := readNumber 10 3 256 false

/-- `read_ipv4_addr`. -/
def readIpv4Addr : IpReader Nat := fun s ↦ do
  let (a, s) ← readSeparator '.' true readOctet s
  let (b, s) ← readSeparator '.' false readOctet s
  let (c, s) ← readSeparator '.' false readOctet s
  let (d, s) ← readSeparator '.' false readOctet s
  return (((a * 256 + b) * 256 + c) * 256 + d, s)

/-- `read_groups`: up to so many groups, whether an IPv4 address ended them, and the text behind
them. An IPv4 address stands for two groups. -/
def readGroups : Nat → Bool → List Char → List Nat × Bool × List Char
  | 0, _, s => ([], false, s)
  | left + 1, isFirst, s =>
    match if 1 ≤ left then readSeparator ':' isFirst readIpv4Addr s else none with
    | some (v4, rest) => ([v4 / 65536, v4 % 65536], true, rest)
    | none =>
      match readSeparator ':' isFirst (readNumber 16 4 65536 true) s with
      | some (group, rest) =>
        let (groups, v4, rest) := readGroups left false rest
        (group :: groups, v4, rest)
      | none => ([], false, s)

/-- The number eight groups stand for. -/
def groupsValue (groups : List Nat) : Nat := groups.foldl (fun n group ↦ n * 65536 + group) 0

/-- `read_ipv6_addr`. -/
def readIpv6Addr : IpReader Nat := fun s ↦
  let (head, headIpv4, s) := readGroups 8 true s
  if head.length = 8 then some (groupsValue head, s)
  else if headIpv4 then none
  else do
    let ((), s) ← readGivenChar ':' s
    let ((), s) ← readGivenChar ':' s
    let (tail, _, s) := readGroups (8 - (head.length + 1)) true s
    return (groupsValue (head ++ List.replicate (8 - head.length - tail.length) 0 ++ tail), s)

/-- `str::parse::<IpAddr>`. -/
def parseIpAddr (text : String) : Option IpAddr :=
  match ((readIpv4Addr text.toList).map fun (n, rest) ↦ (IpAddr.ofNat .v4 n, rest)).or
    ((readIpv6Addr text.toList).map fun (n, rest) ↦ (IpAddr.ofNat .v6 n, rest)) with
  | some (ip, []) => some ip
  | _ => none

/-- The block that a text in CIDR notation stands for. -/
def readCidr (cidr : String) : Option CidrBlock :=
  (splitOnce '/' cidr).bind fun (ipText, lengthText) ↦ (parseIpAddr ipText).bind fun ip ↦
    (parseUnsigned 8 lengthText.toList).bind fun length ↦
      if h : length ≤ ip.family.width then some ⟨ip, length, h⟩ else none

example : (readCidr "fd00::/8").map (fun b ↦ (b.base.family, b.base.value, b.prefixLength)) =
    some (.v6, 0xfd00 * 2 ^ 112, 8) := by decide

example : (readCidr "::ffff:10.0.0.1/128").map (fun b ↦ (b.base.family, b.base.value)) =
    some (.v6, 0xffff0a000001) := by decide

end ReinhardtCloud.Base

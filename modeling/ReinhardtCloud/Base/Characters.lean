import Mathlib.Data.List.Basic

/-!
# Characters

Library `Base`. Classes of characters that several languages and formats share, as Rust's `char`
has them, and trimming. Nothing here names a component.
-/

namespace ReinhardtCloud.Base

/-- The Unicode `White_Space` property. -/
def isWhiteSpace (c : Char) : Bool :=
  let n := c.toNat
  (9 ≤ n && n ≤ 13) || n = 0x20 || n = 0x85 || n = 0xA0 || n = 0x1680 ||
    (0x2000 ≤ n && n ≤ 0x200A) || n = 0x2028 || n = 0x2029 || n = 0x202F || n = 0x205F ||
    n = 0x3000

/-- The Unicode category `Cc`. -/
def isControl (c : Char) : Bool := c.toNat < 0x20 || (0x7F ≤ c.toNat && c.toNat ≤ 0x9F)

/-- A small ASCII letter or a digit. -/
def isLowerAlphanumeric (c : Char) : Bool := c.isLower || c.isDigit

/-- An ASCII letter, a digit or an underscore. -/
def isWordChar (c : Char) : Bool := c.isAlphanum || c = '_'

/-- `char::to_lowercase`, as far as the result is ASCII: beyond ASCII only the Kelvin sign and the
dotted capital I have an ASCII letter in theirs. -/
def toLowercase (c : Char) : List Char :=
  if c.toNat = 0x212A then ['k']
  else if c.toNat = 0x130 then ['i', Char.ofNat 0x307]
  else [c.toLower]

/-- `str::trim`. -/
def trim (s : String) : String :=
  String.ofList ((s.toList.dropWhile isWhiteSpace).reverse.dropWhile isWhiteSpace).reverse

end ReinhardtCloud.Base

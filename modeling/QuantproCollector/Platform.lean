import Mathlib.Data.List.Infix
import QuantproCollector.Lib.Json

/-!
# The runtime platform

What the worker takes from its runtime rather than from its own sources: the SHA-256 digest and the
reading of dates and numbers from texts. They are parameters, so everything proved holds of whatever
they return.

Timestamps are the ISO texts that the worker stores; it compares them as texts, in D1 and in
TypeScript alike, and so does the model.
-/

namespace QuantproCollector

/-- The runtime functions the worker's code calls. -/
structure Platform where
  /-- The lower-case hexadecimal SHA-256 digest of a text. -/
  sha256Hex : String → String
  /-- `new Date(text).toISOString()`, or `none` where `Date.parse(text)` is `NaN`. -/
  isoOfText : String → Option String
  /-- `new Date(Date.parse(now) + seconds * 1000).toISOString()`, or `none` out of range. -/
  addSeconds : String → ℕ → Option String
  /-- `Number(text)`, or `none` where it is not finite. -/
  numberOfText : String → Option Decimal

/-- Characters of the class `[a-f0-9]`. -/
def isLowerHex (c : Char) : Bool :=
  c.isDigit || ('a' ≤ c && c ≤ 'f')

/-- A text matching `/^[0-9a-f]{64}$/`. -/
def isHexSha256 (s : String) : Bool :=
  s.toList.all isLowerHex && decide (s.toList.length = 64)

/-- ASCII letters. -/
def isAsciiLetter (c : Char) : Bool :=
  ('a' ≤ c && c ≤ 'z') || ('A' ≤ c && c ≤ 'Z')

/-- `String.prototype.toLowerCase`, as far as the result can be ASCII: the Kelvin sign is the one
character outside ASCII with an ASCII lower case. -/
def toLowerCase (s : String) : String :=
  String.ofList (s.toList.map fun c => if c.toNat = 0x212A then 'k' else c.toLower)

/-- `haystack.includes(needle)`. -/
def includes (haystack needle : String) : Bool :=
  decide (needle.toList <:+: haystack.toList)

/-- The white space and line terminators that `trim` removes. -/
def isSpace (c : Char) : Bool :=
  [0x9, 0xA, 0xB, 0xC, 0xD, 0x20, 0xA0, 0x1680, 0x2028, 0x2029, 0x202F, 0x205F, 0x3000,
    0xFEFF].contains c.toNat || (decide (0x2000 ≤ c.toNat) && decide (c.toNat ≤ 0x200A))

/-- `String.prototype.trimEnd`, on the characters. -/
def trimEnd (s : List Char) : List Char :=
  (s.reverse.dropWhile isSpace).reverse

/-- `Number(value)` of a JSON value, or `none` where it is not finite. -/
def numberOf (P : Platform) : Json → Option Decimal
  | .null => some (.ofInt 0)
  | .bool b => some (.ofInt (if b then 1 else 0))
  | .num x => some x
  | .str s => P.numberOfText s
  | .arr xs => P.numberOfText (Json.arr xs).text
  | .obj _ => none

end QuantproCollector

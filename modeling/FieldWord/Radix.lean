/-!
# Radices

The two radices in which integers are read and written, with their digits and the marker that
announces the radix in front of the digits.
-/

namespace FieldWord

/-- A radix of numerals. -/
inductive Radix where
  | decimal
  | hexadecimal
deriving DecidableEq, Repr

namespace Radix

/-- The number of digits. -/
def base : Radix → UInt8
  | decimal => 10
  | hexadecimal => 16

/-- The text that announces the radix. -/
def marker : Radix → List Char
  | decimal => []
  | hexadecimal => ['0', 'x']

/-- The value of a character as an ASCII digit, letters of either case counting on from ten. -/
def digitValue? (c : Char) : Option UInt8 :=
  if '0' ≤ c ∧ c ≤ '9' then some (c.toUInt8 - '0'.toUInt8)
  else if 'a' ≤ c ∧ c ≤ 'f' then some (c.toUInt8 - 'a'.toUInt8 + 10)
  else if 'A' ≤ c ∧ c ≤ 'F' then some (c.toUInt8 - 'A'.toUInt8 + 10)
  else none

/-- The value of a character as a digit of the radix. -/
def digit? (radix : Radix) (c : Char) : Option UInt8 :=
  (digitValue? c).filter (· < radix.base)

end Radix

end FieldWord

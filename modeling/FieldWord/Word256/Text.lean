import FieldWord.Word256.Decimal
import FieldWord.Layout
import FieldWord.Radix
import FieldWord.Text.Shape

/-!
# Text of words

Numerals of words in decimal and lower-case hexadecimal, laid out by a `Layout`, and the structural
text that lists the bytes.
-/

namespace FieldWord.Word256

/-! ## Digits -/

/-- The characters of the two hexadecimal digits of a byte. -/
def byteDigits (b : UInt8) : List UInt8 :=
  [(Nat.digitChar (b >>> 4).toNat).toUInt8, (Nat.digitChar (b &&& 0x0F).toNat).toUInt8]

/-- The characters of the hexadecimal digits of a word, from the first digit that is not zero. Of
    the digits of zero the last one stays. -/
def hexadecimalDigits (w : Word256) : List UInt8 :=
  let digits := w.byteList.flatMap byteDigits
  digits.drop ((digits.findIdx? (· != '0'.toUInt8)).getD 63)

/-- The numeral of a word, if its digits have a place in the buffer and are a text. -/
def numeral? (w : Word256) : Radix → Option String
  | .decimal => if w.isZero then some "0" else (DecimalWriter.new w).run? >>= DecimalWriter.text?
  | .hexadecimal => String.fromUTF8? w.hexadecimalDigits.toByteArray

/-- The numeral of a word: its digits from the first one that is not zero, or a single zero. -/
def numeral (w : Word256) (radix : Radix) : List Char := ((w.numeral? radix).getD "").toList

/-! ## Text -/

/-- The numeral of a word, laid out. -/
def format (w : Word256) (radix : Radix) (layout : Layout) : String :=
  String.ofList (layout.arrange radix.marker (w.numeral radix))

/-- The numeral of a word with the marker of the radix. -/
def marked (w : Word256) (radix : Radix) : String :=
  w.format radix { marked := true }

/-- The structure of a word: its bytes in a list. -/
def shape (w : Word256) : Text.Shape :=
  .group "U256" .round [.group "" .square (w.byteList.map fun b => .atom (Nat.repr b.toNat))]

end FieldWord.Word256

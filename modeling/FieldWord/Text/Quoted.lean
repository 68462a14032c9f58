import FieldWord.Text.DefaultIgnorable
import FieldWord.Text.GraphemeExtend
import FieldWord.Text.Unprintable

/-!
# Quoted characters

A character between single quotes, readable on any terminal: characters that would break the quotes,
move the cursor or stick to their neighbour are escaped.
-/

namespace FieldWord.Text

/-- Whether a character lies in one of the ranges. -/
def inRanges (ranges : Array (Nat × Nat)) (c : Char) : Bool :=
  ranges.any fun (first, last) => first ≤ c.toNat && c.toNat ≤ last

/-- Whether a character sticks to the one before it: it extends a grapheme and is not a letter. -/
def attaches (c : Char) : Bool :=
  inRanges graphemeExtend c && !inRanges graphemeExtendLetters c

/-- Whether a character shows something by itself. -/
def isPrintable (c : Char) : Bool :=
  !inRanges unprintable c && !inRanges defaultIgnorable c

/-- The escape by code point, in hexadecimal without leading zeros. -/
def codePointEscape (c : Char) : List Char :=
  ['\\', 'u', '\x7b'] ++ Nat.toDigits 16 c.toNat ++ ['\x7d']

/-- A character as it stands between quotes. -/
def escaped (c : Char) : List Char :=
  match c with
  | '\x00' => ['\\', '0']
  | '\t' => ['\\', 't']
  | '\n' => ['\\', 'n']
  | '\r' => ['\\', 'r']
  | '\'' => ['\\', '\'']
  | '\\' => ['\\', '\\']
  | _ => if attaches c || !isPrintable c then codePointEscape c else [c]

/-- A character between single quotes. -/
def quoted (c : Char) : String :=
  String.ofList ('\'' :: escaped c ++ ['\''])

end FieldWord.Text

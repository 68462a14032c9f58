import FieldWord.Literal.Error
import FieldWord.Trace
import FieldWord.Word256.Native

/-!
# Reading literals

A literal of a word is an optional marker `0x` or `0X` and then digits of the radix, with single
separators `_` allowed between them. Reading goes from left to right and stops at the first fault,
be it a character that has no place there or a digit that takes the integer to 2^256.
-/

namespace FieldWord.Literal

/-- The word with one more digit behind those of `w`, if it is below 2^256. -/
def appendDigit? (radix : Radix) (w : Word256) (digit : UInt8) : Option Word256 := do
  let shifted ← w.mul? (.ofNative .w8 radix.base.toBitVec)
  shifted.add? (.ofNative .w8 digit.toBitVec)

/-- What the reader knows between two characters. -/
structure Scan where
  /-- The integer of the digits so far. -/
  word : Word256
  /-- Whether the last character was a digit. -/
  afterDigit : Bool
  /-- The index of the last separator. -/
  separator : Option Nat
deriving DecidableEq, Repr

namespace Scan

/-- Before the first character. -/
def start : Scan := ⟨.zero, false, none⟩

/-- Takes the next character, which has the given index. -/
def step (radix : Radix) (s : Scan) (index : Nat) (c : Char) : Except LiteralError Scan :=
  if c = '_' then
    if s.afterDigit then .ok { s with afterDigit := false, separator := some index }
    else .error (.invalidDigit index c)
  else match radix.digit? c with
    | none => .error (.invalidDigit index c)
    | some digit => match appendDigit? radix s.word digit with
      | none => .error .overflow
      | some w => .ok { s with word := w, afterDigit := true }

/-- Takes all characters, the first of which has the given index, up to the first fault. -/
def loop (radix : Radix) : Scan → (index : Nat) → List Char → Except LiteralError Scan
  | s, _, [] => .ok s
  | s, index, c :: cs => do
    let s ← s.step radix index c
    s.loop radix (index + c.utf8Size) cs

/-- The result behind the last character. There has to be a digit there. -/
def finish (s : Scan) : Except LiteralError Word256 :=
  if s.afterDigit then .ok s.word
  else match s.separator with
    | some index => .error (.invalidDigit index '_')
    | none => .error .empty

end Scan

/-- Splits a literal into its radix and what follows the marker. -/
def splitMarker : List Char → Radix × List Char
  | '0' :: 'x' :: cs => (.hexadecimal, cs)
  | '0' :: 'X' :: cs => (.hexadecimal, cs)
  | cs => (.decimal, cs)

/-- Reads a whole literal, of which the first character has index `offset`. -/
def readWord (literal : List Char) (offset : Nat) : Except LiteralError Word256 :=
  let (radix, digits) := splitMarker literal
  if digits.isEmpty then .error .empty
  else do
    let last ← Scan.start.loop radix (offset + radix.marker.length) digits
    last.finish

end FieldWord.Literal

namespace FieldWord.Word256

/-- Reads a literal that starts `offset` bytes into its text, and records a rejection. -/
def readAt (literal : String) (offset : Nat) : Traced (Except LiteralError Word256) :=
  match Literal.readWord literal.toList offset with
  | .ok w => pure (.ok w)
  | .error error => do
    Traced.emit (.rejectedLiteral literal offset error)
    pure (.error error)

/-- Reads a literal, and records a rejection. -/
def read (literal : String) : Traced (Except LiteralError Word256) := readAt literal 0

end FieldWord.Word256

import FieldWord.Text.Quoted
import FieldWord.Text.Shape

/-!
# Rejected literals

Why a text is not the literal of an integer of the wanted type, and how that is reported.
-/

namespace FieldWord

/-- Why a literal is rejected. -/
inductive LiteralError where
  /-- There is no digit. -/
  | empty
  /-- A character is not a digit of the radix, or a separator does not stand between digits. The
      index counts the bytes of the text before it. -/
  | invalidDigit (index : Nat) (found : Char)
  /-- The integer has too many bits for the type. -/
  | overflow
  /-- The integer is not below the field prime. -/
  | notInField
deriving DecidableEq, Repr

namespace LiteralError

/-- The report to a user. -/
def message : LiteralError → String
  | empty => "cannot parse integer from empty string"
  | invalidDigit index found =>
    "invalid digit " ++ Text.quoted found ++ " at byte " ++ Nat.repr index
  | overflow => "number too large to fit in target type"
  | notInField => "number is not a canonical field element"

/-- The name of the cause. -/
def name : LiteralError → String
  | empty => "Empty"
  | invalidDigit .. => "InvalidDigit"
  | overflow => "Overflow"
  | notInField => "NotInField"

/-- The structure of an error: the name of the cause, with what is known of it. -/
def shape (error : LiteralError) : Text.Shape :=
  match error with
  | invalidDigit index found => .group error.name .curly
      [.labelled "index" (.atom (Nat.repr index)), .labelled "found" (.atom (Text.quoted found))]
  | _ => .atom error.name

end LiteralError

end FieldWord

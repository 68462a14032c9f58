/-!
# Layout of numerals

A numeral can carry a plus sign and the marker of its radix, and is padded to a least width: with
zeros between marker and digits, or with a fill character around the whole.
-/

namespace FieldWord

/-- Where a numeral stands in a field that is wider than it. -/
inductive Alignment where
  | left | center | right
deriving DecidableEq, Repr

/-- How a numeral is laid out. -/
structure Layout where
  /-- The character that fills the field. -/
  fill : Char := ' '
  /-- Where the numeral stands in the field. -/
  alignment : Alignment := .right
  /-- Whether a plus sign comes first. -/
  plus : Bool := false
  /-- Whether the marker of the radix is written. -/
  marked : Bool := false
  /-- Whether zeros after the marker fill the field, whatever `fill` and `alignment` say. -/
  zeros : Bool := false
  /-- The least number of characters. -/
  width : Nat := 0
deriving DecidableEq, Repr

namespace Layout

/-- The fill characters on the left of a numeral that leaves `gap` of them. Of an odd number around
    a centred numeral the extra one goes to the right. -/
def leftGap (layout : Layout) (gap : Nat) : Nat :=
  match layout.alignment with
  | .left => 0
  | .center => gap / 2
  | .right => gap

/-- Lays out a numeral with the given marker and digits. -/
def arrange (layout : Layout) (marker digits : List Char) : List Char :=
  let sign := if layout.plus then ['+'] else []
  let lead := sign ++ if layout.marked then marker else []
  let gap := layout.width - (lead.length + digits.length)
  if layout.zeros then lead ++ List.replicate gap '0' ++ digits
  else
    let left := layout.leftGap gap
    List.replicate left layout.fill ++ lead ++ digits ++ List.replicate (gap - left) layout.fill

end Layout

end FieldWord

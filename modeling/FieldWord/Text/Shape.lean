/-!
# Structural text

The text of a value by its structure, as in `Name(part, part)` or `[part, part]`: compact on one
line, or spread out with every part on a line of its own.
-/

namespace FieldWord.Text

/-- The brackets around the parts of a value. -/
inductive Bracket where
  | round | square | curly
deriving DecidableEq, Repr

namespace Bracket

/-- The opening bracket, set off from the name before it where the kind of bracket asks for it. -/
def opening : Bracket → String
  | round => "("
  | square => "["
  | curly => " \x7b"

/-- The closing bracket. -/
def closing : Bracket → String
  | round => ")"
  | square => "]"
  | curly => "\x7d"

/-- What stands between a bracket and the parts in compact text. -/
def space : Bracket → String
  | round => ""
  | square => ""
  | curly => " "

end Bracket

/-- The structure of a value. -/
inductive Shape where
  /-- A value without parts. -/
  | atom (text : String)
  /-- A part with a label. -/
  | labelled (label : String) (part : Shape)
  /-- A value with a name, which may be empty, and parts in brackets. -/
  | group (name : String) (bracket : Bracket) (parts : List Shape)

namespace Shape

mutual

/-- The text on one line. -/
def compact : Shape → String
  | atom text => text
  | labelled label part => label ++ ": " ++ part.compact
  | group name bracket parts =>
    name ++ bracket.opening ++ bracket.space ++ ", ".intercalate (compactParts parts) ++
      bracket.space ++ bracket.closing

/-- The text of each part on one line. -/
def compactParts : List Shape → List String
  | [] => []
  | part :: parts => part.compact :: compactParts parts

end

/-- The blanks before a line at the given depth. -/
def indent (depth : Nat) : String := String.ofList (List.replicate (4 * depth) ' ')

mutual

/-- The text with every part on a line of its own, indented by its depth and followed by a comma. -/
def spread (depth : Nat) : Shape → String
  | atom text => text
  | labelled label part => label ++ ": " ++ part.spread depth
  | group name bracket parts =>
    name ++ bracket.opening ++ "\n" ++ spreadParts (depth + 1) parts ++ indent depth ++
      bracket.closing

/-- The lines of the parts at the given depth. -/
def spreadParts (depth : Nat) : List Shape → String
  | [] => ""
  | part :: parts => indent depth ++ part.spread depth ++ ",\n" ++ spreadParts depth parts

end

end Shape

end FieldWord.Text

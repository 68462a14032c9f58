import FieldWord.Felt

/-!
# Values of the three types

A value is a word, a bounded word or a field element. Values convert between the types by their
integers, and two values of one type compare.
-/

namespace FieldWord

/-- The types of values. -/
inductive Kind where
  | word256 | word248 | felt
deriving DecidableEq, Repr

/-- A value of one of the types. -/
inductive Value where
  | word256 (w : Word256)
  | word248 (u : Word248)
  | felt (x : Felt)
deriving DecidableEq, Repr

/-- How two values of one type compare. -/
structure Comparison where
  /-- The order of the first to the second. -/
  order : Ordering
  /-- Whether they are equal. -/
  equal : Bool
  /-- Whether the first is below the second. -/
  less : Bool
  /-- Whether the first is not above the second. -/
  lessOrEqual : Bool
  /-- The greater one. -/
  greatest : Value
  /-- The lesser one. -/
  least : Value
deriving DecidableEq, Repr

/-- Compares two values of one type. -/
def Comparison.of {α : Type} [Ord α] [DecidableEq α] [LT α] [LE α] [DecidableLT α] [DecidableLE α]
    [Max α] [Min α] (wrap : α → Value) (a b : α) : Comparison where
  order := compare a b
  equal := decide (a = b)
  less := decide (a < b)
  lessOrEqual := decide (a ≤ b)
  greatest := wrap (max a b)
  least := wrap (min a b)

namespace Value

/-- The type of a value. -/
def kind : Value → Kind
  | word256 _ => .word256
  | word248 _ => .word248
  | felt _ => .felt

/-- The integer of a value, as a word. -/
def word : Value → Word256
  | word256 w => w
  | word248 u => u.word
  | felt x => x.word

/-- The numeral of a value, laid out. -/
def format (v : Value) (radix : Radix) (layout : Layout) : String :=
  match v with
  | word256 w => w.format radix layout
  | word248 u => u.format radix layout
  | felt x => x.format radix layout

/-- The numeral of a value with the marker of the radix. -/
def marked (v : Value) (radix : Radix) : String := v.format radix { marked := true }

/-- The structure of a value. -/
def shape : Value → Text.Shape
  | word256 w => w.shape
  | word248 u => u.shape
  | felt x => x.shape

/-! ## Construction -/

/-- The value of a type with the integer of a word, if the type holds it. -/
def ofWord (kind : Kind) (w : Word256) : Traced (Option Value) :=
  match kind with
  | .word256 => pure (some (word256 w))
  | .word248 => return (← Word248.ofWord w).map word248
  | .felt => pure ((Felt.ofWord? w).map felt)

/-- The value of a type with the value of a machine integer. -/
def ofNative (kind : Kind) (width : Width) (n : Native width) : Value :=
  match kind with
  | .word256 => word256 (.ofNative width n)
  | .word248 => word248 (.ofNative width n)
  | .felt => felt (.ofNative width n)

/-- Reads the literal of a value of the given type. -/
def read (kind : Kind) (literal : String) : Traced (Except LiteralError Value) :=
  match kind with
  | .word256 => return (← Word256.read literal).map word256
  | .word248 => return (← Word248.read literal).map word248
  | .felt => return (← Felt.read literal).map felt

/-- The value of another type with the same integer, if that type holds it. -/
def convert (kind : Kind) (v : Value) : Traced (Option Value) :=
  match kind, v with
  | .word256, v => pure (some (word256 v.word))
  | .word248, word256 w => return (← Word248.ofWord w).map word248
  | .word248, word248 u => pure (some (word248 u))
  | .word248, felt x => return (← Word248.ofFelt x).map word248
  | .felt, word256 w => pure ((Felt.ofWord? w).map felt)
  | .felt, word248 u => pure (some (felt (.ofWord248 u)))
  | .felt, felt x => pure (some (felt x))

/-! ## Comparison -/

/-- Compares two values, if they are of one type. -/
def comparison? : Value → Value → Option Comparison
  | word256 v, word256 w => some (.of word256 v w)
  | word248 u, word248 v => some (.of word248 u v)
  | felt x, felt y => some (.of felt x y)
  | _, _ => none

/-- Values in ascending order of their integers. -/
def sort (values : List Value) : List Value :=
  values.mergeSort fun a b => (compare a.word b.word).isLE

/-- Builds a value of the given type from each word, one after the other. Gives the values of the
    words that the type holds, and the positions of the others, counted from `position`. -/
def ofWords (kind : Kind) : (position : Nat) → List Word256 → Traced (List Value × List Nat)
  | _, [] => pure ([], [])
  | position, w :: ws => do
    let value ← ofWord kind w
    let (values, rejected) ← ofWords kind (position + 1) ws
    match value with
    | some value => pure (value :: values, rejected)
    | none => pure (values, position :: rejected)

end Value

end FieldWord

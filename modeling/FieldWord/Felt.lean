import FieldWord.Word248

/-!
# Field elements

`Felt` holds the canonical residue of an element of the prime field of order 2^251 + 17 * 2^192 + 1.
Every constructor gives a word below the prime: the bounded words are, and other words and literals
are checked and never reduced.
-/

namespace FieldWord

/-- An element of the field, as its least residue. -/
structure Felt where
  /-- The residue as a word. -/
  word : Word256
deriving DecidableEq, Repr

namespace Felt

/-- The order of the field, 2^251 + 17 * 2^192 + 1. -/
def prime : Word256 := .ofLimbs #v[0x0800000000000011, 0, 0, 1]

/-- The element zero. -/
def zero : Felt := ⟨.zero⟩

/-- The element one. -/
def one : Felt := ⟨.one⟩

/-- The element of the largest residue. -/
def max : Felt := ⟨.ofLimbs #v[0x0800000000000011, 0, 0, 0]⟩

instance : Inhabited Felt := ⟨zero⟩

/-! ## Order -/

instance : Ord Felt where
  compare x y := compare x.word y.word

instance : LT Felt := ltOfOrd

instance : LE Felt := leOfOrd

instance : Max Felt := maxOfLe

instance : Min Felt := minOfLe

/-! ## Operations -/

/-- Whether an element is zero. -/
def isZero (x : Felt) : Bool := x.word.isZero

instance : Neg Felt where
  neg x := if x.isZero then x else ⟨prime - x.word⟩

/-- The element with the value of a machine integer. -/
def ofNative (width : Width) (n : Native width) : Felt := ⟨.ofNative width n⟩

/-- The element of the same value as a bounded word. -/
def ofWord248 (u : Word248) : Felt := ⟨u.word⟩

/-- The element with the given residue, if that is below the prime. -/
def ofWord? (w : Word256) : Option Felt := if w < prime then some ⟨w⟩ else none

/-- The numeral of the residue, laid out. -/
def format (x : Felt) (radix : Radix) (layout : Layout) : String := x.word.format radix layout

/-- The structure of an element: the word in it. -/
def shape (x : Felt) : Text.Shape := .group "Felt252" .round [x.word.shape]

/-! ## Narrowing and reading -/

/-- Narrows the residue to a bounded word, and records a failure. -/
def toWord248 (x : Felt) : Traced (Option Word248) := Word248.ofWord x.word

/-- Splits the sign off a literal. -/
def splitSign (literal : String) : Bool × String :=
  match literal.toList with
  | '-' :: magnitude => (true, String.ofList magnitude)
  | _ => (false, literal)

/-- Reads a literal with an optional minus sign, and records a rejection. The magnitude must be
    below the prime. -/
def read (literal : String) : Traced (Except LiteralError Felt) := do
  let (negative, magnitude) := splitSign literal
  match ← Word256.readAt magnitude (if negative then 1 else 0) with
  | .error error => pure (.error error)
  | .ok w =>
    match ofWord? w with
    | some x => pure (.ok (if negative then -x else x))
    | none =>
      Traced.emit (.notBelowPrime literal prime)
      pure (.error .notInField)

end Felt

/-- The bounded word with the residue of an element, if there is one; a failure is recorded. -/
def Word248.ofFelt (x : Felt) : Traced (Option Word248) := x.toWord248

end FieldWord

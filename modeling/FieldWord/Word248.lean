import FieldWord.Literal.Reader

/-!
# 248-bit words

`Word248` holds a word below 2^248, which is what 31 bytes can hold. The constructors below keep to
that bound: widening never meets it, and narrowing checks it.
-/

namespace FieldWord

/-- An unsigned integer below 2^248. -/
structure Word248 where
  /-- The integer as a word. -/
  word : Word256
deriving DecidableEq, Repr

namespace Word248

/-- The width in bits. -/
def bits : Nat := 248

/-- The least word that is too large, 2^248. -/
def limit : Word256 := .pow2 bits

/-- The integer zero. -/
def zero : Word248 := ⟨.zero⟩

/-- The integer one. -/
def one : Word248 := ⟨.one⟩

/-- The largest value, 2^248 - 1. -/
def max : Word248 := ⟨⟨(Vector.replicate 32 255).set 0 0⟩⟩

instance : Inhabited Word248 := ⟨zero⟩

/-! ## Order -/

instance : Ord Word248 where
  compare u v := compare u.word v.word

instance : LT Word248 := ltOfOrd

instance : LE Word248 := leOfOrd

instance : Max Word248 := maxOfLe

instance : Min Word248 := minOfLe

/-! ## Views -/

/-- The 31 bytes below the top byte of the word, most significant first. -/
def bytes (u : Word248) : Vector UInt8 31 := ⟨(u.word.byteList.drop 1).toArray, by simp⟩

/-- The integer with the given bytes, most significant first. -/
def ofBytes (bytes : Vector UInt8 31) : Word248 := ⟨.ofByteList (0 :: bytes.toList) (by simp)⟩

/-- The number of zero bits before the first one bit, out of 248. -/
def leadingZeros (u : Word248) : Nat := u.word.leadingZeros - 8

/-- The integer with the value of a machine integer. -/
def ofNative (width : Width) (n : Native width) : Word248 := ⟨.ofNative width n⟩

/-- The machine integer of the same value, if it has that few bits. -/
def toNative? (u : Word248) (width : Width) : Option (Native width) := u.word.toNative? width

/-- The numeral of a bounded word, laid out. -/
def format (u : Word248) (radix : Radix) (layout : Layout) : String := u.word.format radix layout

/-- The structure of a bounded word: the word in it. -/
def shape (u : Word248) : Text.Shape := .group "U248" .round [u.word.shape]

/-! ## Narrowing and reading -/

/-- Narrows a word, and records a failure. -/
def ofWord (w : Word256) : Traced (Option Word248) :=
  if w < limit then pure (some ⟨w⟩)
  else do
    Traced.emit (.tooWide w limit)
    pure none

/-- Reads a literal, and records a rejection. A word that is too large is rejected as overflow. -/
def read (literal : String) : Traced (Except LiteralError Word248) := do
  match ← Word256.read literal with
  | .error error => pure (.error error)
  | .ok w =>
    match ← ofWord w with
    | some u => pure (.ok u)
    | none => pure (.error .overflow)

end Word248

end FieldWord

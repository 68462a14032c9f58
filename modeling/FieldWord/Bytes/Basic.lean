/-!
# Big-endian byte strings

Unsigned integers written as byte strings, most significant byte first. `value` is the integer that
a string stands for; the arithmetic below works byte by byte in 16-bit words, the way a carry chain
does, and its facts are stated through `value` in `FieldWord.Bytes.Lemmas`.

* `addCarry`, `subBorrow`: sum and difference of two strings of one length, with the bit that leaves
the top * `divRem`: long division by a single byte * `leadingZeros`: zero bits before the first one
-/

namespace FieldWord.Bytes

/-- The integer that a byte string stands for when it follows bytes that stand for `n`. -/
def valueFrom : (n : Nat) → List UInt8 → Nat
  | n, [] => n
  | n, b :: bs => valueFrom (n * 256 + b.toNat) bs

/-- The integer that a byte string stands for. -/
def value (bs : List UInt8) : Nat := valueFrom 0 bs

/-- The `len` lowest bytes of `n`. -/
def ofNat : (len n : Nat) → List UInt8
  | 0, _ => []
  | len + 1, n => ofNat len (n / 256) ++ [UInt8.ofNat n]

/-- The sum of two strings of one length, wrapped to that length, and the carry out of the top byte.
    -/
def addCarry : List UInt8 → List UInt8 → List UInt8 × UInt16
  | a :: as, b :: bs =>
    let (low, carry) := addCarry as bs
    let sum := a.toUInt16 + b.toUInt16 + carry
    (sum.toUInt8 :: low, sum >>> 8)
  | _, _ => ([], 0)

/-- The difference of two strings of one length, wrapped to that length, and the borrow out of the
    top byte. All 16-bit words lie between 0 and 511, so that unsigned words do what signed ones
    would. -/
def subBorrow : List UInt8 → List UInt8 → List UInt8 × UInt16
  | a :: as, b :: bs =>
    let (low, borrow) := subBorrow as bs
    let left := a.toUInt16
    let right := b.toUInt16 + borrow
    if right ≤ left then ((left - right).toUInt8 :: low, 0)
    else ((left + 256 - right).toUInt8 :: low, 1)
  | _, _ => ([], 0)

/-- Long division by a non-zero byte, from the top byte down. The second argument is the remainder
    of the bytes already divided, and must be below the divisor. -/
def divRem (divisor : UInt8) : UInt16 → List UInt8 → List UInt8 × UInt16
  | remainder, [] => ([], remainder)
  | remainder, b :: bs =>
    let current := (remainder <<< 8) ||| b.toUInt16
    let (quotient, last) := divRem divisor (current % divisor.toUInt16) bs
    ((current / divisor.toUInt16).toUInt8 :: quotient, last)

/-- The number of zero bits before the first one bit; all bits of a string of zero bytes. -/
def leadingZeros : List UInt8 → Nat
  | [] => 0
  | b :: bs => if b = 0 then 8 + leadingZeros bs else 7 - b.toNat.log2

/-! ## Lengths -/

@[simp] theorem length_ofNat (len n : Nat) : (ofNat len n).length = len := by
  induction len generalizing n with
  | zero => rfl
  | succ len ih => simp [ofNat, ih]

@[simp] theorem length_addCarry (as bs : List UInt8) :
    (addCarry as bs).1.length = min as.length bs.length := by
  induction as generalizing bs with
  | nil => simp [addCarry]
  | cons a as ih => cases bs <;> simp [addCarry, ih]

@[simp] theorem length_subBorrow (as bs : List UInt8) :
    (subBorrow as bs).1.length = min as.length bs.length := by
  induction as generalizing bs with
  | nil => simp [subBorrow]
  | cons a as ih =>
    cases bs with
    | nil => simp [subBorrow]
    | cons b bs =>
      simp only [subBorrow]
      split <;> simp [ih]

@[simp] theorem length_divRem (divisor : UInt8) (remainder : UInt16) (bs : List UInt8) :
    (divRem divisor remainder bs).1.length = bs.length := by
  induction bs generalizing remainder with
  | nil => rfl
  | cons b bs ih => simp [divRem, ih]

end FieldWord.Bytes

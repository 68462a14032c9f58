import FieldWord.Bytes.Lemmas

/-!
# 256-bit words

`Word256` is an unsigned integer of 32 big-endian bytes. Words are ordered by their bytes, first
byte first, which is the order of the integers they stand for.
-/

namespace FieldWord

/-- An unsigned 256-bit integer. -/
structure Word256 where
  /-- The bytes, most significant first. -/
  bytes : Vector UInt8 32
deriving DecidableEq, Repr

namespace Word256

/-- The width in bits. -/
def bits : Nat := 256

/-- The bytes as a list, most significant first. -/
def byteList (w : Word256) : List UInt8 := w.bytes.toList

/-- The word with the given bytes. -/
def ofByteList (bs : List UInt8) (h : bs.length = 32) : Word256 :=
  ⟨⟨bs.toArray, by simpa using h⟩⟩

@[simp] theorem length_byteList (w : Word256) : w.byteList.length = 32 := by
  simp [byteList]

/-- `byteList` gives back what `ofByteList` was given. -/
@[simp] theorem byteList_ofByteList (bs : List UInt8) (h : bs.length = 32) :
    (ofByteList bs h).byteList = bs := by
  simp [ofByteList, byteList]

/-- `byteList` tells words apart. -/
@[ext] theorem ext {v w : Word256} (h : v.byteList = w.byteList) : v = w := by
  cases v
  cases w
  simp_all [byteList, Vector.toList_inj]

/-- The integer that a word stands for. -/
def toNat (w : Word256) : Nat := Bytes.value w.byteList

/-- The word that stands for `n` modulo 2^256. -/
def ofNat (n : Nat) : Word256 := ofByteList (Bytes.ofNat 32 n) (by simp)

/-! ## Constants -/

/-- The word zero. -/
def zero : Word256 := ⟨.replicate 32 0⟩

/-- The word one. -/
def one : Word256 := ⟨(Vector.replicate 32 0).set 31 1⟩

/-- The largest word, 2^256 - 1. -/
def max : Word256 := ⟨.replicate 32 255⟩

/-- The power of two with the given exponent, or zero if it has more than 256 bits. -/
def pow2 (exponent : Nat) : Word256 :=
  if exponent < 256 then
    ⟨(Vector.replicate 32 0).set (31 - exponent / 8) (1 <<< UInt8.ofNat (exponent % 8))⟩
  else zero

instance : Inhabited Word256 := ⟨zero⟩

/-! ## Order -/

instance : Ord Word256 where
  compare v w := compare v.byteList w.byteList

instance : LT Word256 := ltOfOrd

instance : LE Word256 := leOfOrd

instance : Max Word256 := maxOfLe

instance : Min Word256 := minOfLe

/-! ## Bits -/

/-- Whether every bit is zero. -/
def isZero (w : Word256) : Bool := w.byteList.all (· == 0)

/-- The number of zero bits before the first one bit: 256 for the word zero. -/
def leadingZeros (w : Word256) : Nat := Bytes.leadingZeros w.byteList

/-- `isZero` finds the word of zero. -/
theorem isZero_iff_toNat_eq_zero (w : Word256) : w.isZero = true ↔ w.toNat = 0 := by
  simp [isZero, toNat, Bytes.value_eq_zero_iff]

end Word256

end FieldWord

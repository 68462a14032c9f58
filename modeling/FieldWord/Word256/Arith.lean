import FieldWord.Word256.Basic
import FieldWord.Limbs

/-!
# Arithmetic on words

Addition and subtraction run over the bytes, multiplication over four 64-bit limbs. Each comes with
a flag that tells whether the exact result was cut to 256 bits; the forms that end in `?` give no
result then.
-/

namespace FieldWord.Word256

/-! ## Limbs -/

/-- The four 64-bit limbs, most significant first. -/
def limbs (w : Word256) : Vector UInt64 4 :=
  .ofFn fun i => UInt64.ofNat (Bytes.value ((w.byteList.drop (8 * i)).take 8))

/-- The word with the given limbs, most significant first. -/
def ofLimbs (limbs : Vector UInt64 4) : Word256 :=
  ofByteList (limbs.toList.flatMap fun limb => Bytes.ofNat 8 limb.toNat) (by
    simp [List.length_flatMap, List.map_const'])

/-! ## Sum, difference and product -/

/-- The sum modulo 2^256, and whether a carry left the top byte. -/
def addCarry (v w : Word256) : Word256 × Bool :=
  let sum := Bytes.addCarry v.byteList w.byteList
  (ofByteList sum.1 (by simp [sum]), sum.2 != 0)

/-- The difference modulo 2^256, and whether the top byte had to borrow. -/
def subBorrow (v w : Word256) : Word256 × Bool :=
  let difference := Bytes.subBorrow v.byteList w.byteList
  (ofByteList difference.1 (by simp [difference]), difference.2 != 0)

/-- The product modulo 2^256, and whether the exact product has higher bits. -/
def mulOverflow (v w : Word256) : Word256 × Bool :=
  let columns := Limbs.product v.limbs.toList.reverse w.limbs.toList.reverse
  let low := ((columns.take 4).map Limbs.Column.toLimb).reverse
  (ofLimbs ⟨low.toArray, by simp [low, columns]⟩, (columns.drop 4).any (· != 0))

/-- The sum, if it is below 2^256. -/
def add? (v w : Word256) : Option Word256 :=
  match v.addCarry w with
  | (sum, false) => some sum
  | (_, true) => none

/-- The product, if it is below 2^256. -/
def mul? (v w : Word256) : Option Word256 :=
  match v.mulOverflow w with
  | (product, false) => some product
  | (_, true) => none

instance : Sub Word256 where
  sub v w := (v.subBorrow w).1

/-! ## Division by a byte -/

/-- Quotient and remainder by a non-zero byte. -/
def divRem (w : Word256) (divisor : UInt8) : Word256 × UInt8 :=
  let result := Bytes.divRem divisor 0 w.byteList
  (ofByteList result.1 (by simp [result]), result.2.toUInt8)

/-- `divRem` gives the quotient and the remainder of the integer. -/
theorem toNat_divRem (w : Word256) (divisor : UInt8) (h : 0 < divisor.toNat) :
    (w.divRem divisor).1.toNat * divisor.toNat + (w.divRem divisor).2.toNat = w.toNat ∧
      (w.divRem divisor).2.toNat < divisor.toNat := by
  obtain ⟨hval, hlt⟩ := Bytes.value_divRem divisor w.byteList h
  have hd := divisor.toNat_lt
  have hr : (w.divRem divisor).2.toNat = (Bytes.divRem divisor 0 w.byteList).2.toNat := by
    simp only [divRem, UInt16.toNat_toUInt8]
    omega
  refine ⟨?_, by omega⟩
  rw [hr]
  simpa [divRem, toNat] using hval

end FieldWord.Word256

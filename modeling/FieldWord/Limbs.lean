/-!
# Products of 64-bit limbs

Schoolbook multiplication of two limb strings, least significant limb first. The product is built up
in columns of 128 bits: each limb of the left factor adds one row to the columns, from its own
column upwards, and a column keeps only its low 64 bits once the row has passed it.
-/

namespace FieldWord.Limbs

/-- A column of the product while it is built. -/
abbrev Column := BitVec 128

/-- The low 64 bits of a column. -/
def Column.low (c : Column) : Column := c &&& 0xFFFFFFFFFFFFFFFF

/-- The bits of a column above the low 64. -/
def Column.high (c : Column) : Column := c >>> 64

/-- A limb as a column. -/
def Column.ofLimb (a : UInt64) : Column := a.toBitVec.setWidth 128

/-- The limb in the low 64 bits of a column. -/
def Column.toLimb (c : Column) : UInt64 := .ofBitVec (c.setWidth 64)

/-- Adds `a` times the limbs to the columns, passing the carry upwards. The column after the last
    limb takes the carry that is left, and higher columns stay as they are. -/
def addRow (a : UInt64) : (carry : Column) → List UInt64 → List Column → List Column
  | carry, b :: bs, col :: cols =>
    let total := col + Column.ofLimb a * Column.ofLimb b + carry
    total.low :: addRow a total.high bs cols
  | carry, [], col :: cols => (col + carry) :: cols
  | _, _, [] => []

/-- Adds the product of two limb strings to the columns, one row for each limb of the left factor.
    -/
def addRows : List UInt64 → List UInt64 → List Column → List Column
  | [], _, cols => cols
  | a :: as, bs, cols =>
    match addRow a 0 bs cols with
    | [] => []
    | col :: higher => col :: addRows as bs higher

/-- The columns of the product of two limb strings. -/
def product (as bs : List UInt64) : List Column :=
  addRows as bs (List.replicate (as.length + bs.length) 0)

@[simp] theorem length_addRow (a : UInt64) (carry : Column) (bs : List UInt64)
    (cols : List Column) :
    (addRow a carry bs cols).length = cols.length := by
  fun_induction addRow a carry bs cols <;> simp_all

@[simp] theorem length_addRows (as bs : List UInt64) (cols : List Column) :
    (addRows as bs cols).length = cols.length := by
  induction as generalizing cols with
  | nil => rfl
  | cons a as ih =>
    rw [← length_addRow a 0 bs cols, addRows]
    cases addRow a 0 bs cols with
    | nil => rfl
    | cons col higher => simp [ih]

@[simp] theorem length_product (as bs : List UInt64) :
    (product as bs).length = as.length + bs.length := by
  simp [product]

end FieldWord.Limbs

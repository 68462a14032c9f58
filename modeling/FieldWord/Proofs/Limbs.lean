import FieldWord.Limbs
import Mathlib.Data.Nat.Digits.Lemmas
import Mathlib.Tactic.Linarith
import Mathlib.Tactic.LinearCombination
import Mathlib.Tactic.Ring

/-!
# The limb product is exact

Limbs and columns are digits of base `2 ^ 64`, least significant first. A row adds its multiple of
the right factor to the columns, and the rows together add the product: nothing is lost to the 128
bits of a column.

The invariant is `Settled n cols`: every column has given its carry on and is below `2 ^ 64`, and
the columns from place `n` on have not been touched yet. A row over `n` limbs leaves
`Settled (n + 1)`, and the next row starts one column higher.

## Key results

- `toNat_total`: the sum taken in one column fits 128 bits, with nothing to spare
- `columnValue_addRow`, `settled_addRow`: one row
- `columnValue_product`, `toNat_lt_of_mem_product`: the whole product
-/

namespace FieldWord.Limbs

/-- The integer of a limb string, least significant limb first. -/
def limbValue (as : List UInt64) : Nat := Nat.ofDigits (2 ^ 64) (as.map UInt64.toNat)

/-- The integer that columns add up to, lowest column first. -/
def columnValue (cols : List Column) : Nat := Nat.ofDigits (2 ^ 64) (cols.map BitVec.toNat)

@[simp] theorem limbValue_nil : limbValue [] = 0 := rfl

@[simp] theorem limbValue_cons (a : UInt64) (as : List UInt64) :
    limbValue (a :: as) = a.toNat + 2 ^ 64 * limbValue as := by
  simp [limbValue, Nat.ofDigits_cons]

@[simp] theorem columnValue_nil : columnValue [] = 0 := rfl

@[simp] theorem columnValue_cons (col : Column) (cols : List Column) :
    columnValue (col :: cols) = col.toNat + 2 ^ 64 * columnValue cols := by
  simp [columnValue, Nat.ofDigits_cons]

/-- `limbValue` counts the limbs behind with the weight of those in front. -/
theorem limbValue_append (as bs : List UInt64) :
    limbValue (as ++ bs) = limbValue as + (2 ^ 64) ^ as.length * limbValue bs := by
  simp [limbValue, Nat.ofDigits_append]

/-- `columnValue` counts the columns behind with the weight of those in front. -/
theorem columnValue_append (cols higher : List Column) :
    columnValue (cols ++ higher) =
      columnValue cols + (2 ^ 64) ^ cols.length * columnValue higher := by
  simp [columnValue, Nat.ofDigits_append]

/-- `columnValue` is zero exactly for columns that are all zero. -/
theorem columnValue_eq_zero_iff (cols : List Column) :
    columnValue cols = 0 ↔ ∀ col ∈ cols, col = 0 := by
  induction cols with
  | nil => simp
  | cons col cols ih =>
    have hcol : col.toNat = 0 ↔ col = 0 := by
      rw [BitVec.toNat_eq]
      rfl
    rw [columnValue_cons, List.forall_mem_cons, ← ih, ← hcol]
    omega

/-! ## One column -/

@[simp] theorem toNat_zero : (0 : Column).toNat = 0 := rfl

@[simp] theorem zero_add_column (col : Column) : 0 + col = col := BitVec.zero_add col

@[simp] theorem toNat_ofLimb (a : UInt64) : (Column.ofLimb a).toNat = a.toNat := by
  have ha := a.toNat_lt
  simp only [Column.ofLimb, BitVec.toNat_setWidth, UInt64.toNat_toBitVec]
  omega

/-- `Column.low` is what a limb holds of a column. -/
@[simp] theorem toNat_low (col : Column) : col.low.toNat = col.toNat % 2 ^ 64 := by
  rw [Column.low, BitVec.toNat_and, show (0xFFFFFFFFFFFFFFFF : Column).toNat = 2 ^ 64 - 1 from rfl,
    Nat.and_two_pow_sub_one_eq_mod]

/-- `Column.high` is what a limb does not hold of a column. -/
@[simp] theorem toNat_high (col : Column) : col.high.toNat = col.toNat / 2 ^ 64 := by
  rw [Column.high, BitVec.toNat_ushiftRight, Nat.shiftRight_eq_div_pow]

/-- `Column.toLimb` keeps what a limb holds. -/
theorem toNat_toLimb (col : Column) : col.toLimb.toNat = col.toNat % 2 ^ 64 := by
  simp [Column.toLimb]

/-- `Column.toLimb` keeps the integer of columns that are below `2 ^ 64`. -/
theorem limbValue_map_toLimb (cols : List Column) (h : ∀ col ∈ cols, col.toNat < 2 ^ 64) :
    limbValue (cols.map Column.toLimb) = columnValue cols := by
  induction cols with
  | nil => rfl
  | cons col cols ih =>
    obtain ⟨hcol, hcols⟩ := List.forall_mem_cons.mp h
    rw [List.map_cons, limbValue_cons, columnValue_cons, ih hcols, toNat_toLimb,
      Nat.mod_eq_of_lt hcol]

/-- `columnValue` of columns below `2 ^ 64` is below the weight of the next one. -/
theorem columnValue_lt (cols : List Column) (h : ∀ col ∈ cols, col.toNat < 2 ^ 64) :
    columnValue cols < (2 ^ 64) ^ cols.length := by
  have hdigits : ∀ n ∈ cols.map BitVec.toNat, n < 2 ^ 64 := by simpa using h
  simpa [columnValue] using Nat.ofDigits_lt_base_pow_length (by norm_num) hdigits

/-- A column, the product of two limbs and a carry fit 128 bits together: the bound is met by the
    largest operands. -/
theorem total_lt (a b : UInt64) {col carry : Nat} (hcol : col < 2 ^ 64) (hcarry : carry < 2 ^ 64) :
    col + a.toNat * b.toNat + carry < 2 ^ 128 := by
  have ha : a.toNat ≤ 2 ^ 64 - 1 := Nat.le_sub_one_of_lt a.toNat_lt
  have hb : b.toNat ≤ 2 ^ 64 - 1 := Nat.le_sub_one_of_lt b.toNat_lt
  have hab := Nat.mul_le_mul ha hb
  omega

/-- `Column.ofLimb` of two limbs has a product that fits the column. -/
theorem toNat_ofLimb_mul (a b : UInt64) :
    (Column.ofLimb a * Column.ofLimb b).toNat = a.toNat * b.toNat := by
  have hproduct := total_lt a b (Nat.two_pow_pos 64) (Nat.two_pow_pos 64)
  rw [BitVec.toNat_mul, toNat_ofLimb, toNat_ofLimb, Nat.mod_eq_of_lt (by omega)]

/-- The sum that `addRow` takes in one column is the exact one. -/
theorem toNat_total (a b : UInt64) (col carry : Column) (hcol : col.toNat < 2 ^ 64)
    (hcarry : carry.toNat < 2 ^ 64) :
    (col + Column.ofLimb a * Column.ofLimb b + carry).toNat =
      col.toNat + a.toNat * b.toNat + carry.toNat := by
  have htotal := total_lt a b hcol hcarry
  have hsum : col.toNat + a.toNat * b.toNat < 2 ^ 128 := by omega
  rw [BitVec.toNat_add, BitVec.toNat_add, toNat_ofLimb_mul, Nat.mod_eq_of_lt hsum,
    Nat.mod_eq_of_lt htotal]

/-! ## Rows -/

/-- Every column is below `2 ^ 64`, and those from place `n` on are still zero. -/
def Settled : (n : Nat) → List Column → Prop
  | 0, cols => ∀ col ∈ cols, col = 0
  | _ + 1, [] => True
  | n + 1, col :: cols => col.toNat < 2 ^ 64 ∧ Settled n cols

/-- Settled columns are below `2 ^ 64`. -/
theorem Settled.toNat_lt {n : Nat} {cols : List Column} (h : Settled n cols) :
    ∀ col ∈ cols, col.toNat < 2 ^ 64 := by
  induction n generalizing cols with
  | zero =>
    intro col hcol
    rw [h col hcol]
    decide
  | succ n ih =>
    cases cols with
    | nil => simp
    | cons col cols => exact List.forall_mem_cons.mpr ⟨h.1, ih h.2⟩

/-- `Settled` holds of columns that are all zero. -/
theorem settled_replicate_zero (n len : Nat) : Settled n (List.replicate len 0) := by
  induction n generalizing len with
  | zero => exact fun col hcol => List.eq_of_mem_replicate hcol
  | succ n ih =>
    cases len with
    | zero => trivial
    | succ len => exact ⟨by decide, ih len⟩

/-- `addRow` settles its columns and the one above them. -/
theorem settled_addRow (a : UInt64) (carry : Column) (bs : List UInt64) (cols : List Column)
    (hcarry : carry.toNat < 2 ^ 64) (hcols : Settled bs.length cols) :
    Settled (bs.length + 1) (addRow a carry bs cols) := by
  induction bs generalizing carry cols with
  | nil =>
    cases cols with
    | nil => trivial
    | cons col cols =>
      obtain ⟨hcol, hhigher⟩ := List.forall_mem_cons.mp hcols
      -- The column above the limbs is still zero, so the carry alone stands in it.
      refine ⟨?_, hhigher⟩
      rw [hcol, zero_add_column]
      exact hcarry
  | cons b bs ih =>
    cases cols with
    | nil => trivial
    | cons col cols =>
      have htotal := toNat_total a b col carry hcols.1 hcarry
      have hlt := total_lt a b hcols.1 hcarry
      -- The low half stays in the column, and the high half is the next carry.
      refine ⟨?_, ih _ cols ?_ hcols.2⟩
      · rw [toNat_low]
        exact Nat.mod_lt _ (by decide)
      · rw [toNat_high, htotal]
        omega

/-- `addRow` adds its multiple of the limbs, and the carry it starts with. -/
theorem columnValue_addRow (a : UInt64) (carry : Column) (bs : List UInt64)
    (cols : List Column) (hlen : bs.length < cols.length) (hcarry : carry.toNat < 2 ^ 64)
    (hcols : Settled bs.length cols) :
    columnValue (addRow a carry bs cols) =
      columnValue cols + a.toNat * limbValue bs + carry.toNat := by
  induction bs generalizing carry cols with
  | nil =>
    cases cols with
    | nil => simp at hlen
    | cons col cols =>
      -- The column above the limbs was never touched, so it takes the carry as it is.
      have hcol : col = 0 := (List.forall_mem_cons.mp hcols).1
      simp only [addRow, hcol, zero_add_column, columnValue_cons, limbValue_nil, toNat_zero]
      ring
  | cons b bs ih =>
    cases cols with
    | nil => simp at hlen
    | cons col cols =>
      have htotal := toNat_total a b col carry hcols.1 hcarry
      have hlt := total_lt a b hcols.1 hcarry
      have hhigh : (col + Column.ofLimb a * Column.ofLimb b + carry).high.toNat < 2 ^ 64 := by
        rw [toNat_high, htotal]
        omega
      simp only [addRow, columnValue_cons, limbValue_cons]
      rw [ih _ cols (by simpa using hlen) hhigh hcols.2, toNat_low, toNat_high, htotal]
      -- What stays and what is carried are the remainder and the quotient by `2 ^ 64`.
      have hsplit := Nat.mod_add_div (col.toNat + a.toNat * b.toNat + carry.toNat) (2 ^ 64)
      linear_combination hsplit

/-- `addRows` settles every column and adds the product of the two limb strings. -/
private theorem addRows_spec (as bs : List UInt64) (cols : List Column)
    (hlen : as.length + bs.length ≤ cols.length) (hcols : Settled bs.length cols) :
    columnValue (addRows as bs cols) = columnValue cols + limbValue as * limbValue bs ∧
      ∀ col ∈ addRows as bs cols, col.toNat < 2 ^ 64 := by
  induction as generalizing cols with
  | nil => simpa [addRows] using hcols.toNat_lt
  | cons a as ih =>
    simp only [List.length_cons] at hlen
    have hvalue := columnValue_addRow a 0 bs cols (by omega) (by decide) hcols
    have hsettled := settled_addRow a 0 bs cols (by decide) hcols
    have hlength := length_addRow a 0 bs cols
    simp only [addRows]
    cases hrow : addRow a 0 bs cols with
    | nil =>
      -- A row does not change the number of columns, so there is a lowest one.
      rw [hrow, List.length_nil] at hlength
      omega
    | cons col higher =>
      rw [hrow] at hvalue hsettled hlength
      simp only [List.length_cons] at hlength
      -- The lowest column is final; the remaining rows work on the columns above it.
      obtain ⟨ihvalue, ihlt⟩ := ih higher (by omega) hsettled.2
      refine ⟨?_, List.forall_mem_cons.mpr ⟨hsettled.1, ihlt⟩⟩
      simp only [columnValue_cons, limbValue_cons, ihvalue, toNat_zero] at hvalue ⊢
      linear_combination hvalue

/-! ## The product -/

/-- `product` is the product of the integers. -/
theorem columnValue_product (as bs : List UInt64) :
    columnValue (product as bs) = limbValue as * limbValue bs := by
  have hzero : columnValue (List.replicate (as.length + bs.length) 0) = 0 :=
    (columnValue_eq_zero_iff _).mpr fun col hcol => List.eq_of_mem_replicate hcol
  rw [product, (addRows_spec as bs _ (by simp) (settled_replicate_zero _ _)).1, hzero, Nat.zero_add]

/-- `product` has all its columns below `2 ^ 64`. -/
theorem toNat_lt_of_mem_product (as bs : List UInt64) : ∀ col ∈ product as bs, col.toNat < 2 ^ 64 :=
  (addRows_spec as bs _ (by simp) (settled_replicate_zero _ _)).2

end FieldWord.Limbs

import FieldWord.Proofs.Views
import Mathlib.Logic.Relation

/-!
# No column of a product overflows

Multiplication goes through the limbs of the left factor row by row, and in each row through the
limbs of the right factor. At every place it adds the column there, the product of two limbs and the
carry in 128 bits, and at the end of the row it adds the last carry to the column above. Here the
work is followed step by step, with all columns in view: the largest sum that can come up is the
largest integer of 128 bits, so none of them wraps around.

The invariant is `Fits`. It says which columns are still zero: those above the row, so that the last
carry of a row always comes into an empty column.

## Key results

- `settled_iff`: settled columns, by their places
- `Fits.step`, `Reached.fits`: one step, and all steps up to any point of the work
- `Fits.sum_le`, `Fits.column_above`: the sums of a row, and the column that takes its last carry
- `reached_product`, `Reached.product`: the work ends with the columns of `Limbs.product`
- `Word256.mulOverflow_fits`: what that means for the product of two words
-/

namespace FieldWord.Limbs

variable {as bs : List UInt64}

/-! ## Places of columns -/

/-- `Settled` by places: every column is below `2 ^ 64`, and zero from place `n` on. -/
theorem settled_iff {n : Nat} {cols : List Column} :
    Settled n cols ↔ ∀ k col, cols[k]? = some col → col.toNat < 2 ^ 64 ∧ (n ≤ k → col = 0) := by
  constructor
  · intro h k col hcol
    refine ⟨h.toNat_lt col (List.mem_of_getElem? hcol), ?_⟩
    -- Each of the first `n` columns takes one off the place.
    induction n generalizing cols k with
    | zero => exact fun _ => h col (List.mem_of_getElem? hcol)
    | succ n ih =>
      intro hk
      obtain ⟨k, rfl⟩ := Nat.exists_eq_add_one_of_ne_zero (show k ≠ 0 by omega)
      cases cols with
      | nil => simp at hcol
      | cons first cols => exact ih h.2 k hcol (by omega)
  · intro h
    induction n generalizing cols with
    | zero =>
      intro col hcol
      obtain ⟨k, hk⟩ := List.mem_iff_getElem?.mp hcol
      exact (h k col hk).2 (Nat.zero_le k)
    | succ n ih =>
      cases cols with
      | nil => trivial
      | cons col cols =>
        refine ⟨(h 0 col rfl).1, ih ?_⟩
        intro k higher hk
        obtain ⟨hlt, hzero⟩ := h (k + 1) higher hk
        exact ⟨hlt, fun hle => hzero (by omega)⟩

/-- A column below `2 ^ 64` may be put in any place up to the first that is still zero. -/
private theorem Settled.set {n m k : Nat} {cols : List Column} {col : Column} (h : Settled n cols)
    (hcol : col.toNat < 2 ^ 64) (hnm : n ≤ m) (hk : k < m) : Settled m (cols.set k col) := by
  rw [settled_iff] at h ⊢
  intro i found hfound
  rw [List.getElem?_set] at hfound
  split at hfound
  · -- The place that was set, which is below `m`.
    split at hfound
    · obtain rfl := Option.some.inj hfound
      exact ⟨hcol, fun hle => by omega⟩
    · cases hfound
  · -- Any other place is as it was.
    obtain ⟨hlt, hzero⟩ := h i found hfound
    exact ⟨hlt, fun hle => hzero (by omega)⟩

/-! ## Steps -/

/-- A product while it is built. -/
structure Progress where
  /-- All columns, the lowest first. -/
  columns : List Column
  /-- The place of the limb of the left factor whose row is added. -/
  row : Nat
  /-- The place of the limb of the right factor that is next in the row. -/
  place : Nat
  /-- The carry into the column of that place. -/
  carry : Column
deriving DecidableEq, Repr

namespace Progress

/-- Before the first row all columns are zero. -/
def start (as bs : List UInt64) : Progress := ⟨List.replicate (as.length + bs.length) 0, 0, 0, 0⟩

/-- The steps in which a product is built. -/
inductive Step (as bs : List UInt64) : Progress → Progress → Prop where
  /-- A limb of the right factor: the column keeps the low half of the sum, and the high half is
      carried. -/
  | cell {columns : List Column} {row place : Nat} {carry col total : Column} {a b : UInt64}
      (ha : as[row]? = some a) (hb : bs[place]? = some b) (hcol : columns[row + place]? = some col)
      (htotal : total = col + Column.ofLimb a * Column.ofLimb b + carry) :
      Step as bs ⟨columns, row, place, carry⟩
        ⟨columns.set (row + place) total.low, row, place + 1, total.high⟩
  /-- The end of a row: the column above takes the carry, and the next row starts. -/
  | top {columns : List Column} {row : Nat} {carry col : Column} {a : UInt64}
      (ha : as[row]? = some a) (hcol : columns[row + bs.length]? = some col) :
      Step as bs ⟨columns, row, bs.length, carry⟩
        ⟨columns.set (row + bs.length) (col + carry), row + 1, 0, 0⟩

/-- What the work on a product comes to. -/
def Reached (as bs : List UInt64) (progress : Progress) : Prop :=
  Relation.ReflTransGen (Step as bs) (start as bs) progress

/-- `Step` goes on only while there is a row. -/
private theorem Step.row_lt {progress next : Progress} (h : Step as bs progress next) :
    progress.row < as.length := by
  cases h with
  | cell ha => exact (List.getElem?_eq_some_iff.mp ha).1
  | top ha => exact (List.getElem?_eq_some_iff.mp ha).1

/-- `Step` leaves no choice. -/
theorem Step.unique {progress next other : Progress} (hnext : Step as bs progress next)
    (hother : Step as bs progress other) : next = other := by
  cases hnext with
  | cell ha hb hcol htotal =>
    cases hother with
    | cell ha' hb' hcol' htotal' => simp_all
    | top => simp at hb
  | top ha hcol =>
    cases hother with
    | cell ha' hb' => simp at hb'
    | top ha' hcol' => simp_all

/-! ## The sums of the steps -/

/-- Carry and columns are below `2 ^ 64`, and the columns above the row are still zero. -/
structure Fits (as bs : List UInt64) (progress : Progress) : Prop where
  length_columns : progress.columns.length = as.length + bs.length
  carry_lt : progress.carry.toNat < 2 ^ 64
  settled : Settled (progress.row + bs.length) progress.columns

/-- `Fits` holds before the first step. -/
private theorem fits_start (as bs : List UInt64) : Fits as bs (start as bs) where
  length_columns := by simp [start]
  carry_lt := by simp [start]
  settled := settled_replicate_zero _ _

/-- `Fits` is kept by every step. -/
theorem Fits.step {progress next : Progress} (h : Fits as bs progress)
    (hstep : Step as bs progress next) :
    Fits as bs next := by
  obtain ⟨hlength, hcarry, hsettled⟩ := h
  cases hstep with
  | @cell columns row place carry col total a b ha hb hcol htotal =>
    have hplace := (List.getElem?_eq_some_iff.mp hb).1
    have hlt := (settled_iff.mp hsettled _ _ hcol).1
    -- The sum is exact, so both halves of it are below `2 ^ 64`.
    have hsum := toNat_total a b col carry hlt hcarry
    have hbound := total_lt a b hlt hcarry
    rw [← htotal] at hsum
    have hlow : total.low.toNat < 2 ^ 64 := by rw [toNat_low]; omega
    have hhigh : total.high.toNat < 2 ^ 64 := by rw [toNat_high]; omega
    exact ⟨by simpa using hlength, hhigh, hsettled.set hlow (Nat.le_refl _) (by simpa using hplace)⟩
  | @top columns row carry col a ha hcol =>
    -- The column above the row is zero, so that only the carry stands in it afterwards.
    have hzero := (settled_iff.mp hsettled _ _ hcol).2 (Nat.le_refl _)
    have hsum : (col + carry).toNat < 2 ^ 64 := by rwa [hzero, zero_add_column]
    exact ⟨by simpa using hlength, by simp, hsettled.set hsum (by simp) (by simp)⟩

/-- `Fits` holds at every point that is reached. -/
theorem Reached.fits {progress : Progress} (h : Reached as bs progress) : Fits as bs progress := by
  induction h with
  | refl => exact fits_start as bs
  | tail _ hstep ih => exact ih.step hstep

/-- The operations in which `addRow` takes the sum of a column do not wrap around. -/
private theorem total_no_overflow (a b : UInt64) {col carry : Column} (hcol : col.toNat < 2 ^ 64)
    (hcarry : carry.toNat < 2 ^ 64) :
    (Column.ofLimb a).umulOverflow (Column.ofLimb b) = false ∧
      col.uaddOverflow (Column.ofLimb a * Column.ofLimb b) = false ∧
      (col + Column.ofLimb a * Column.ofLimb b).uaddOverflow carry = false := by
  have htotal := total_lt a b hcol hcarry
  have hsum : (col + Column.ofLimb a * Column.ofLimb b).toNat = col.toNat + a.toNat * b.toNat := by
    rw [BitVec.toNat_add, toNat_ofLimb_mul, Nat.mod_eq_of_lt (by omega)]
  simp only [BitVec.umulOverflow, BitVec.uaddOverflow, toNat_ofLimb, toNat_ofLimb_mul, hsum,
    decide_eq_false_iff_not]
  omega

/-- Where `Fits` holds there is a column at every place of a row, and the sum that is taken there
    fits 128 bits. -/
theorem Fits.sum_le {progress : Progress} {a b : UInt64} (h : Fits as bs progress)
    (ha : as[progress.row]? = some a) (hb : bs[progress.place]? = some b) :
    ∃ col, progress.columns[progress.row + progress.place]? = some col ∧
      col.toNat + a.toNat * b.toNat + progress.carry.toNat ≤ 2 ^ 128 - 1 ∧
      (Column.ofLimb a).umulOverflow (Column.ofLimb b) = false ∧
      col.uaddOverflow (Column.ofLimb a * Column.ofLimb b) = false ∧
      (col + Column.ofLimb a * Column.ofLimb b).uaddOverflow progress.carry = false := by
  obtain ⟨hlength, hcarry, hsettled⟩ := h
  have hrow := (List.getElem?_eq_some_iff.mp ha).1
  have hplace := (List.getElem?_eq_some_iff.mp hb).1
  have hcol :=
    List.getElem?_eq_getElem (show progress.row + progress.place < progress.columns.length by omega)
  have hlt := (settled_iff.mp hsettled _ _ hcol).1
  exact ⟨_, hcol, Nat.le_sub_one_of_lt (total_lt a b hlt hcarry), total_no_overflow a b hlt hcarry⟩

/-- Where `Fits` holds there is a column above every row, which is still zero, so that it has room
    for the carry. -/
theorem Fits.column_above {progress : Progress} (h : Fits as bs progress)
    (hrow : progress.row < as.length) :
    progress.columns[progress.row + bs.length]? = some 0 ∧
      (0 : Column).uaddOverflow progress.carry = false := by
  obtain ⟨hlength, hcarry, hsettled⟩ := h
  have hcol :=
    List.getElem?_eq_getElem (show progress.row + bs.length < progress.columns.length by omega)
  have hzero := (settled_iff.mp hsettled _ _ hcol).2 (Nat.le_refl _)
  refine ⟨by rw [hcol, hzero], ?_⟩
  simp only [BitVec.uaddOverflow, toNat_zero, decide_eq_false_iff_not]
  omega

/-! ## The end of the work -/

/-- The steps of `addRow`, from any place in the row. -/
private theorem reaches_addRow {a : UInt64} {row : Nat} (ha : as[row]? = some a)
    (before rest : List UInt64) (below cols : List Column) (carry : Column)
    (hbelow : below.length = row + before.length) (hcols : rest.length < cols.length) :
    Relation.ReflTransGen (Step as (before ++ rest)) ⟨below ++ cols, row, before.length, carry⟩
      ⟨below ++ addRow a carry rest cols, row + 1, 0, 0⟩ := by
  induction rest generalizing before below cols carry with
  | nil =>
    cases cols with
    | nil => simp at hcols
    | cons col cols =>
      -- Behind the last limb the carry goes to the column above.
      have hcol : (below ++ col :: cols)[row + (before ++ []).length]? = some col := by
        simp [← hbelow]
      have hstep :
          Step as (before ++ []) ⟨below ++ col :: cols, row, (before ++ []).length, carry⟩ _ :=
        .top ha hcol
      simpa [addRow, ← hbelow] using Relation.ReflTransGen.single hstep
  | cons b rest ih =>
    cases cols with
    | nil => simp at hcols
    | cons col cols =>
      have hb : (before ++ b :: rest)[before.length]? = some b := by simp
      have hcol : (below ++ col :: cols)[row + before.length]? = some col := by simp [← hbelow]
      have hstep :
          Step as (before ++ b :: rest) ⟨below ++ col :: cols, row, before.length, carry⟩ _ :=
        .cell ha hb hcol rfl
      let total := col + Column.ofLimb a * Column.ofLimb b + carry
      -- The column of the place is done with, and joins those below.
      have hrest := ih (before ++ [b]) (below ++ [total.low]) cols total.high
        (by simp only [List.length_append, List.length_singleton]; omega) (by simpa using hcols)
      refine .head hstep ?_
      simpa [addRow, total, ← hbelow] using hrest

/-- The steps of `addRows`, from any row on. -/
private theorem reaches_addRows (before rest bs : List UInt64) (below cols : List Column)
    (hbelow : below.length = before.length) (hcols : rest.length + bs.length ≤ cols.length) :
    Relation.ReflTransGen (Step (before ++ rest) bs) ⟨below ++ cols, before.length, 0, 0⟩
      ⟨below ++ addRows rest bs cols, (before ++ rest).length, 0, 0⟩ := by
  induction rest generalizing before below cols with
  | nil => simpa [addRows] using Relation.ReflTransGen.refl
  | cons a rest ih =>
    rw [List.length_cons] at hcols
    have ha : (before ++ a :: rest)[before.length]? = some a := by simp
    have hrow := reaches_addRow ha [] bs below cols 0 (by simpa using hbelow) (by omega)
    have hlength := length_addRow a 0 bs cols
    simp only [addRows]
    cases haddRow : addRow a 0 bs cols with
    | nil =>
      rw [haddRow, List.length_nil] at hlength
      omega
    | cons col higher =>
      rw [haddRow] at hlength hrow
      rw [List.length_cons] at hlength
      -- The lowest column of the row is final.
      have hrest := ih (before ++ [a]) (below ++ [col]) higher (by simp [hbelow]) (by omega)
      refine .trans hrow ?_
      simpa using hrest

/-- The steps end with the columns of `product`. -/
theorem reached_product (as bs : List UInt64) : Reached as bs ⟨product as bs, as.length, 0, 0⟩ :=
  reaches_addRows [] as bs [] _ rfl (by simp)

/-- From every point that is reached, the steps go on to `product`. -/
theorem Reached.product {progress : Progress} (h : Reached as bs progress) :
    Relation.ReflTransGen (Step as bs) progress ⟨product as bs, as.length, 0, 0⟩ := by
  have hunique : Relator.RightUnique (Step as bs) := fun _ _ _ => Step.unique
  cases h.total_of_right_unique hunique (reached_product as bs) with
  | inl hto => exact hto
  | inr hfrom =>
    -- Behind the last row there is no further step.
    cases hfrom.cases_head with
    | inl heq => rw [heq]
    | inr hstep =>
      obtain ⟨next, hnext, -⟩ := hstep
      exact absurd hnext.row_lt (Nat.lt_irrefl _)

end Progress

end FieldWord.Limbs

namespace FieldWord.Word256

open Limbs Limbs.Progress

/-! ## Products of words -/

/-- The limbs of a word as a factor, least significant first. -/
def factor (w : Word256) : List UInt64 := w.limbs.toList.reverse

@[simp] theorem length_factor (w : Word256) : w.factor.length = 4 := by
  simp [factor]

/-- `mulOverflow` gives the low columns of the product, each cast to a limb. -/
private theorem factor_mulOverflow (v w : Word256) :
    (v.mulOverflow w).1.factor = ((product v.factor w.factor).take 4).map Column.toLimb := by
  rw [mulOverflow, factor, limbs_ofLimbs, Vector.toList_mk, List.reverse_reverse]
  rfl

/-- Nothing is lost on the way to the product of two words by `mulOverflow`. At every point of the
    work the carry and all columns are below `2 ^ 64`. The sum that comes next fits 128 bits, and so
    do the product and the sum that are taken on the way to it. The column that will take the last
    carry of the row is still zero. From there the work goes on, row by row, to the columns of the
    product, and the limbs of the result are the low columns, of which the casts keep everything. -/
theorem mulOverflow_fits (v w : Word256) :
    (∀ progress, Reached v.factor w.factor progress →
      progress.carry.toNat < 2 ^ 64 ∧ (∀ col ∈ progress.columns, col.toNat < 2 ^ 64) ∧
      (∀ a b, v.factor[progress.row]? = some a → w.factor[progress.place]? = some b →
        ∃ col, progress.columns[progress.row + progress.place]? = some col ∧
          col.toNat + a.toNat * b.toNat + progress.carry.toNat ≤ 2 ^ 128 - 1 ∧
          (Column.ofLimb a).umulOverflow (Column.ofLimb b) = false ∧
          col.uaddOverflow (Column.ofLimb a * Column.ofLimb b) = false ∧
          (col + Column.ofLimb a * Column.ofLimb b).uaddOverflow progress.carry = false) ∧
      (progress.row < 4 →
        progress.columns[progress.row + 4]? = some 0 ∧
        (0 : Column).uaddOverflow progress.carry = false) ∧
      Relation.ReflTransGen (Step v.factor w.factor) progress
        ⟨product v.factor w.factor, 4, 0, 0⟩) ∧
    (v.mulOverflow w).1.factor.map UInt64.toNat =
      ((product v.factor w.factor).take 4).map BitVec.toNat := by
  constructor
  · -- `Fits` holds at every point that is reached.
    intro progress hprogress
    have hfits := hprogress.fits
    have habove := hfits.column_above
    have hproduct := hprogress.product
    simp only [length_factor] at habove hproduct
    exact ⟨hfits.carry_lt, hfits.settled.toNat_lt, fun a b => hfits.sum_le, habove, hproduct⟩
  · -- The casts keep the columns of the product, which are below `2 ^ 64`.
    rw [factor_mulOverflow, List.map_map]
    apply List.map_congr_left
    intro col hcol
    have hlt := toNat_lt_of_mem_product _ _ col (List.mem_of_mem_take hcol)
    rw [Function.comp_apply, toNat_toLimb, Nat.mod_eq_of_lt hlt]

/-- In the square of `max` the second sum of the second row is the largest integer of 128 bits. -/
theorem mulOverflow_fits_max :
    Reached max.factor max.factor
      ⟨[1, 0, 0xFFFFFFFFFFFFFFFF, 0xFFFFFFFFFFFFFFFF, 0xFFFFFFFFFFFFFFFE, 0, 0, 0], 1, 1,
        0xFFFFFFFFFFFFFFFF⟩ ∧
    max.factor[1]? = some 0xFFFFFFFFFFFFFFFF ∧
    (0xFFFFFFFFFFFFFFFF + Column.ofLimb 0xFFFFFFFFFFFFFFFF * Column.ofLimb 0xFFFFFFFFFFFFFFFF +
      0xFFFFFFFFFFFFFFFF).toNat = 2 ^ 128 - 1 ∧
    (0xFFFFFFFFFFFFFFFF +
        Column.ofLimb 0xFFFFFFFFFFFFFFFF * Column.ofLimb 0xFFFFFFFFFFFFFFFF).uaddOverflow
      0xFFFFFFFFFFFFFFFF = false := by
  have hmax : max.factor = List.replicate 4 0xFFFFFFFFFFFFFFFF := by decide
  have hlimb : ∀ i < 4, max.factor[i]? = some 0xFFFFFFFFFFFFFFFF := by
    rw [hmax]
    decide
  have hcolumns : addRow 0xFFFFFFFFFFFFFFFF 0 max.factor (List.replicate 8 0) =
      [1, 0xFFFFFFFFFFFFFFFF, 0xFFFFFFFFFFFFFFFF, 0xFFFFFFFFFFFFFFFF, 0xFFFFFFFFFFFFFFFE,
        0, 0, 0] := by
    rw [hmax]
    decide
  -- The first row, and then the first step of the second.
  have hrow :=
    reaches_addRow (hlimb 0 (by decide)) [] max.factor [] (List.replicate 8 0) 0 rfl (by simp)
  rw [hcolumns] at hrow
  have hreached := hrow.tail (.cell (hlimb 1 (by decide)) (hlimb 0 (by decide)) rfl rfl)
  obtain ⟨-, -, hsums, -⟩ := (mulOverflow_fits max max).1 _ hreached
  obtain ⟨col, hcol, -, -, -, hsum⟩ := hsums _ _ (hlimb 1 (by decide)) (hlimb 1 (by decide))
  obtain rfl := Option.some.inj hcol
  exact ⟨hreached, hlimb 1 (by decide), by decide, hsum⟩

end FieldWord.Word256

import FieldWord.Bytes.Lemmas
import Mathlib.Tactic.Linarith
import Mathlib.Tactic.LinearCombination
import Mathlib.Tactic.Ring

/-!
# Byte strings as integers

`Bytes.value` is a positional notation: a byte string of length `n` stands for an integer below
`256 ^ n`, every such integer has exactly one string of that length, and the strings of one length
are ordered like their integers. The carry and borrow chains are exact with respect to it.

## Key results

- `value_inj`, `value_ofNat`: strings of one length and the integers below `256 ^ n` correspond
- `compare_eq_compare_value`: comparing bytes from the first on compares the integers
- `addCarry_eq_steps`, `carry_le_of_mem_addSteps`: the steps of the carry chain, and that each
  carries a bit
- `value_addCarry`, `value_subBorrow`: sum and difference with the bit that leaves the top
-/

namespace FieldWord.Bytes

/-- Induction on two strings of one length, a byte of each at a time. -/
@[elab_as_elim]
private theorem sameLength_induction {motive : (as bs : List UInt8) → as.length = bs.length → Prop}
    (nil : motive [] [] rfl)
    (cons : ∀ a as b bs (hlen : as.length = bs.length), motive as bs hlen →
      motive (a :: as) (b :: bs) (by simp [hlen]))
    (as bs : List UInt8) (hlen : as.length = bs.length) : motive as bs hlen := by
  induction as generalizing bs with
  | nil =>
    cases bs with
    | nil => exact nil
    | cons b bs => simp at hlen
  | cons a as ih =>
    cases bs with
    | nil => simp at hlen
    | cons b bs => exact cons a as b bs (by simpa using hlen) (ih bs _)

/-! ## Positional notation -/

/-- `valueFrom` counts the bytes already read with the weight of the place they have reached. -/
private theorem valueFrom_eq (n : Nat) (bs : List UInt8) :
    valueFrom n bs = n * 256 ^ bs.length + value bs := by
  unfold value
  induction bs generalizing n with
  | nil => simp [valueFrom]
  | cons b bs ih =>
    simp only [valueFrom, List.length_cons]
    rw [ih (n * 256 + b.toNat), ih (0 * 256 + b.toNat)]
    ring

@[simp] theorem value_nil : value [] = 0 := rfl

/-- `value` counts the first byte most. -/
theorem value_cons (b : UInt8) (bs : List UInt8) :
    value (b :: bs) = b.toNat * 256 ^ bs.length + value bs := by
  rw [value, valueFrom, valueFrom_eq]
  simp

/-- `value` counts the bytes in front with the weight of those behind. -/
theorem value_append (as bs : List UInt8) :
    value (as ++ bs) = value as * 256 ^ bs.length + value bs := by
  induction as with
  | nil => simp
  | cons a as ih =>
    rw [List.cons_append, value_cons, value_cons, ih, List.length_append, pow_add]
    ring

/-- `value` is the same with zero bytes in front. -/
@[simp] theorem value_replicate_zero_append (n : Nat) (bs : List UInt8) :
    value (List.replicate n 0 ++ bs) = value bs := by
  have hzero : value (List.replicate n 0) = 0 := by
    rw [value_eq_zero_iff]
    intro b hb
    exact List.eq_of_mem_replicate hb
  rw [value_append, hzero, Nat.zero_mul, Nat.zero_add]

/-- A byte has eight bits. -/
theorem base_pow (n : Nat) : 256 ^ n = 2 ^ (8 * n) := by
  rw [pow_mul]
  norm_num

/-- `value` of a string is below the weight of the next byte in front. -/
theorem value_lt (bs : List UInt8) : value bs < 256 ^ bs.length := by
  induction bs with
  | nil => simp
  | cons b bs ih =>
    have hb := b.toNat_lt
    rw [value_cons, List.length_cons, pow_succ]
    nlinarith

/-- `value` gives back what `ofNat` wrote, up to what does not fit. -/
theorem value_ofNat (len n : Nat) : value (ofNat len n) = n % 256 ^ len := by
  induction len generalizing n with
  | zero => simp [ofNat, Nat.mod_one]
  | succ len ih =>
    rw [ofNat, value_append, ih, value_cons, value_nil, pow_succ, Nat.mul_comm (256 ^ len) 256,
      Nat.mod_mul]
    simp
    ring

/-- `value` tells strings of one length apart. -/
theorem value_inj {as bs : List UInt8} (hlen : as.length = bs.length) (h : value as = value bs) :
    as = bs := by
  induction as, bs, hlen using sameLength_induction with
  | nil => rfl
  | cons a as b bs hlen ih =>
    rw [value_cons, value_cons, hlen] at h
    have has := value_lt as
    have hbs := value_lt bs
    rw [hlen] at has
    -- The tails are below one unit of the first place, so both places agree.
    have hab : a.toNat = b.toNat := by nlinarith
    have htail : value as = value bs := by
      rw [hab] at h
      omega
    rw [UInt8.toNat_inj.mp hab, ih htail]

/-- `ofNat` writes the string of an integer that `value` took from it. -/
theorem ofNat_value (bs : List UInt8) : ofNat bs.length (value bs) = bs := by
  apply value_inj (by simp)
  rw [value_ofNat, Nat.mod_eq_of_lt (value_lt bs)]

/-! ## Order -/

/-- `compare` of two strings of one length, from the first byte on, compares their integers: a
    larger byte outweighs everything behind it. -/
theorem compare_eq_compare_value {as bs : List UInt8} (hlen : as.length = bs.length) :
    compare as bs = compare (value as) (value bs) := by
  induction as, bs, hlen using sameLength_induction with
  | nil => rfl
  | cons a as b bs hlen ih =>
    have has := value_lt as
    have hbs := value_lt bs
    rw [List.compare_cons_cons, ih, value_cons, value_cons, hlen]
    rw [hlen] at has
    rcases Nat.lt_trichotomy a.toNat b.toNat with hab | hab | hab
    · -- The first bytes decide: the tails are below one unit of their place.
      have hc : compare a b = .lt := Std.compare_eq_lt.mpr hab
      rw [hc, Ordering.lt_then, eq_comm, Nat.compare_eq_lt]
      nlinarith
    · -- Equal first bytes leave the decision to the tails.
      have hc : compare a b = .eq := Std.compare_eq_iff_eq.mpr (UInt8.toNat_inj.mp hab)
      rw [hc, Ordering.eq_then, hab]
      simp [Nat.compare_eq_ite_lt]
    · -- As in the first case, the other way round.
      have hc : compare a b = .gt := Std.compare_eq_gt.mpr hab
      rw [hc, Ordering.gt_then, eq_comm, Nat.compare_eq_gt]
      nlinarith

/-! ## The carry chain step by step -/

/-- One step of the carry chain: the two bytes of a place, and the carry from the place behind it.
    -/
structure AddStep where
  left : UInt8
  right : UInt8
  carry : UInt16
deriving DecidableEq, Repr

namespace AddStep

/-- The sum that the step takes, in 16 bits. -/
def sum (step : AddStep) : UInt16 := step.left.toUInt16 + step.right.toUInt16 + step.carry

/-- The byte that the step gives. -/
def byte (step : AddStep) : UInt8 := step.sum.toUInt8

/-- The carry that the step passes on. -/
def carryOut (step : AddStep) : UInt16 := step.sum >>> 8

/-- `byte` and `carryOut` are the remainder and the quotient of `sum` by 256. -/
private theorem byte_add_carryOut (step : AddStep) :
    step.byte.toNat + step.carryOut.toNat * 256 = step.sum.toNat := by
  have hbyte : step.byte.toNat = step.sum.toNat % 256 := UInt16.toNat_toUInt8 step.sum
  have hout : step.carryOut.toNat = step.sum.toNat / 256 := by
    rw [carryOut, UInt16.toNat_shiftRight, Nat.shiftRight_eq_div_pow]
    rfl
  omega

/-- `sum` of a step that gets a bit as carry stays far below 16 bits, and the step passes a bit on.
    -/
theorem toNat_sum_le (step : AddStep) (hcarry : step.carry.toNat ≤ 1) :
    step.sum.toNat = step.left.toNat + step.right.toNat + step.carry.toNat ∧
      step.sum.toNat ≤ 511 ∧ step.carryOut.toNat ≤ 1 := by
  have hleft := step.left.toNat_lt
  have hright := step.right.toNat_lt
  have hsplit := step.byte_add_carryOut
  have hsum : step.sum.toNat = step.left.toNat + step.right.toNat + step.carry.toNat := by
    simp only [sum, UInt16.toNat_add, UInt8.toNat_toUInt16]
    omega
  omega

end AddStep

/-- The carry that steps pass on, which is that of the step at the top: the last one taken. -/
def lastCarry : List AddStep → UInt16
  | [] => 0
  | step :: _ => step.carryOut

@[simp] theorem lastCarry_cons (step : AddStep) (steps : List AddStep) :
    lastCarry (step :: steps) = step.carryOut := rfl

/-- The steps of the carry chain of two strings, in the order of the bytes. Each of them gets the
    carry that those behind it pass on. -/
def addSteps : List UInt8 → List UInt8 → List AddStep
  | a :: as, b :: bs =>
    let behind := addSteps as bs
    ⟨a, b, lastCarry behind⟩ :: behind
  | _, _ => []

@[simp] theorem length_addSteps (as bs : List UInt8) :
    (addSteps as bs).length = min as.length bs.length := by
  induction as generalizing bs with
  | nil => simp [addSteps]
  | cons a as ih => cases bs <;> simp [addSteps, ih]

/-- `addCarry` gives the bytes of its steps and the carry of the last one. -/
theorem addCarry_eq_steps (as bs : List UInt8) :
    addCarry as bs = ((addSteps as bs).map AddStep.byte, lastCarry (addSteps as bs)) := by
  induction as generalizing bs with
  | nil => rfl
  | cons a as ih =>
    cases bs with
    | nil => rfl
    | cons b bs =>
      rw [addCarry, ih bs]
      rfl

/-- `lastCarry` is a bit if the steps get bits; at first there is no carry. -/
private theorem toNat_lastCarry_le {steps : List AddStep}
    (h : ∀ step ∈ steps, step.carry.toNat ≤ 1) :
    (lastCarry steps).toNat ≤ 1 := by
  cases steps with
  | nil => decide
  | cons step steps => exact (step.toNat_sum_le (h step (by simp))).2.2

/-- `addSteps` gets a bit as carry in every step. -/
theorem carry_le_of_mem_addSteps (as bs : List UInt8) :
    ∀ step ∈ addSteps as bs, step.carry.toNat ≤ 1 := by
  fun_induction addSteps as bs with
  | case1 a as b bs behind ih => exact List.forall_mem_cons.mpr ⟨toNat_lastCarry_le ih, ih⟩
  | case2 => simp

/-! ## Sum and difference -/

/-- The bytes of `addSteps` and the carry that they pass on are the sum together. -/
private theorem value_addSteps {as bs : List UInt8} (hlen : as.length = bs.length) :
    value ((addSteps as bs).map AddStep.byte) +
        (lastCarry (addSteps as bs)).toNat * 256 ^ as.length =
      value as + value bs := by
  induction as, bs, hlen using sameLength_induction with
  | nil => decide
  | cons a as b bs hlen ih =>
    -- The step at the top adds its place to the sum of those behind it, which pass it their carry.
    have hcarry := toNat_lastCarry_le (carry_le_of_mem_addSteps as bs)
    have hsum := (AddStep.toNat_sum_le ⟨a, b, lastCarry (addSteps as bs)⟩ hcarry).1
    rw [← AddStep.byte_add_carryOut] at hsum
    simp only [addSteps, List.map_cons, lastCarry_cons, value_cons, List.length_map,
      length_addSteps, ← hlen, min_self, List.length_cons, pow_succ]
    linear_combination ih + 256 ^ as.length * hsum

/-- `addCarry` is exact: the wrapped sum and the carry together are the sum, and the carry is a bit.
    -/
theorem value_addCarry {as bs : List UInt8} (hlen : as.length = bs.length) :
    value (addCarry as bs).1 + (addCarry as bs).2.toNat * 256 ^ as.length = value as + value bs ∧
      (addCarry as bs).2.toNat ≤ 1 := by
  rw [addCarry_eq_steps]
  exact ⟨value_addSteps hlen, toNat_lastCarry_le (carry_le_of_mem_addSteps as bs)⟩

/-- What a step of `subBorrow` takes away: with a borrow it may be 256, which a byte does not hold.
    -/
private theorem toNat_taken (b : UInt8) {borrow : UInt16} (h : borrow.toNat ≤ 1) :
    (b.toUInt16 + borrow).toNat = b.toNat + borrow.toNat := by
  have hb := b.toNat_lt
  simp only [UInt16.toNat_add, UInt8.toNat_toUInt16]
  omega

/-- A step of `subBorrow` that finds enough gives the exact difference. -/
private theorem toNat_difference (a b : UInt8) {borrow : UInt16} (h : borrow.toNat ≤ 1)
    (hle : b.toUInt16 + borrow ≤ a.toUInt16) :
    (a.toUInt16 - (b.toUInt16 + borrow)).toUInt8.toNat + (b.toNat + borrow.toNat) = a.toNat := by
  have ha := a.toNat_lt
  have hle' : b.toNat + borrow.toNat ≤ a.toNat := by
    rwa [UInt16.le_iff_toNat_le, toNat_taken b h, UInt8.toNat_toUInt16] at hle
  rw [UInt16.toNat_toUInt8, UInt16.toNat_sub_of_le _ _ hle, toNat_taken b h, UInt8.toNat_toUInt16]
  omega

/-- A step of `subBorrow` that does not find enough gives the difference from 256 more, and that is
    a byte again. -/
private theorem toNat_difference_borrowed (a b : UInt8) {borrow : UInt16} (h : borrow.toNat ≤ 1)
    (hlt : ¬ b.toUInt16 + borrow ≤ a.toUInt16) :
    (a.toUInt16 + 256 - (b.toUInt16 + borrow)).toUInt8.toNat + (b.toNat + borrow.toNat) =
      a.toNat + 256 := by
  have ha := a.toNat_lt
  have hb := b.toNat_lt
  have hlt' : a.toNat < b.toNat + borrow.toNat := by
    rwa [UInt16.not_le, UInt16.lt_iff_toNat_lt, toNat_taken b h, UInt8.toNat_toUInt16] at hlt
  -- With 256 more there is enough, and 16 bits still hold it.
  have hleft : (a.toUInt16 + 256).toNat = a.toNat + 256 := by
    simp only [UInt16.toNat_add, UInt8.toNat_toUInt16, show (256 : UInt16).toNat = 256 from rfl]
    omega
  have hle : b.toUInt16 + borrow ≤ a.toUInt16 + 256 := by
    rw [UInt16.le_iff_toNat_le, toNat_taken b h, hleft]
    omega
  rw [UInt16.toNat_toUInt8, UInt16.toNat_sub_of_le _ _ hle, toNat_taken b h, hleft]
  omega

/-- `subBorrow` is exact: the wrapped difference and what is taken away together are what was there,
    with the borrow counting one unit above the top, and the borrow is a bit. -/
theorem value_subBorrow {as bs : List UInt8} (hlen : as.length = bs.length) :
    value (subBorrow as bs).1 + value bs = value as + (subBorrow as bs).2.toNat * 256 ^ as.length ∧
      (subBorrow as bs).2.toNat ≤ 1 := by
  induction as, bs, hlen using sameLength_induction with
  | nil => decide
  | cons a as b bs hlen ih =>
    obtain ⟨hval, hborrow⟩ := ih
    have hlow : (subBorrow as bs).1.length = as.length := by simp [hlen]
    simp only [subBorrow]
    split
    · -- There is enough, so the place in front keeps everything.
      rename_i hle
      have hbyte := toNat_difference a b hborrow hle
      refine ⟨?_, by simp⟩
      simp only [value_cons, hlow, ← hlen, UInt16.toNat_zero]
      linear_combination hval + 256 ^ as.length * hbyte
    · -- One unit is borrowed from the place in front.
      rename_i hlt
      have hbyte := toNat_difference_borrowed a b hborrow hlt
      refine ⟨?_, by simp⟩
      simp only [value_cons, hlow, ← hlen, UInt16.toNat_one, List.length_cons, pow_succ]
      linear_combination hval + 256 ^ as.length * hbyte

end FieldWord.Bytes

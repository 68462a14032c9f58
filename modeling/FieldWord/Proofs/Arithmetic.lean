import FieldWord.Proofs.Word256

/-!
# Sum, difference and product are exact

The results of the arithmetic on words are those of the integers modulo `2 ^ 256`, the flags tell
exactly when something was cut, and the checked forms give the exact result or none. Subtraction
undoes addition, with the same flag.

## Key results

- `addCarry_eq_add_mod`, `subBorrow_eq_sub_mod`, `mulOverflow_eq_mul_mod`: results, flags and
  checked forms
- `subBorrow_addCarry`: subtraction undoes addition
-/

namespace FieldWord.Word256

/-! ## Checked results -/

/-- `Option.map` of a result that is there exactly if a word has the integer gives the integer below
    `2 ^ 256`. -/
private theorem map_toNat_eq_ite {result : Option Word256} {n : Nat}
    (h : ∀ w, result = some w ↔ w.toNat = n) :
    result.map toNat = if n < 2 ^ 256 then some n else none := by
  by_cases hn : n < 2 ^ 256
  · have hword := toNat_ofNat_of_lt hn
    rw [if_pos hn, (h (ofNat n)).mpr hword, Option.map_some, hword]
  · rw [if_neg hn, Option.map_eq_none_iff, Option.eq_none_iff_forall_ne_some]
    intro w hw
    have hlt := w.toNat_lt
    rw [(h w).mp hw] at hlt
    exact hn hlt

/-! ## Sum -/

/-- `addCarry` gives the sum modulo `2 ^ 256` and tells whether that is less than the sum; `add?`
    gives the sum if it fits. The bytes and the flag come from the steps of the carry chain, in each
    of which the sum of two bytes and a carry is the exact one and at most 511, and the carry is at
    most one. -/
theorem addCarry_eq_add_mod (v w : Word256) :
    ((v.addCarry w).1.toNat = (v.toNat + w.toNat) % 2 ^ 256 ∧
      ((v.addCarry w).2 = true ↔ 2 ^ 256 ≤ v.toNat + w.toNat)) ∧
    (v.add? w).map toNat =
      (if v.toNat + w.toNat < 2 ^ 256 then some (v.toNat + w.toNat) else none) ∧
    ((v.addCarry w).1.byteList = (Bytes.addSteps v.byteList w.byteList).map Bytes.AddStep.byte ∧
      (v.addCarry w).2 = (Bytes.lastCarry (Bytes.addSteps v.byteList w.byteList) != 0)) ∧
    ∀ step ∈ Bytes.addSteps v.byteList w.byteList,
      step.sum.toNat = step.left.toNat + step.right.toNat + step.carry.toNat ∧
      step.sum.toNat ≤ 511 ∧
        step.carry.toNat ≤ 1 ∧ step.carryOut.toNat ≤ 1 := by
  obtain ⟨hvalue, hflag⟩ := toNat_addCarry v w
  refine ⟨⟨hvalue, by rw [hflag, decide_eq_true_iff]⟩, map_toNat_eq_ite fun _ => add?_eq_some_iff,
    ?_, ?_⟩
  · -- The bytes and the flag are those of the steps.
    have hsteps := Bytes.addCarry_eq_steps v.byteList w.byteList
    simp only [addCarry, byteList_ofByteList]
    rw [hsteps]
    exact ⟨rfl, rfl⟩
  · -- Every step gets a bit as carry.
    intro step hstep
    have hcarry := Bytes.carry_le_of_mem_addSteps _ _ step hstep
    obtain ⟨hsum, hle, hout⟩ := step.toNat_sum_le hcarry
    exact ⟨hsum, hle, hcarry, hout⟩

/-- `max` added to itself meets the bounds in its first byte. -/
theorem addCarry_eq_add_mod_max :
    (max.addCarry max).2 = true ∧ max.add? max = none ∧
      ⟨255, 255, 1⟩ ∈ Bytes.addSteps max.byteList max.byteList ∧
      (Bytes.AddStep.mk 255 255 1).sum.toNat = 511 ∧
      (Bytes.AddStep.mk 255 255 1).carryOut.toNat = 1 := by
  obtain ⟨⟨-, hflag⟩, hchecked, -, hsteps⟩ := addCarry_eq_add_mod max max
  have hover : 2 ^ 256 ≤ max.toNat + max.toNat := by decide
  have hmem : ⟨255, 255, 1⟩ ∈ Bytes.addSteps max.byteList max.byteList := by decide
  rw [if_neg (Nat.not_lt.mpr hover), Option.map_eq_none_iff] at hchecked
  exact ⟨hflag.mpr hover, hchecked, hmem, (hsteps _ hmem).1, by decide⟩

/-! ## Difference -/

/-- `subBorrow` undoes `addCarry`, and borrows where that carried. -/
theorem subBorrow_addCarry (v w : Word256) :
    (v.addCarry w).1.subBorrow w = (v, (v.addCarry w).2) := by
  obtain ⟨hsum, hcarry⟩ := toNat_addCarry v w
  obtain ⟨hdifference, hborrow⟩ := toNat_subBorrow (v.addCarry w).1 w
  have hv := v.toNat_lt
  have hw := w.toNat_lt
  have hword : ((v.addCarry w).1.subBorrow w).1.toNat = v.toNat := by
    rw [hdifference, hsum]
    omega
  -- A sum that was cut is below both summands, and one that was not is below neither.
  have hflag : ((v.addCarry w).1.subBorrow w).2 = (v.addCarry w).2 := by
    rw [hborrow, hcarry, hsum, decide_eq_decide]
    omega
  exact Prod.ext (toNat_inj.mp hword) hflag

/-- `subBorrow` gives the difference modulo `2 ^ 256`, as the operator does, and borrows exactly if
    the first word is the lesser one, by its integer and in the order of words. It undoes
    `addCarry`, and borrows where that carried. -/
theorem subBorrow_eq_sub_mod (v w : Word256) :
    (((v.subBorrow w).1.toNat : Int) = ((v.toNat : Int) - w.toNat) % 2 ^ 256 ∧
      ((v.subBorrow w).2 = true ↔ v.toNat < w.toNat)) ∧
    v - w = (v.subBorrow w).1 ∧
    ((v.subBorrow w).2 = true ↔ compare v w = .lt) ∧
    (v.addCarry w).1.subBorrow w = (v, (v.addCarry w).2) := by
  obtain ⟨hvalue, hflag⟩ := toNat_subBorrow v w
  have hw := w.toNat_lt
  have hborrows : (v.subBorrow w).2 = true ↔ v.toNat < w.toNat := by rw [hflag, decide_eq_true_iff]
  refine ⟨⟨?_, hborrows⟩, rfl, ?_, subBorrow_addCarry v w⟩
  · -- What is added before the subtraction in the natural numbers is a multiple of the modulus.
    rw [hvalue]
    omega
  · rw [hborrows, compare_eq_compare_toNat, Nat.compare_eq_lt]

/-! ## Product -/

/-- `mulOverflow` gives the product modulo `2 ^ 256` and tells whether that is less than the
    product; `mul?` gives the product if it fits. -/
theorem mulOverflow_eq_mul_mod (v w : Word256) :
    ((v.mulOverflow w).1.toNat = v.toNat * w.toNat % 2 ^ 256 ∧
      ((v.mulOverflow w).2 = true ↔ 2 ^ 256 ≤ v.toNat * w.toNat)) ∧
    (v.mul? w).map toNat =
      if v.toNat * w.toNat < 2 ^ 256 then some (v.toNat * w.toNat) else none := by
  obtain ⟨hvalue, hflag⟩ := toNat_mulOverflow v w
  exact ⟨⟨hvalue, by rw [hflag, decide_eq_true_iff]⟩, map_toNat_eq_ite fun _ => mul?_eq_some_iff⟩

end FieldWord.Word256

import FieldWord.Proofs.Bytes
import FieldWord.Proofs.Limbs
import FieldWord.Word256.Arith
import FieldWord.Word256.Native

/-!
# Words as integers

`Word256.toNat` is a bijection between words and the integers below `2 ^ 256`. Through it the order,
the arithmetic and the machine integers of words become those of the integers; nothing outside this
module looks at the bytes of a sum or product.

## Key results

- `toNat_inj`, `toNat_ofNat`: words are the integers below `2 ^ 256`
- `lt_iff_toNat_lt`, `le_iff_toNat_le`: their order is that of the integers
- `toNat_addCarry`, `toNat_subBorrow`, `toNat_mulOverflow`: the arithmetic wraps, and its flag says
  when
- `add?_eq_some_iff`, `mul?_eq_some_iff`: checked arithmetic gives the exact result or none
- `toNat_ofNative`, `toNative?_eq`: machine integers widen to words, and words narrow to them
-/

namespace FieldWord.Word256

/-- `toNat` of a word is below `2 ^ 256`. -/
theorem toNat_lt (w : Word256) : w.toNat < 2 ^ 256 := by
  have h := Bytes.value_lt w.byteList
  rwa [length_byteList, show 256 ^ 32 = 2 ^ 256 by norm_num] at h

/-- `toNat` tells words apart. -/
theorem toNat_inj {v w : Word256} : v.toNat = w.toNat ↔ v = w := by
  constructor
  · intro h
    exact ext (Bytes.value_inj (by simp) h)
  · rintro rfl
    rfl

/-- `toNat` of a word is the value of its bytes. -/
theorem toNat_ofByteList (bs : List UInt8) (h : bs.length = 32) :
    (ofByteList bs h).toNat = Bytes.value bs := by
  rw [toNat, byteList_ofByteList]

/-- `ofNat` wraps around at `2 ^ 256`. -/
theorem toNat_ofNat (n : Nat) : (ofNat n).toNat = n % 2 ^ 256 := by
  rw [ofNat, toNat_ofByteList, Bytes.value_ofNat, show 256 ^ 32 = 2 ^ 256 by norm_num]

theorem toNat_ofNat_of_lt {n : Nat} (h : n < 2 ^ 256) : (ofNat n).toNat = n := by
  rw [toNat_ofNat, Nat.mod_eq_of_lt h]

/-! ## Constants -/

@[simp] theorem toNat_zero : zero.toNat = 0 := by decide

/-! ## Order -/

/-- `compare` of two words compares their integers. -/
theorem compare_eq_compare_toNat (v w : Word256) : compare v w = compare v.toNat w.toNat :=
  Bytes.compare_eq_compare_value (by simp)

theorem lt_iff_toNat_lt {v w : Word256} : v < w ↔ v.toNat < w.toNat := by
  change compare v w = .lt ↔ _
  rw [compare_eq_compare_toNat, Nat.compare_eq_lt]

theorem le_iff_toNat_le {v w : Word256} : v ≤ w ↔ v.toNat ≤ w.toNat := by
  change (compare v w).isLE ↔ _
  rw [compare_eq_compare_toNat, Nat.isLE_compare]

/-! ## Sum and difference -/

/-- The flag of a carry or borrow is set when the bit is. -/
private theorem flag_eq (bit : UInt16) : (bit != 0) = decide (bit.toNat ≠ 0) := by
  rw [Bool.eq_iff_iff, bne_iff_ne, decide_eq_true_iff, ne_eq, ← UInt16.toNat_inj, UInt16.toNat_zero]

/-- `addCarry` wraps, and its flag tells whether it did. -/
theorem toNat_addCarry (v w : Word256) :
    (v.addCarry w).1.toNat = (v.toNat + w.toNat) % 2 ^ 256 ∧
      (v.addCarry w).2 = decide (2 ^ 256 ≤ v.toNat + w.toNat) := by
  obtain ⟨hsum, hcarry⟩ := Bytes.value_addCarry (show v.byteList.length = w.byteList.length by simp)
  have hlt := (v.addCarry w).1.toNat_lt
  rw [length_byteList, show 256 ^ 32 = 2 ^ 256 by norm_num] at hsum
  simp only [addCarry, toNat_ofByteList, flag_eq, decide_eq_decide] at hlt ⊢
  simp only [toNat]
  omega

/-- `subBorrow` wraps, and its flag tells whether it did. -/
theorem toNat_subBorrow (v w : Word256) :
    (v.subBorrow w).1.toNat = (v.toNat + 2 ^ 256 - w.toNat) % 2 ^ 256 ∧
      (v.subBorrow w).2 = decide (v.toNat < w.toNat) := by
  obtain ⟨hdifference, hborrow⟩ :=
    Bytes.value_subBorrow (show v.byteList.length = w.byteList.length by simp)
  have hlt := (v.subBorrow w).1.toNat_lt
  have hv := v.toNat_lt
  have hw := w.toNat_lt
  -- The borrow counts one unit above the 32 bytes.
  rw [length_byteList, show 256 ^ 32 = 2 ^ 256 by norm_num] at hdifference
  simp only [subBorrow, toNat_ofByteList, flag_eq, decide_eq_decide] at hlt ⊢
  simp only [toNat] at hv hw ⊢
  omega

/-- A result that is dropped when it was cut is the exact one. -/
private theorem checked_eq_some_iff {result : Word256 × Bool} {n : Nat} {w : Word256} :
    result.1.toNat = n % 2 ^ 256 ∧ result.2 = decide (2 ^ 256 ≤ n) →
      ((match result with
        | (exact, false) => some exact
        | (_, true) => none) = some w ↔ w.toNat = n) := by
  obtain ⟨exact, cut⟩ := result
  rintro ⟨hvalue, hcut⟩
  have hlt := w.toNat_lt
  cases cut with
  | false =>
    -- Nothing was cut, so the result is the number itself.
    have hfits : n < 2 ^ 256 := by simpa using hcut
    rw [Option.some.injEq, ← toNat_inj, hvalue, Nat.mod_eq_of_lt hfits, eq_comm]
  | true =>
    -- No word has the number.
    have hover : 2 ^ 256 ≤ n := by simpa using hcut
    simp only [reduceCtorEq, false_iff]
    omega

/-- `add?` gives the exact sum or nothing. -/
theorem add?_eq_some_iff {v w sum : Word256} :
    v.add? w = some sum ↔ sum.toNat = v.toNat + w.toNat :=
  checked_eq_some_iff (toNat_addCarry v w)

/-! ## Product -/

/-- `Bytes.ofNat` of the limbs, most significant limb first, gives the bytes of their integer. -/
private theorem value_flatMap_limbs (limbs : List UInt64) :
    Bytes.value (limbs.flatMap fun limb => Bytes.ofNat 8 limb.toNat) =
      Limbs.limbValue limbs.reverse := by
  induction limbs with
  | nil => rfl
  | cons limb limbs ih =>
    have hlimb : limb.toNat % 256 ^ 8 = limb.toNat := Nat.mod_eq_of_lt limb.toNat_lt
    -- The limbs behind take eight bytes each.
    have hlen : (limbs.flatMap fun limb => Bytes.ofNat 8 limb.toNat).length = 8 * limbs.length := by
      simp [List.length_flatMap, Nat.mul_comm]
    rw [List.flatMap_cons, Bytes.value_append, Bytes.value_ofNat, hlimb, ih, hlen,
      List.reverse_cons, Limbs.limbValue_append, List.length_reverse, Limbs.limbValue_cons,
      Limbs.limbValue_nil, pow_mul]
    norm_num
    ring

/-- `ofLimbs` keeps the integer of the limbs, of which the first counts most. -/
theorem toNat_ofLimbs (limbs : Vector UInt64 4) :
    (ofLimbs limbs).toNat = Limbs.limbValue limbs.toList.reverse := by
  rw [ofLimbs, toNat_ofByteList, value_flatMap_limbs]

/-- `Bytes.ofNat` of a limb of a word gives the eight bytes it was read from. -/
private theorem ofNat_value_chunk (w : Word256) (i : Nat) (h : i < 4) :
    Bytes.ofNat 8 (UInt64.ofNat (Bytes.value ((w.byteList.drop (8 * i)).take 8))).toNat =
      (w.byteList.drop (8 * i)).take 8 := by
  have hlen : ((w.byteList.drop (8 * i)).take 8).length = 8 := by
    simp
    omega
  have hlt := Bytes.value_lt ((w.byteList.drop (8 * i)).take 8)
  have hvalue := Bytes.ofNat_value ((w.byteList.drop (8 * i)).take 8)
  rw [hlen] at hlt hvalue
  rw [UInt64.toNat_ofNat_of_lt' (by simpa using hlt), hvalue]

/-- `ofLimbs` gives a word back from its limbs. -/
theorem ofLimbs_limbs (w : Word256) : ofLimbs w.limbs = w := by
  let chunk (i : Nat) := (w.byteList.drop (8 * i)).take 8
  have hlimbs : w.limbs.toList =
      [0, 1, 2, 3].map fun i => UInt64.ofNat (Bytes.value (chunk i)) := by
    rw [limbs, Vector.toList_ofFn]
    rfl
  have hchunk : ∀ i, chunk i ++ w.byteList.drop (8 * (i + 1)) = w.byteList.drop (8 * i) := by
    intro i
    rw [Nat.mul_succ, ← List.drop_drop, List.take_append_drop]
  -- From the last chunk on, each one is joined to what follows it.
  have hrest : w.byteList.drop (8 * 4) = [] := by simp
  apply ext
  rw [ofLimbs, byteList_ofByteList, hlimbs]
  simp only [List.map_cons, List.map_nil, List.flatMap_cons, List.flatMap_nil, chunk,
    ofNat_value_chunk w 0 (by decide), ofNat_value_chunk w 1 (by decide),
    ofNat_value_chunk w 2 (by decide), ofNat_value_chunk w 3 (by decide)]
  rw [← hrest, hchunk 3, hchunk 2, hchunk 1, hchunk 0, Nat.mul_zero, List.drop_zero]

/-- `limbs` keeps the integer of a word. -/
theorem limbValue_limbs (w : Word256) : Limbs.limbValue w.limbs.toList.reverse = w.toNat := by
  rw [← toNat_ofLimbs, ofLimbs_limbs]

/-- `mulOverflow` wraps, and its flag tells whether it did. -/
theorem toNat_mulOverflow (v w : Word256) :
    (v.mulOverflow w).1.toNat = v.toNat * w.toNat % 2 ^ 256 ∧
      (v.mulOverflow w).2 = decide (2 ^ 256 ≤ v.toNat * w.toNat) := by
  have hproduct := Limbs.columnValue_product v.limbs.toList.reverse w.limbs.toList.reverse
  have hcolumns := Limbs.toNat_lt_of_mem_product v.limbs.toList.reverse w.limbs.toList.reverse
  have hlength := Limbs.length_product v.limbs.toList.reverse w.limbs.toList.reverse
  rw [limbValue_limbs, limbValue_limbs] at hproduct
  simp only [mulOverflow, toNat_ofLimbs, Vector.toList_mk, List.reverse_reverse]
  generalize Limbs.product v.limbs.toList.reverse w.limbs.toList.reverse = columns at *
  -- The low four columns are the limbs of the result. What is not zero above them was cut off.
  have hlow : ∀ col ∈ columns.take 4, col.toNat < 2 ^ 64 :=
    fun col hcol => hcolumns col (List.mem_of_mem_take hcol)
  have hlt := Limbs.columnValue_lt (columns.take 4) hlow
  have hcut := Limbs.columnValue_eq_zero_iff (columns.drop 4)
  have hsplit := Limbs.columnValue_append (columns.take 4) (columns.drop 4)
  have hfour : (columns.take 4).length = 4 := by simp [hlength]
  have hflag : (columns.drop 4).any (· != 0) = decide (Limbs.columnValue (columns.drop 4) ≠ 0) := by
    rw [Bool.eq_iff_iff, decide_eq_true_iff, ne_eq, hcut]
    simp
  rw [List.take_append_drop, hproduct, hfour, ← pow_mul] at hsplit
  rw [hfour, ← pow_mul] at hlt
  rw [Limbs.limbValue_map_toLimb _ hlow, hflag, decide_eq_decide, hsplit]
  constructor
  · -- The higher columns count multiples of `2 ^ 256`.
    rw [Nat.add_mul_mod_self_left, Nat.mod_eq_of_lt hlt]
  · omega

/-- `mul?` gives the exact product or nothing. -/
theorem mul?_eq_some_iff {v w product : Word256} :
    v.mul? w = some product ↔ product.toNat = v.toNat * w.toNat :=
  checked_eq_some_iff (toNat_mulOverflow v w)

/-! ## Machine integers -/

/-- `ofNative` keeps the integer. -/
theorem toNat_ofNative (width : Width) (n : Native width) : (ofNative width n).toNat = n.toNat := by
  have hlt := n.isLt
  rw [ofNative, toNat_ofByteList, Bytes.value_replicate_zero_append, Bytes.value_ofNat]
  apply Nat.mod_eq_of_lt
  rwa [pow_mul, show 2 ^ 8 = 256 by norm_num] at hlt

/-- `ofNative` gives a word below `2 ^ 128`. -/
theorem toNat_ofNative_lt (width : Width) (n : Native width) :
    (ofNative width n).toNat < 2 ^ 128 := by
  have hsize := width.size_le
  rw [toNat_ofNative]
  exact Nat.lt_of_lt_of_le n.isLt (Nat.pow_le_pow_right (by decide) (by omega))

/-- `ofNative` of a byte keeps its integer. -/
theorem toNat_ofNative_byte (b : UInt8) : (ofNative .w8 b.toBitVec).toNat = b.toNat :=
  toNat_ofNative .w8 b.toBitVec

/-- `toNative?` narrows a word exactly below the bound of the machine integer: the bytes in front
    are then all zero. -/
theorem toNative?_eq (w : Word256) (width : Width) :
    w.toNative? width =
      if w.toNat < 2 ^ (8 * width.size) then some (.ofNat _ w.toNat) else none := by
  have hsize := width.size_le
  let high := w.byteList.take (32 - width.size)
  let low := w.byteList.drop (32 - width.size)
  have hlength : low.length = width.size := by
    simp [low]
    omega
  have hpow := Bytes.base_pow width.size
  -- The word is its high bytes, shifted up, and its low bytes.
  have hsplit : w.toNat = Bytes.value high * 2 ^ (8 * width.size) + Bytes.value low := by
    rw [toNat, ← List.take_append_drop (32 - width.size) w.byteList, Bytes.value_append, hlength,
      hpow]
  have hlow := Bytes.value_lt low
  rw [hlength, hpow] at hlow
  have hzero : high.all (· == 0) = true ↔ Bytes.value high = 0 := by
    simp [Bytes.value_eq_zero_iff]
  change (if high.all (· == 0) then some (BitVec.ofNat _ (Bytes.value low)) else none) = _
  by_cases hhigh : Bytes.value high = 0
  · -- No high byte is set, so the low bytes are the word.
    rw [if_pos (hzero.mpr hhigh), hsplit, hhigh, Nat.zero_mul, Nat.zero_add, if_pos hlow]
  · -- One unit in the high bytes already reaches the bound.
    have hle := Nat.le_mul_of_pos_left (2 ^ (8 * width.size)) (Nat.pos_of_ne_zero hhigh)
    rw [if_neg (mt hzero.mp hhigh), if_neg (by omega)]

end FieldWord.Word256

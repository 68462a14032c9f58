import FieldWord.Bytes.Basic

/-!
# Values of byte strings

What the operations of `FieldWord.Bytes.Basic` do to `value`.
-/

namespace FieldWord.Bytes

/-- `valueFrom` is zero only for zero bytes behind zero. -/
private theorem valueFrom_eq_zero_iff (n : Nat) (bs : List UInt8) :
    valueFrom n bs = 0 ↔ n = 0 ∧ ∀ b ∈ bs, b = 0 := by
  induction bs generalizing n with
  | nil => simp [valueFrom]
  | cons b bs ih =>
    have hb : b.toNat = 0 ↔ b = 0 := by rw [← UInt8.toNat_inj]; rfl
    simp only [valueFrom, ih, List.mem_cons, forall_eq_or_imp]
    grind

/-- `value` is zero exactly for zero bytes. -/
theorem value_eq_zero_iff (bs : List UInt8) : value bs = 0 ↔ ∀ b ∈ bs, b = 0 := by
  simp [value, valueFrom_eq_zero_iff]

/-- The 16-bit window of `divRem` is the remainder so far, shifted up by a byte, plus the next byte.
    Nothing is shifted out, since the remainder is below 256. -/
theorem toNat_window (remainder : UInt16) (b : UInt8) (h : remainder.toNat < 256) :
    ((remainder <<< 8) ||| b.toUInt16).toNat = remainder.toNat * 256 + b.toNat := by
  have hb := b.toNat_lt
  have hs : (remainder.toNat <<< 8) ||| b.toNat = remainder.toNat <<< 8 + b.toNat :=
    (Nat.shiftLeft_add_eq_or_of_lt (by omega) _).symm
  simp only [UInt16.toNat_or, UInt16.toNat_shiftLeft, UInt8.toNat_toUInt16]
  rw [show (8 : UInt16).toNat % 16 = 8 from rfl]
  rw [Nat.mod_eq_of_lt (by rw [Nat.shiftLeft_eq]; omega), hs, Nat.shiftLeft_eq]

/-- `divRem` gets a single byte as quotient of the window of a remainder below the divisor. -/
theorem window_div_lt {remainder divisor byte : Nat} (h : remainder < divisor)
    (hbyte : byte < 256) :
    (remainder * 256 + byte) / divisor < 256 := by
  refine Nat.div_lt_of_lt_mul ?_
  have := Nat.mul_le_mul_right 256 (show remainder + 1 ≤ divisor from h)
  omega

/-- `divRem` is exact, whatever the quotient of the bytes already divided: quotient times divisor
    plus remainder gives the dividend back, and the remainder stays below the divisor. -/
private theorem valueFrom_divRem (divisor : UInt8) (quotient : Nat) (remainder : UInt16)
    (bs : List UInt8) (h : remainder.toNat < divisor.toNat) :
    valueFrom quotient (divRem divisor remainder bs).1 * divisor.toNat +
          (divRem divisor remainder bs).2.toNat =
        valueFrom (quotient * divisor.toNat + remainder.toNat) bs ∧
      (divRem divisor remainder bs).2.toNat < divisor.toNat := by
  induction bs generalizing quotient remainder with
  | nil => simpa [divRem, valueFrom] using h
  | cons b bs ih =>
    have hd := divisor.toNat_lt
    have hb := b.toNat_lt
    have hw := toNat_window remainder b (by omega)
    let current := (remainder <<< 8) ||| b.toUInt16
    have hr :
        (current % divisor.toUInt16).toNat = (remainder.toNat * 256 + b.toNat) % divisor.toNat := by
      simp only [current, UInt16.toNat_mod, hw, UInt8.toNat_toUInt16]
    have hlt := window_div_lt h hb
    -- The quotient digit fits a byte, so the cast keeps it.
    have hq : (current / divisor.toUInt16).toUInt8.toNat =
        (remainder.toNat * 256 + b.toNat) / divisor.toNat := by
      simp only [current, UInt16.toNat_toUInt8, UInt16.toNat_div, hw, UInt8.toNat_toUInt16]
      exact Nat.mod_eq_of_lt hlt
    obtain ⟨hval, hrem⟩ := ih
      (quotient * 256 + (remainder.toNat * 256 + b.toNat) / divisor.toNat)
      (current % divisor.toUInt16)
      (by rw [hr]; exact Nat.mod_lt _ (by omega))
    refine ⟨?_, hrem⟩
    simp only [divRem, valueFrom]
    rw [hq, hval, hr]
    -- What is left is the division of the current window.
    have hsplit := Nat.div_add_mod (remainder.toNat * 256 + b.toNat) divisor.toNat
    congr 1
    rw [Nat.add_mul, Nat.mul_comm (_ / _) divisor.toNat, Nat.add_assoc, hsplit, Nat.add_mul,
      Nat.mul_right_comm, Nat.add_assoc]

/-- `divRem` of a whole string gives the quotient and the remainder of its integer. -/
theorem value_divRem (divisor : UInt8) (bs : List UInt8) (h : 0 < divisor.toNat) :
    value (divRem divisor 0 bs).1 * divisor.toNat + (divRem divisor 0 bs).2.toNat = value bs ∧
      (divRem divisor 0 bs).2.toNat < divisor.toNat := by
  simpa [value] using valueFrom_divRem divisor 0 0 bs (by simpa using h)

end FieldWord.Bytes

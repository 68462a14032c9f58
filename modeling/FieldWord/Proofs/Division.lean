import FieldWord.Proofs.Word256

/-!
# Division by a byte is exact

Long division goes through the bytes from the first on. Each step takes the remainder of the bytes
in front and the next byte together into a window of 16 bits, and divides that. The invariant is
that the remainder is below the divisor: then the window holds both without loss, and its quotient
is a single byte.

## Key results

- `DivStep.fits`: one step
- `divRem_eq_steps`, `remainder_lt_of_mem_divSteps`: the division consists of its steps, and each
  keeps the invariant
- `Word256.divRem_eq_div_mod`: quotient and remainder of a word
-/

namespace FieldWord.Bytes

/-! ## One step -/

/-- One step of a long division: the remainder of the bytes in front, and the byte that is divided
    with it. -/
structure DivStep where
  remainder : UInt16
  byte : UInt8
deriving DecidableEq, Repr

namespace DivStep

/-- What the step divides, in 16 bits. -/
def window (step : DivStep) : UInt16 := (step.remainder <<< 8) ||| step.byte.toUInt16

/-- The digit of the quotient, before it is cut to a byte. -/
def digit (divisor : UInt8) (step : DivStep) : UInt16 := step.window / divisor.toUInt16

/-- The remainder that the step passes on. -/
def remainderOut (divisor : UInt8) (step : DivStep) : UInt16 := step.window % divisor.toUInt16

/-- `remainderOut` is below a divisor other than zero. -/
private theorem remainderOut_lt {divisor : UInt8} (step : DivStep) (hdivisor : 0 < divisor.toNat) :
    (step.remainderOut divisor).toNat < divisor.toNat := by
  rw [remainderOut, UInt16.toNat_mod, UInt8.toNat_toUInt16]
  exact Nat.mod_lt _ hdivisor

/-- A step that gets a remainder below the divisor loses nothing: `window` is the exact one, and
    `digit` is a byte. -/
theorem fits {divisor : UInt8} (step : DivStep) (h : step.remainder.toNat < divisor.toNat) :
    step.window.toNat = step.remainder.toNat * 256 + step.byte.toNat ∧
      step.remainder.toNat * 256 + step.byte.toNat < 2 ^ 16 ∧ (step.digit divisor).toNat ≤ 255 := by
  have hdivisor := divisor.toNat_lt
  have hbyte := step.byte.toNat_lt
  have hwindow : step.window.toNat = step.remainder.toNat * 256 + step.byte.toNat :=
    toNat_window step.remainder step.byte (by omega)
  have hdigit := window_div_lt h hbyte
  refine ⟨hwindow, by omega, ?_⟩
  rw [digit, UInt16.toNat_div, UInt8.toNat_toUInt16, hwindow]
  omega

end DivStep

/-! ## All steps -/

/-- The steps of a long division, in the order of the bytes. Each of them gets the remainder that
    the one in front passes on. -/
def divSteps (divisor : UInt8) : UInt16 → List UInt8 → List DivStep
  | _, [] => []
  | remainder, b :: bs =>
    let step : DivStep := ⟨remainder, b⟩
    step :: divSteps divisor (step.remainderOut divisor) bs

/-- The remainder that steps leave, which is that of the last one; without a step, the one at first.
    -/
def lastRemainder (divisor : UInt8) : UInt16 → List DivStep → UInt16
  | remainder, [] => remainder
  | _, step :: steps => lastRemainder divisor (step.remainderOut divisor) steps

/-- `divSteps` takes the bytes of the string one after the other. -/
@[simp] theorem map_byte_divSteps (divisor : UInt8) (remainder : UInt16) (bs : List UInt8) :
    (divSteps divisor remainder bs).map DivStep.byte = bs := by
  induction bs generalizing remainder with
  | nil => rfl
  | cons b bs ih => rw [divSteps, List.map_cons, ih]

/-- `divRem` gives the digits of its steps and the remainder of the last one. -/
theorem divRem_eq_steps (divisor : UInt8) (remainder : UInt16) (bs : List UInt8) :
    divRem divisor remainder bs =
      ((divSteps divisor remainder bs).map fun step => (step.digit divisor).toUInt8,
        lastRemainder divisor remainder (divSteps divisor remainder bs)) := by
  induction bs generalizing remainder with
  | nil => rfl
  | cons b bs ih =>
    rw [divRem, ih]
    rfl

/-- `divSteps` gets a remainder below the divisor in every step if it does in the first. -/
theorem remainder_lt_of_mem_divSteps {divisor : UInt8} {remainder : UInt16}
    (bs : List UInt8) (h : remainder.toNat < divisor.toNat) :
    ∀ step ∈ divSteps divisor remainder bs, step.remainder.toNat < divisor.toNat := by
  induction bs generalizing remainder with
  | nil => simp [divSteps]
  | cons b bs ih =>
    have hout := DivStep.remainderOut_lt ⟨remainder, b⟩ (Nat.zero_lt_of_lt h)
    exact List.forall_mem_cons.mpr ⟨h, ih hout⟩

/-- `divRem` gives the digits of its steps as bytes: no cast cuts anything off. -/
private theorem map_toNat_divRem {divisor : UInt8} {remainder : UInt16} (bs : List UInt8)
    (h : remainder.toNat < divisor.toNat) :
    (divRem divisor remainder bs).1.map UInt8.toNat =
      (divSteps divisor remainder bs).map fun step => (step.digit divisor).toNat := by
  rw [divRem_eq_steps, List.map_map]
  apply List.map_congr_left
  intro step hstep
  have hdigit := (step.fits (remainder_lt_of_mem_divSteps bs h step hstep)).2.2
  rw [Function.comp_apply, UInt16.toNat_toUInt8]
  omega

end FieldWord.Bytes

namespace FieldWord.Word256

/-- `divRem` by a byte that is not zero gives the quotient and the remainder of the integers. It
    takes one step for each byte. In each of them the remainder so far is below the divisor, the
    window holds it and the byte without loss, and the digit is a byte; so the bytes of the quotient
    are the digits, and the byte of the remainder is the remainder that is left. -/
theorem divRem_eq_div_mod (w : Word256) (divisor : UInt8) (hdivisor : divisor ≠ 0) :
    (w.toNat = (w.divRem divisor).1.toNat * divisor.toNat + (w.divRem divisor).2.toNat ∧
      (w.divRem divisor).2.toNat < divisor.toNat) ∧
    ((Bytes.divSteps divisor 0 w.byteList).map Bytes.DivStep.byte = w.byteList ∧
      ∀ step ∈ Bytes.divSteps divisor 0 w.byteList,
        step.remainder.toNat < divisor.toNat ∧
        step.window.toNat = step.remainder.toNat * 256 + step.byte.toNat ∧
        step.remainder.toNat * 256 + step.byte.toNat < 2 ^ 16 ∧
        (step.digit divisor).toNat ≤ 255 ∧ (step.remainderOut divisor).toNat < divisor.toNat) ∧
    (w.divRem divisor).1.byteList.map UInt8.toNat =
      (Bytes.divSteps divisor 0 w.byteList).map (fun step => (step.digit divisor).toNat) ∧
    (w.divRem divisor).2.toNat =
      (Bytes.lastRemainder divisor 0 (Bytes.divSteps divisor 0 w.byteList)).toNat := by
  have hpos : 0 < divisor.toNat := Nat.pos_of_ne_zero fun h => hdivisor (UInt8.toNat_inj.mp h)
  have hzero : (0 : UInt16).toNat < divisor.toNat := hpos
  obtain ⟨hvalue, hlt⟩ := w.toNat_divRem divisor hpos
  refine ⟨⟨hvalue.symm, hlt⟩, ⟨Bytes.map_byte_divSteps divisor 0 w.byteList, ?_⟩, ?_, ?_⟩
  · -- Each step, by the remainder that it gets.
    intro step hstep
    have hremainder := Bytes.remainder_lt_of_mem_divSteps w.byteList hzero step hstep
    obtain ⟨hwindow, hfits, hdigit⟩ := step.fits hremainder
    exact ⟨hremainder, hwindow, hfits, hdigit, step.remainderOut_lt hpos⟩
  · -- The quotient, byte by byte.
    rw [divRem, byteList_ofByteList]
    exact Bytes.map_toNat_divRem w.byteList hzero
  · -- The last remainder is below the divisor, so the cast to a byte keeps it.
    have hlast := (Bytes.value_divRem divisor w.byteList hpos).2
    have hbyte := divisor.toNat_lt
    show (Bytes.divRem divisor 0 w.byteList).2.toUInt8.toNat = _
    rw [Bytes.divRem_eq_steps] at hlast ⊢
    rw [UInt16.toNat_toUInt8]
    exact Nat.mod_eq_of_lt (by omega)

/-- The bounds are met in the division by 255 of the word that starts with the byte 254 and has all
    other bits set: from the second byte on, the remainder is 254 and the digit 255. -/
theorem divRem_eq_div_mod_full :
    (255 : UInt8) ≠ 0 ∧
    ⟨254, 255⟩ ∈ Bytes.divSteps 255 0 (254 :: List.replicate 31 255) ∧
    (Bytes.DivStep.mk 254 255).window.toNat = 254 * 256 + 255 ∧
    (Bytes.DivStep.digit 255 ⟨254, 255⟩).toNat = 255 ∧
    ((ofByteList (254 :: List.replicate 31 255) rfl).divRem 255).2.toNat < 255 := by
  have hmem : ⟨254, 255⟩ ∈ Bytes.divSteps 255 0 (254 :: List.replicate 31 255) := by decide
  obtain ⟨⟨-, hlt⟩, ⟨-, hsteps⟩, -⟩ :=
    divRem_eq_div_mod (ofByteList (254 :: List.replicate 31 255) rfl) 255 (by decide)
  rw [byteList_ofByteList] at hsteps
  exact ⟨by decide, hmem, (hsteps _ hmem).2.1, by decide, hlt⟩

end FieldWord.Word256

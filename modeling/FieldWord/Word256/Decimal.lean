import FieldWord.Word256.Arith

/-!
# Writing decimal digits

Division by ten gives the decimal digits of a word from the last one to the first. They are written
into a buffer from its end towards its beginning, so that they stand in reading order when nothing
is left of the word. A digit for which the buffer has no place ends the writing without a result.
-/

namespace FieldWord

/-- The decimal digits of a word while they are written. -/
structure DecimalWriter where
  /-- The word without the digits written. -/
  rest : Word256
  /-- The characters. -/
  buffer : Vector UInt8 78
  /-- The place of the first character that is written; all behind it are. -/
  start : Nat
deriving DecidableEq, Repr

namespace DecimalWriter

/-- Nothing is written of a word yet. -/
def new (w : Word256) : DecimalWriter := ⟨w, .replicate 78 0, 78⟩

/-- The characters written. -/
def written (writer : DecimalWriter) : List UInt8 := writer.buffer.toList.drop writer.start

/-- Writes the last digit of the rest in front of the others, if there is a place. -/
def step? (writer : DecimalWriter) : Option DecimalWriter :=
  let division := writer.rest.divRem 10
  let place := writer.start - 1
  if h : 0 < writer.start ∧ place < 78 then
    some ⟨division.1, writer.buffer.set place ('0'.toUInt8 + division.2) h.2, place⟩
  else none

/-- `step?` divides the rest by ten. -/
theorem rest_of_step? {writer next : DecimalWriter} (h : writer.step? = some next) :
    next.rest = (writer.rest.divRem 10).1 := by
  simp only [step?] at h
  split at h
  · obtain rfl := Option.some.inj h
    rfl
  · cases h

/-- Writes digits until nothing is left, if all of them have a place. -/
def run? (writer : DecimalWriter) : Option DecimalWriter :=
  if writer.rest.isZero then some writer
  else match _hstep : writer.step? with
    | some next => next.run?
    | none => none
termination_by writer.rest.toNat
decreasing_by
  have hdivision := writer.rest.toNat_divRem 10 (by decide)
  have hrest : writer.rest.toNat ≠ 0 := by simp_all [Word256.isZero_iff_toNat_eq_zero]
  rw [rest_of_step? ‹writer.step? = some next›]
  simp only [show (10 : UInt8).toNat = 10 from rfl] at hdivision
  omega

/-- The text of the characters written, if they are one. -/
def text? (writer : DecimalWriter) : Option String := String.fromUTF8? writer.written.toByteArray

end DecimalWriter

end FieldWord

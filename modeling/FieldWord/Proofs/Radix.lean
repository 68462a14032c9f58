import FieldWord.Radix
import Mathlib.Data.Nat.Digits.Lemmas
import Mathlib.Tactic.Linarith
import Mathlib.Tactic.Ring

/-!
# Digits and what they denote

The digits of a radix by their alphabet: a character stands for its place in it, whatever its case.
The digits in a text denote an integer in positional notation, the first digit counting most; other
characters of the text are passed over.

## Key results

- `digit?_eq_place?`: the ranges of `Radix.digit?` are the alphabet
- `value_append`, `value_append_digit`: positional notation
- `value_le_append`: further characters never make the integer smaller
-/

namespace FieldWord.Radix

/-- The digits in ascending order, letters in lower case. -/
def alphabet : Radix → List Char
  | decimal => ['0', '1', '2', '3', '4', '5', '6', '7', '8', '9']
  | hexadecimal => ['0', '1', '2', '3', '4', '5', '6', '7', '8', '9', 'a', 'b', 'c', 'd', 'e', 'f']

/-- The place of a character in the alphabet, whatever its case. -/
def place? (radix : Radix) (c : Char) : Option Nat := radix.alphabet.idxOf? c.toLower

/-- Whether a character is a digit, in either case. -/
def IsDigit (radix : Radix) (c : Char) : Prop := c.toLower ∈ radix.alphabet

instance (radix : Radix) (c : Char) : Decidable (radix.IsDigit c) :=
  inferInstanceAs (Decidable (c.toLower ∈ radix.alphabet))

/-- The places of the digits in a text, in order. -/
def digits (radix : Radix) (cs : List Char) : List Nat := cs.filterMap radix.place?

/-- The integer that the digits in a text denote, the first one counting most. -/
def value (radix : Radix) (cs : List Char) : Nat :=
  Nat.ofDigits radix.base.toNat (radix.digits cs).reverse

/-! ## Digits -/

/-- `place?` finds nothing exactly for a character that is no digit. -/
theorem place?_eq_none_iff {radix : Radix} {c : Char} : radix.place? c = none ↔ ¬ radix.IsDigit c :=
  List.idxOf?_eq_none_iff

/-- `place?` finds every digit. -/
theorem isDigit_iff_exists_place {radix : Radix} {c : Char} :
    radix.IsDigit c ↔ ∃ d, radix.place? c = some d := by
  rw [← Option.ne_none_iff_exists', ne_eq, place?_eq_none_iff, not_not]

theorem not_isDigit_separator (radix : Radix) : ¬ radix.IsDigit '_' := by
  cases radix <;> decide

@[simp] theorem place?_separator (radix : Radix) : radix.place? '_' = none :=
  place?_eq_none_iff.mpr radix.not_isDigit_separator

/-- Among the first 128 characters the ranges of `digit?` are the alphabet. -/
private theorem digit?_ofNat_eq_place? :
    ∀ n < 128, ∀ radix ∈ [decimal, hexadecimal],
      (radix.digit? (Char.ofNat n)).map UInt8.toNat = radix.place? (Char.ofNat n) := by
  decide +kernel

/-- `IsDigit` holds of none but the first 128 characters. -/
theorem toNat_lt_of_isDigit {radix : Radix} {c : Char} (h : radix.IsDigit c) : c.toNat < 128 := by
  have hlower : c.toLower.toNat < 128 := by
    have hall : radix.alphabet.all (·.toNat < 128) = true := by cases radix <;> rfl
    exact of_decide_eq_true (List.all_eq_true.mp hall _ h)
  unfold Char.toLower at hlower
  split at hlower
  · -- An upper-case letter is one of the first 128 characters itself.
    rename_i hupper
    have hle : c.toNat ≤ 'Z'.toNat := hupper.2
    exact Nat.lt_of_le_of_lt hle (by decide)
  · exact hlower

/-- `digit?` gives the place of a character in the alphabet. -/
theorem digit?_eq_place? (radix : Radix) (c : Char) :
    (radix.digit? c).map UInt8.toNat = radix.place? c := by
  by_cases hc : c.toNat < 128
  · -- The first 128 characters are checked one by one.
    have h := digit?_ofNat_eq_place? c.toNat hc radix (by cases radix <;> decide)
    rwa [Char.ofNat_toNat] at h
  · -- Beyond the first 128 characters there is no digit on either side.
    have hplace : radix.place? c = none :=
      place?_eq_none_iff.mpr fun h => hc (toNat_lt_of_isDigit h)
    have hrange : ∀ bound : Char, bound.toNat < 128 → ¬ c ≤ bound := by
      intro bound hbound hle
      have : c.toNat ≤ bound.toNat := hle
      omega
    have hvalue : digitValue? c = none := by
      unfold digitValue?
      rw [if_neg fun h => hrange '9' (by decide) h.2, if_neg fun h => hrange 'f' (by decide) h.2,
        if_neg fun h => hrange 'F' (by decide) h.2]
    rw [hplace, digit?, hvalue]
    rfl

/-! ## Positional notation -/

theorem one_lt_base (radix : Radix) : 1 < radix.base.toNat := by
  cases radix <;> decide

theorem digits_append (radix : Radix) (as bs : List Char) :
    radix.digits (as ++ bs) = radix.digits as ++ radix.digits bs := by
  simp [digits]

@[simp] theorem value_nil (radix : Radix) : radix.value [] = 0 := rfl

/-- `value` counts the digits in front with the weight of those behind. -/
theorem value_append (radix : Radix) (as bs : List Char) :
    radix.value (as ++ bs) =
      radix.value as * radix.base.toNat ^ (radix.digits bs).length + radix.value bs := by
  rw [value, digits_append, List.reverse_append, Nat.ofDigits_append, List.length_reverse, value,
    value]
  ring

/-- `value` with one more digit is multiplied by the base before the digit is added. -/
theorem value_append_digit {radix : Radix} {c : Char} {d : Nat} (h : radix.place? c = some d)
    (cs : List Char) :
    radix.value (cs ++ [c]) = radix.value cs * radix.base.toNat + d := by
  rw [value_append]
  simp [digits, value, h]

/-- `value` passes over a character that is no digit. -/
theorem value_append_other {radix : Radix} {c : Char} (h : radix.place? c = none) (cs : List Char) :
    radix.value (cs ++ [c]) = radix.value cs := by
  rw [value_append]
  simp [digits, value, h]

/-- `value` does not get smaller with further characters. -/
theorem value_le_append (radix : Radix) (as bs : List Char) :
    radix.value as ≤ radix.value (as ++ bs) := by
  have hpow := Nat.one_le_pow (radix.digits bs).length _ (Nat.zero_lt_of_lt radix.one_lt_base)
  rw [value_append]
  nlinarith

/-- `value` passes over a zero in front. -/
@[simp] theorem value_zero_cons (radix : Radix) (cs : List Char) :
    radix.value ('0' :: cs) = radix.value cs := by
  have hzero : radix.value ['0'] = 0 := by cases radix <;> decide
  rw [← List.singleton_append, value_append, hzero, Nat.zero_mul, Nat.zero_add]

/-- `value` passes over any number of zeros in front. -/
theorem value_replicate_zero_append (radix : Radix) (n : Nat) (cs : List Char) :
    radix.value (List.replicate n '0' ++ cs) = radix.value cs := by
  induction n with
  | zero => simp
  | succ n ih => simp [List.replicate_succ, ih]

/-- `value` is the same without the zeros in front. -/
theorem value_dropWhile_zero (radix : Radix) (cs : List Char) :
    radix.value (cs.dropWhile (· == '0')) = radix.value cs := by
  induction cs with
  | nil => rfl
  | cons c cs ih =>
    by_cases hc : c = '0'
    · simp [hc, ih]
    · simp [hc]

end FieldWord.Radix
